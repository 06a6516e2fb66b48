import BlockMiner.BlkCyclePaid
import BlockMiner.EngineDistribute

/-!
# One payout pool for each user

A user mines for POL or for BLK, as the column `miningPayoutMode` says. The
BLK cycles select users by the column. The engine works on a copy of it in
the loaded miner, which it takes from a profile object, and the profile
objects differ in shape: the profile loader hands over the whole profile,
while `miner:join` and `syncEngineMiners` each build an object of their own,
which has no field for the mode. `createOrGetMiner` takes a missing mode for
"pol", so such a load turns a BLK miner into a POL miner until the next
`reloadMinerProfile`.

`modeDropped` is not in the source: it marks the users whose mode was last
loaded from an object that does not say what the column says.
-/

namespace BlockMiner

open Engine

/-- The engine beside the BLK cycles, over one users table. -/
structure Pools where
  engine : Engine
  blk : InFlight BlkCycle.Db BlkCycle.Call
  modeDropped : UserId → Bool

namespace Pools

/-- `miningPayoutMode` of a user. -/
def storedMode (s : Pools) (u : UserId) : Option PayoutMode :=
  (s.blk.db.users.row u).map (·.miningPayoutMode)

/-- What `getOrCreateMinerProfile` reads from the other tables. -/
structure ProfileRow where
  username : Option String
  rigs : Nat
  base_hash_rate : ℚ
  balance : ℚ
  refCode : Option String
  referralCount : Nat

/-- The profile as `getOrCreateMinerProfile` returns it. -/
def minerProfile (mode : PayoutMode) (r : ProfileRow) : Profile where
  rigs := some r.rigs
  base_hash_rate := some r.base_hash_rate
  balance := some r.balance
  refCode := r.refCode
  referralCount := some r.referralCount
  mining_payout_mode := some (if mode = .blk then .blk else .pol)
  miningPayoutMode := some mode

/-- The object that `miner:join` and `syncEngineMiners` build from it. -/
def joinProfile (r : ProfileRow) : Profile where
  rigs := some r.rigs
  base_hash_rate := some r.base_hash_rate
  balance := some r.balance
  lifetimeMined := some 0
  refCode := r.refCode
  referralCount := some r.referralCount

def setDropped (s : Pools) (u : UserId) (dropped : Bool) : Pools :=
  { s with modeDropped := Function.update s.modeDropped u dropped }

/-- Does the object of a call of `createOrGetMiner` say what the column says?
Without an object a loaded miner keeps its mode. -/
def dropsMode (s : Pools) (req : JoinRequest) : Bool :=
  match req.profile with
  | some p => s.storedMode req.userId ≠ some p.payoutMode
  | none =>
      if (s.engine.findMinerByUserId req.userId).isSome then s.modeDropped req.userId
      else s.storedMode req.userId ≠ some .pol

def createOrGetMiner (s : Pools) (uuid : MinerId) (req : JoinRequest) : Option Pools :=
  (s.engine.createOrGetMiner uuid req).map fun engine =>
    { s with engine }.setDropped req.userId (s.dropsMode req)

/-- `miner:join` with a valid token. -/
def minerJoin (s : Pools) (uuid : MinerId) (u : UserId) (r : ProfileRow) : Option Pools :=
  match s.blk.db.users.row u with
  | none => some s
  | some _ => s.createOrGetMiner uuid ⟨u, r.username, none, some (joinProfile r)⟩

/-- One round of the loop of `syncEngineMiners`. -/
def syncEngineMiner (s : Pools) (uuid : MinerId) (u : UserId) (r : ProfileRow) : Option Pools :=
  match s.blk.db.users.row u with
  | none => some s
  | some user =>
      if user.isBanned || r.base_hash_rate ≤ 0 then some s
      else s.createOrGetMiner uuid ⟨u, r.username, none, some (joinProfile r)⟩

/-- `reloadMinerProfile` with the loader that `server.js` installs. -/
def reloadMinerProfile (s : Pools) (u : UserId) (r : ProfileRow) : Pools :=
  match s.blk.db.users.row u with
  | none => s
  | some user =>
      { s with
        engine := s.engine.reloadMinerProfile u (some (minerProfile user.miningPayoutMode r)) }
        |>.setDropped u false

inductive Event where
  | minerJoin (uuid : MinerId) (u : UserId) (r : ProfileRow)
  | syncEngineMiner (uuid : MinerId) (u : UserId) (r : ProfileRow)
  | createOrGetMiner (uuid : MinerId) (req : JoinRequest)
  | reloadMinerProfile (u : UserId) (r : ProfileRow)
  | tick (now : Nat)
  | blk (event : BlockMiner.Event BlkCycle.Request BlkCycle.Answer)

def step (s : Pools) : Event → Option Pools
  | .minerJoin uuid u r => s.minerJoin uuid u r
  | .syncEngineMiner uuid u r => s.syncEngineMiner uuid u r
  | .createOrGetMiner uuid req => s.createOrGetMiner uuid req
  | .reloadMinerProfile u r => some (s.reloadMinerProfile u r)
  | .tick now => some { s with engine := (s.engine.tick now).1 }
  | .blk event => (BlkCycle.service.step s.blk event).map fun blk => { s with blk }

def sys : System Pools Event := ⟨step⟩

/-! ## What a tick does to modes and work -/

/-- The owner and the mode of a miner. -/
def modeOf (m : Miner) : UserId × PayoutMode := (m.userId, m.miningPayoutMode)

/-- Two engines whose miners have the same owners and modes. -/
def SameModes (e e' : Engine) : Prop :=
  ∀ id, (e'.miner? id).map modeOf = (e.miner? id).map modeOf

theorem SameModes.trans {e e' e'' : Engine} (h : SameModes e e') (h' : SameModes e' e'') :
    SameModes e e'' := fun id => (h' id).trans (h id)

theorem sameModes_modifyMiner {f : Miner → Miner}
    (hf : ∀ m, (f m).miningPayoutMode = m.miningPayoutMode) (e : Engine) (id : MinerId) :
    SameModes e (e.modifyMiner id f) := by
  intro x
  rw [miner?_modifyMiner]
  split
  · rw [Option.map_map]
    congr 1
    funext m
    exact Prod.ext rfl (hf m)
  · rfl

theorem expireBoost_mode (now : Nat) (m : Miner) :
    (expireBoost now m).miningPayoutMode = m.miningPayoutMode := by
  unfold expireBoost
  split <;> rfl

theorem accumulateMiner_sameModes (now : Nat) (acc : TickAcc) (entry : MinerId × Miner) :
    SameModes acc.engine (accumulateMiner now acc entry).engine := by
  have hmod := sameModes_modifyMiner (expireBoost_mode now) acc.engine entry.1
  unfold accumulateMiner
  cases hmode : (expireBoost now entry.2).miningPayoutMode <;> simp only [hmode] <;> exact hmod

theorem accumulateLoop_sameModes (now : Nat) :
    ∀ (entries : List (MinerId × Miner)) (acc : TickAcc),
      SameModes acc.engine (entries.foldl (accumulateMiner now) acc).engine
  | [], _ => fun _ => rfl
  | entry :: entries, acc =>
      (accumulateMiner_sameModes now acc entry).trans (accumulateLoop_sameModes now entries _)

theorem payLoop_sameModes (reward totalWork : ℚ) :
    ∀ (entries : List (MinerId × ℚ)) (acc : PayAcc),
      SameModes acc.engine (entries.foldl (payMiner reward totalWork) acc).engine
  | [], _ => fun _ => rfl
  | entry :: entries, acc => by
      refine SameModes.trans ?_ (payLoop_sameModes reward totalWork entries _)
      rcases payMiner_cases reward totalWork acc entry with heq | ⟨m, -, heq⟩
      · rw [heq]
        exact fun _ => rfl
      · rw [heq]
        exact sameModes_modifyMiner
          (f := rewarded (reward * (entry.2 / totalWork))) (fun _ => rfl) acc.engine entry.1

theorem distributeRewards_sameModes (e : Engine) (now : Nat) :
    SameModes e (e.distributeRewards now).1 := by
  unfold distributeRewards
  by_cases hwork : e.totalWork ≤ 0
  · simp only [if_pos hwork, clearLoop_eq]
    exact fun _ => rfl
  · simp only [if_neg hwork]
    exact payLoop_sameModes rewardBase e.totalWork e.roundWork.entries ⟨e, [], .empty, .empty⟩

theorem tick_sameModes (e : Engine) (now : Nat) : SameModes e (e.tick now).1 := by
  have hacc : SameModes e (e.accumulateWork now) :=
    accumulateLoop_sameModes now e.store.miners.entries ⟨e, 0, 0⟩
  unfold tick
  by_cases hdue : (e.accumulateWork now).nextBlockAt ≤ now
  · simp only [if_pos hdue]
    exact hacc.trans (distributeRewards_sameModes (e.accumulateWork now) now)
  · simp only [if_neg hdue]
    exact hacc

/-- Without work, and with none due, a miner has none after the tick. -/
theorem tick_workOf {e : Engine} {id : MinerId} {m : Miner} {now : Nat}
    (hm : e.miner? id = some m) (hdue : dueWork now m = 0) (hwork : e.workOf id = 0) :
    (e.tick now).1.workOf id = 0 := by
  have hacc : (e.accumulateWork now).workOf id = 0 := by
    rw [accumulateWork_workOf, hwork, hm, Option.map_some, Option.getD_some, hdue, add_zero]
  unfold tick
  by_cases hclose : (e.accumulateWork now).nextBlockAt ≤ now
  · simp only [if_pos hclose]
    have hclosed := (distributeRewards_closed (e.accumulateWork now) now).cleared id
    show (((e.accumulateWork now).distributeRewards now).1.roundWork.get? id).getD 0 = 0
    cases hget : ((e.accumulateWork now).distributeRewards now).1.roundWork.get? id with
    | none => rfl
    | some work => exact hclosed work hget
  · simp only [if_neg hclose]
    exact hacc

/-! ## What a load does to them -/

/-- The mode a user's miner has after a call of `createOrGetMiner`. -/
def joinedMode (e : Engine) (req : JoinRequest) : PayoutMode :=
  match req.profile with
  | some p => p.payoutMode
  | none => ((e.findMinerByUserId req.userId).map (·.miningPayoutMode)).getD .pol

theorem syncBalance_mode (dbBalance : ℚ) (m : Miner) :
    (syncBalance dbBalance m).miningPayoutMode = m.miningPayoutMode := by
  unfold syncBalance
  split <;> rfl

theorem rejoin_mode {e : Engine} {req : JoinRequest} {m : Miner}
    (h : e.findMinerByUserId req.userId = some m) :
    (rejoin req m).miningPayoutMode = joinedMode e req := by
  unfold rejoin joinedMode
  cases req.profile with
  | none => simp [h]
  | some p => exact syncBalance_mode ..

theorem newMiner_mode {e : Engine} {req : JoinRequest} (uuid : MinerId)
    (h : e.findMinerByUserId req.userId = none) :
    (newMiner uuid req).miningPayoutMode = joinedMode e req := by
  unfold newMiner joinedMode
  cases req.profile with
  | none => simp [h, Profile.payoutMode]
  | some p => rfl

/-- Mutating a user's miner leaves the miners of the others alone. -/
theorem modifyUser_modes {e : Engine} {u : UserId} {x : Miner}
    (hx : e.findMinerByUserId u = some x) {f : Miner → Miner} {id : MinerId} {m : Miner}
    (hm : (e.modifyMiner x.id f).miner? id = some m) :
    (m.userId = u ∧ m.miningPayoutMode = (f x).miningPayoutMode)
      ∨ (m.userId ≠ u ∧ e.miner? id = some m) := by
  obtain ⟨hxid, hxu⟩ := find_eq_some_iff.mp hx
  rw [miner?_modifyMiner] at hm
  split at hm
  case isTrue hid =>
    rw [hid, hxid, Option.map_some] at hm
    obtain rfl := Option.some.inj hm
    exact Or.inl ⟨hxu, rfl⟩
  case isFalse hid =>
    refine Or.inr ⟨fun hu => hid ?_, hm⟩
    have hsame := find_of_miner? hm
    rw [hu, hx] at hsame
    rw [Option.some.inj hsame, miner?_id hm]

/-- The miners of the others were there before. -/
theorem ne_of_find_none {e : Engine} {u : UserId} {id : MinerId} {m : Miner}
    (hnone : e.findMinerByUserId u = none) (hm : e.miner? id = some m) : m.userId ≠ u := by
  intro hu
  have hsame := find_of_miner? hm
  rw [hu, hnone] at hsame
  cases hsame

/-- The user's miner comes out with the mode of the load; the others stay. -/
theorem createOrGetMiner_modes {e e' : Engine} {uuid : MinerId} {req : JoinRequest}
    (h : e.createOrGetMiner uuid req = some e') {id : MinerId} {m : Miner}
    (hm : e'.miner? id = some m) :
    (m.userId = req.userId ∧ m.miningPayoutMode = joinedMode e req)
      ∨ (m.userId ≠ req.userId ∧ e.miner? id = some m) := by
  rcases createOrGetMiner_cases h with ⟨x, hx, rfl⟩ | ⟨hnone, -, -, hget⟩
  · exact (modifyUser_modes hx hm).imp_left fun ⟨hu, hmode⟩ => ⟨hu, hmode.trans (rejoin_mode hx)⟩
  · rw [hget] at hm
    split at hm
    case isTrue =>
      obtain rfl := Option.some.inj hm
      exact Or.inl ⟨rfl, newMiner_mode uuid hnone⟩
    case isFalse => exact Or.inr ⟨ne_of_find_none hnone hm, hm⟩

theorem reloadMinerProfile_modes {e : Engine} {u : UserId} {p : Profile} {id : MinerId} {m : Miner}
    (hm : (e.reloadMinerProfile u (some p)).miner? id = some m) :
    (m.userId = u ∧ m.miningPayoutMode = p.payoutMode)
      ∨ (m.userId ≠ u ∧ e.miner? id = some m) := by
  unfold Engine.reloadMinerProfile at hm
  cases hfind : e.findMinerByUserId u with
  | none =>
      rw [hfind] at hm
      exact Or.inr ⟨ne_of_find_none hfind hm, hm⟩
  | some x =>
      rw [hfind] at hm
      exact (modifyUser_modes hfind hm).imp_left fun ⟨hu, hmode⟩ =>
        ⟨hu, hmode.trans (syncBalance_mode ..)⟩

theorem minerProfile_mode (mode : PayoutMode) (r : ProfileRow) :
    (minerProfile mode r).payoutMode = mode := by
  cases mode <;> rfl

/-- A mutated miner was loaded before, for the same user. -/
theorem before_modify {e : Engine} {x id : MinerId} {f : Miner → Miner} {m : Miner}
    (hm : (e.modifyMiner x f).miner? id = some m) :
    ∃ m', e.miner? id = some m' ∧ m'.userId = m.userId := by
  rw [miner?_modifyMiner] at hm
  split at hm
  case isTrue =>
    obtain ⟨m', hm', rfl⟩ := Option.map_eq_some_iff.mp hm
    exact ⟨m', hm', rfl⟩
  case isFalse => exact ⟨m, hm, rfl⟩

/-- A load gives no one work: a miner that was loaded before keeps its own. -/
theorem createOrGetMiner_workOf {e e' : Engine} {uuid : MinerId} {req : JoinRequest}
    (h : e.createOrGetMiner uuid req = some e') {id : MinerId} {m : Miner}
    (hm : e'.miner? id = some m) :
    e'.workOf id = 0
      ∨ ∃ m', e.miner? id = some m' ∧ m'.userId = m.userId ∧ e'.workOf id = e.workOf id := by
  unfold Engine.createOrGetMiner at h
  split at h
  · obtain rfl := Option.some.inj h
    obtain ⟨m', hm', hu⟩ := before_modify hm
    exact Or.inr ⟨m', hm', hu, rfl⟩
  · split at h
    case isTrue =>
      obtain rfl := Option.some.inj h
      have hwork : (OrdMap.set e.roundWork uuid (0 : ℚ)).get? id
          = if id = uuid then some 0 else e.roundWork.get? id := OrdMap.get?_set ..
      have hrow : (e.store.miners.set uuid (newMiner uuid req)).get? id = some m := hm
      rw [OrdMap.get?_set] at hrow
      by_cases hid : id = uuid
      · rw [if_pos hid] at hwork
        exact Or.inl (congrArg (·.getD 0) hwork)
      · rw [if_neg hid] at hwork hrow
        exact Or.inr ⟨m, hrow, rfl, congrArg (·.getD 0) hwork⟩
    case isFalse => cases h

/-! ## A BLK user's miner -/

/-- The user's miner is in the pool that `modeDropped` says. -/
def Tracked (u : UserId) (s : Pools) : Prop :=
  ∀ id m, s.engine.miner? id = some m → m.userId = u →
    m.miningPayoutMode = if s.modeDropped u then .pol else .blk

/-- The user's miner has no work in the round. -/
def Workless (u : UserId) (s : Pools) : Prop :=
  ∀ id m, s.engine.miner? id = some m → m.userId = u → s.engine.workOf id = 0

theorem Tracked.find {s : Pools} {u : UserId} (h : Tracked u s) {m : Miner}
    (hm : s.engine.findMinerByUserId u = some m) :
    m.miningPayoutMode = if s.modeDropped u then .pol else .blk := by
  obtain ⟨hid, hu⟩ := find_eq_some_iff.mp hm
  exact h _ m hid hu

/-- Of a BLK user, `dropsMode` tells whether the load leaves the POL mode. -/
theorem joinedMode_eq {s : Pools} {req : JoinRequest} (h : Tracked req.userId s)
    (hblk : s.storedMode req.userId = some .blk) :
    joinedMode s.engine req = if s.dropsMode req then .pol else .blk := by
  unfold joinedMode dropsMode
  rw [hblk]
  cases req.profile with
  | some p =>
      show p.payoutMode = if decide (some PayoutMode.blk ≠ some p.payoutMode) then _ else _
      cases p.payoutMode <;> rfl
  | none =>
      cases hm : s.engine.findMinerByUserId req.userId with
      | none => simp
      | some m => simp [h.find hm]

theorem createOrGetMiner_eq_some {s s' : Pools} {uuid : MinerId} {req : JoinRequest}
    (h : s.createOrGetMiner uuid req = some s') :
    ∃ engine, s.engine.createOrGetMiner uuid req = some engine
      ∧ s' = { s with engine }.setDropped req.userId (s.dropsMode req) := by
  obtain ⟨engine, he, rfl⟩ := Option.map_eq_some_iff.mp h
  exact ⟨engine, he, rfl⟩

theorem createOrGetMiner_tracked {s s' : Pools} {u : UserId} {uuid : MinerId} {req : JoinRequest}
    (h : Tracked u s) (hblk : s.storedMode u = some .blk)
    (hs : s.createOrGetMiner uuid req = some s') : Tracked u s' := by
  obtain ⟨e', he, rfl⟩ := createOrGetMiner_eq_some hs
  intro id m hm hu
  show m.miningPayoutMode
    = if Function.update s.modeDropped req.userId (s.dropsMode req) u then .pol else .blk
  rcases createOrGetMiner_modes he hm with ⟨hreq, hmode⟩ | ⟨hreq, hold⟩
  · obtain rfl : req.userId = u := hreq.symm.trans hu
    rw [Function.update_self, hmode]
    exact joinedMode_eq h hblk
  · rw [Function.update_of_ne (hu ▸ hreq)]
    exact h id m hold hu

theorem createOrGetMiner_workless {s s' : Pools} {u : UserId} {uuid : MinerId} {req : JoinRequest}
    (h : Workless u s) (hs : s.createOrGetMiner uuid req = some s') : Workless u s' := by
  obtain ⟨e', he, rfl⟩ := createOrGetMiner_eq_some hs
  intro id m hm hu
  rcases createOrGetMiner_workOf he hm with hzero | ⟨m', hm', hu', hsame⟩
  · exact hzero
  · exact hsame.trans (h id m' hm' (hu'.trans hu))

/-! ## One step -/

/-- What a step does: nothing, a load, a reload, a tick or a step of the
cycles. -/
theorem step_cases {s s' : Pools} {event : Event} (h : s.step event = some s') :
    s' = s ∨ (∃ uuid req, s.createOrGetMiner uuid req = some s')
      ∨ (∃ u r user, s.blk.db.users.row u = some user
        ∧ s' = { s with
            engine := s.engine.reloadMinerProfile u
              (some (minerProfile user.miningPayoutMode r)) }.setDropped u false)
      ∨ (∃ now, event = .tick now ∧ s' = { s with engine := (s.engine.tick now).1 })
      ∨ ∃ b blk, event = .blk b ∧ BlkCycle.service.step s.blk b = some blk
        ∧ s' = { s with blk } := by
  cases event with
  | minerJoin uuid u r =>
      change s.minerJoin uuid u r = some s' at h
      unfold minerJoin at h
      split at h
      · exact Or.inl (Option.some.inj h).symm
      · exact Or.inr (Or.inl ⟨_, _, h⟩)
  | syncEngineMiner uuid u r =>
      change s.syncEngineMiner uuid u r = some s' at h
      unfold syncEngineMiner at h
      split at h
      · exact Or.inl (Option.some.inj h).symm
      · split at h
        · exact Or.inl (Option.some.inj h).symm
        · exact Or.inr (Or.inl ⟨_, _, h⟩)
  | createOrGetMiner uuid req => exact Or.inr (Or.inl ⟨uuid, req, h⟩)
  | reloadMinerProfile u r =>
      obtain rfl := Option.some.inj h
      unfold reloadMinerProfile
      split
      · exact Or.inl rfl
      case h_2 user hrow => exact Or.inr (Or.inr (Or.inl ⟨u, r, user, hrow, rfl⟩))
  | tick now =>
      obtain rfl := Option.some.inj h
      exact Or.inr (Or.inr (Or.inr (Or.inl ⟨now, rfl, rfl⟩)))
  | blk b =>
      obtain ⟨blk, hblk, rfl⟩ := Option.map_eq_some_iff.mp h
      exact Or.inr (Or.inr (Or.inr (Or.inr ⟨b, blk, rfl, hblk, rfl⟩)))

theorem reload_tracked {s : Pools} {u v : UserId} {user : BlkCycle.User} {r : ProfileRow}
    (h : Tracked u s) (hblk : s.storedMode u = some .blk)
    (hrow : s.blk.db.users.row v = some user) :
    Tracked u ({ s with
      engine := s.engine.reloadMinerProfile v
        (some (minerProfile user.miningPayoutMode r)) }.setDropped v false) := by
  intro id m hm hu
  show m.miningPayoutMode = if Function.update s.modeDropped v false u then .pol else .blk
  rcases reloadMinerProfile_modes hm with ⟨hv, hmode⟩ | ⟨hv, hold⟩
  · obtain rfl : v = u := hv.symm.trans hu
    have hstored : user.miningPayoutMode = .blk := by
      rw [storedMode, hrow] at hblk
      exact Option.some.inj hblk
    rw [Function.update_self, hmode, minerProfile_mode, hstored]
    rfl
  · rw [Function.update_of_ne (hu ▸ hv)]
    exact h id m hold hu

theorem reload_workless {s : Pools} {u : UserId} (h : Workless u s) (v : UserId) (p : Profile) :
    Workless u
      ({ s with engine := s.engine.reloadMinerProfile v (some p) }.setDropped v false) := by
  intro id m hm hu
  change (s.engine.reloadMinerProfile v (some p)).miner? id = some m at hm
  show (s.engine.reloadMinerProfile v (some p)).workOf id = 0
  rcases reloadMinerProfile_cases s.engine v (some p) with heq | ⟨_, x, -, -, heq⟩
  · rw [heq] at hm ⊢
    exact h id m hm hu
  · rw [heq] at hm ⊢
    obtain ⟨m', hm', hu'⟩ := before_modify hm
    exact h id m' hm' (hu'.trans hu)

/-- The miners before a tick, from those after it. -/
theorem before_tick {e : Engine} {now : Nat} {id : MinerId} {m : Miner}
    (hm : (e.tick now).1.miner? id = some m) :
    ∃ m', e.miner? id = some m' ∧ m'.userId = m.userId
      ∧ m'.miningPayoutMode = m.miningPayoutMode := by
  have hsame := tick_sameModes e now id
  rw [hm, Option.map_some] at hsame
  obtain ⟨m', hm', hmode⟩ := Option.map_eq_some_iff.mp hsame.symm
  exact ⟨m', hm', congrArg Prod.fst hmode, congrArg Prod.snd hmode⟩

theorem tracked_step {s s' : Pools} {u : UserId} {event : Event} (h : Tracked u s)
    (hblk : s.storedMode u = some .blk) (hstep : s.step event = some s') : Tracked u s' := by
  rcases step_cases hstep with rfl | ⟨uuid, req, hs⟩ | ⟨v, r, user, hrow, rfl⟩ | ⟨now, -, rfl⟩
    | ⟨b, blk, -, -, rfl⟩
  · exact h
  · exact createOrGetMiner_tracked h hblk hs
  · exact reload_tracked h hblk hrow
  · intro id m hm hu
    obtain ⟨m', hm', hu', hmode⟩ := before_tick hm
    rw [← hmode]
    exact h id m' hm' (hu'.trans hu)
  · exact h

/-! ## The pools of a run -/

/-- A tick finds the mode of the user as the column has it, or no hash rate. -/
def ModeKnown (u : UserId) (s : Pools) : Event → Prop
  | .tick now => s.modeDropped u = true →
      ∀ m ∈ s.engine.findMinerByUserId u, getMinerHashRate (expireBoost now m) = 0
  | _ => True

instance (u : UserId) (s : Pools) : ∀ event, Decidable (ModeKnown u s event)
  | .tick now => inferInstanceAs (Decidable (s.modeDropped u = true →
      ∀ m ∈ s.engine.findMinerByUserId u, getMinerHashRate (expireBoost now m) = 0))
  | .minerJoin .. | .syncEngineMiner .. | .createOrGetMiner .. | .reloadMinerProfile ..
  | .blk _ => inferInstanceAs (Decidable True)

/-- A tick accumulates no POL work for the user. -/
def NoNewPolWork (u : UserId) (s : Pools) : Event → Prop
  | .tick now => ∀ m ∈ s.engine.findMinerByUserId u,
      (s.engine.accumulateWork now).workOf m.id = s.engine.workOf m.id
  | _ => True

theorem dueWork_eq_zero_iff {s : Pools} {u : UserId} (h : Tracked u s) {m : Miner}
    (hm : s.engine.findMinerByUserId u = some m) (now : Nat) :
    dueWork now m = 0
      ↔ (s.modeDropped u = true → getMinerHashRate (expireBoost now m) = 0) := by
  rw [dueWork, expireBoost_mode, h.find hm]
  cases s.modeDropped u <;> simp

theorem noNewPolWork_iff {s : Pools} {u : UserId} (h : Tracked u s) (event : Event) :
    NoNewPolWork u s event ↔ ModeKnown u s event := by
  cases event with
  | tick now =>
      have hdue (m : Miner) (hm : s.engine.findMinerByUserId u = some m) :
          (s.engine.accumulateWork now).workOf m.id = s.engine.workOf m.id
            ↔ (s.modeDropped u = true → getMinerHashRate (expireBoost now m) = 0) := by
        rw [accumulateWork_workOf, (find_eq_some_iff.mp hm).1, Option.map_some, Option.getD_some,
          add_eq_left, dueWork_eq_zero_iff h hm]
      exact ⟨fun hwork hdropped m hm => (hdue m hm).mp (hwork m hm) hdropped,
        fun hknown m hm => (hdue m hm).mpr fun hdropped => hknown hdropped m hm⟩
  | minerJoin | syncEngineMiner | createOrGetMiner | reloadMinerProfile | blk => exact Iff.rfl

/-- Without new work a user's miner stays without work. -/
theorem workless_step {s s' : Pools} {u : UserId} {event : Event} (h : Workless u s)
    (hnone : NoNewPolWork u s event) (hstep : s.step event = some s') : Workless u s' := by
  rcases step_cases hstep with rfl | ⟨uuid, req, hs⟩ | ⟨v, r, user, hrow, rfl⟩ | ⟨now, rfl, rfl⟩
    | ⟨b, blk, -, -, rfl⟩
  · exact h
  · exact createOrGetMiner_workless h hs
  · exact reload_workless h v (minerProfile user.miningPayoutMode r)
  · intro id m hm hu
    obtain ⟨m', hm', hu', -⟩ := before_tick hm
    have hzero := h id m' hm' (hu'.trans hu)
    have hfind := find_of_miner? hm'
    rw [hu', hu] at hfind
    have hwork := hnone m' hfind
    rw [accumulateWork_workOf, miner?_id hm', hm', Option.map_some, Option.getD_some,
      add_eq_left] at hwork
    exact tick_workOf hm' hwork hzero
  · exact h

/-! ## A POL user and the cycles -/

/-- The users a call has selected. -/
def selected : BlkCycle.Call → List ℕ
  | .hashrates _ userIds => userIds
  | .pay _ entries => entries.map (·.userId)
  | _ => []

/-- The user is in no eligible set, was selected by no call in flight and has
been paid by no cycle. -/
structure OutOfBlk (u : UserId) (s : Pools) : Prop where
  ineligible : ∀ now activitySec,
    u ∉ BlkCycle.fetchActivityEligibleUserIds s.blk.db now activitySec
  unselected : ∀ i c, s.blk.calls.row i = some c → u ∉ selected c
  unpaid : ∀ l ∈ s.blk.db.logs, l.userId ≠ u

theorem not_eligible {db : BlkCycle.Db} {u : UserId}
    (hpol : (db.users.row u).map (·.miningPayoutMode) = some .pol) (now : ℤ) (activitySec : ℕ) :
    u ∉ BlkCycle.fetchActivityEligibleUserIds db now activitySec := by
  intro hmem
  obtain ⟨⟨id, user⟩, hrow, rfl⟩ := List.mem_map.mp hmem
  obtain ⟨hrow, helig⟩ := Table.mem_findMany.mp hrow
  rw [hrow] at hpol
  have hmode : user.miningPayoutMode = .pol := Option.some.inj hpol
  simp [BlkCycle.isEligible, hmode] at helig

/-- A payment goes to an entry. -/
theorem payWindow_logs {windowStart : ℤ} {totalReward : ℚ} {entries : List BlkCycle.Entry}
    {db db' : BlkCycle.Db} (h : BlkCycle.payWindow windowStart totalReward entries db = some db') :
    ∀ l ∈ db'.logs, l ∈ db.logs ∨ l.userId ∈ entries.map (·.userId) := by
  intro l hl
  unfold BlkCycle.payWindow at h
  by_cases hnobody : BlkCycle.totalHr entries ≤ 0 ∨ entries = []
  · simp only [if_pos hnobody] at h
    obtain ⟨-, rfl⟩ := BlkCycle.createCycle_eq_some h
    exact Or.inl hl
  · simp only [if_neg hnobody] at h
    by_cases hplan : BlkCycle.plan totalReward entries = []
    · simp only [if_pos hplan] at h
      obtain ⟨-, rfl⟩ := BlkCycle.createCycle_eq_some h
      exact Or.inl hl
    · simp only [if_neg hplan] at h
      obtain ⟨mid, hmid, hpaid⟩ := Option.bind_eq_some_iff.mp h
      obtain ⟨-, rfl⟩ := BlkCycle.createCycle_eq_some hmid
      obtain ⟨-, hlogs, -⟩ := BlkCycle.payAll_eq_some _ hpaid
      rw [hlogs] at hl
      rcases List.mem_append.mp hl with hold | hnew
      · exact Or.inl hold
      · obtain ⟨p, hp, rfl⟩ := List.mem_map.mp hnew
        obtain ⟨-, e, he, hu, -⟩ := BlkCycle.mem_planLoop _ _ entries totalReward p hp
        exact Or.inr (List.mem_map.mpr ⟨e, he, hu.symm⟩)

/-- The entries are for selected users. -/
theorem sortedEntries_userIds {userIds : List ℕ} {hashrate : ℕ → ℚ} {minHr : ℚ} {u : ℕ}
    (h : u ∈ (BlkCycle.sortedEntries userIds hashrate minHr).map (·.userId)) : u ∈ userIds := by
  obtain ⟨e, he, rfl⟩ := List.mem_map.mp h
  have hmem := (List.perm_insertionSort _ _).mem_iff.mp he
  obtain ⟨v, hv, rfl⟩ := List.mem_map.mp (List.mem_filter.mp hmem).1
  exact hv

theorem start_unselected {u : UserId} {db db' : BlkCycle.Db} {request : BlkCycle.Request}
    {calls : List BlkCycle.Call} (h : BlkCycle.start db request = some (db', calls)) :
    db'.logs = db.logs ∧ ∀ c ∈ calls, u ∉ selected c := by
  cases request with
  | runBlkRewardCycle config now windowStart =>
      obtain ⟨rfl, rfl⟩ := Prod.mk.inj (Option.some.inj h)
      refine ⟨rfl, fun c hc => ?_⟩
      split at hc
      · cases hc
      · obtain rfl := List.mem_singleton.mp hc
        exact List.not_mem_nil
  | updateUser userId isBanned miningPayoutMode lastHeartbeatAt lastLoginAt =>
      obtain ⟨rfl, rfl⟩ := Prod.mk.inj (Option.some.inj h)
      exact ⟨rfl, fun c hc => by cases hc⟩

theorem resume_unselected {u : UserId} {db db' : BlkCycle.Db} {c : BlkCycle.Call}
    {answer : BlkCycle.Answer} {next : Option BlkCycle.Call}
    (hpol : (db.users.row u).map (·.miningPayoutMode) = some .pol) (hc : u ∉ selected c)
    (h : BlkCycle.resume db c answer = some (db', next)) :
    (∀ l ∈ db'.logs, l ∈ db.logs ∨ l.userId ≠ u) ∧ ∀ c' ∈ next, u ∉ selected c' := by
  cases answer with
  | error =>
      have hend : BlkCycle.resume db c .error = some (db, none) := by cases c <;> rfl
      obtain ⟨rfl, rfl⟩ := Prod.mk.inj (Option.some.inj (hend.symm.trans h))
      exact ⟨fun _ hl => Or.inl hl, fun _ hc' => by cases hc'⟩
  | found =>
      cases c with
      | existing job =>
          simp only [BlkCycle.resume] at h
          split at h
          · obtain ⟨rfl, rfl⟩ := Prod.mk.inj (Option.some.inj h)
            exact ⟨fun _ hl => Or.inl hl, fun _ hc' => by cases hc'⟩
          · obtain ⟨rfl, rfl⟩ := Prod.mk.inj (Option.some.inj h)
            refine ⟨fun _ hl => Or.inl hl, fun c' hc' => ?_⟩
            obtain rfl := Option.some.inj hc'
            exact List.not_mem_nil
      | eligible | hashrates | pay => cases h
  | users now userIds =>
      cases c with
      | eligible job =>
          simp only [BlkCycle.resume] at h
          split at h
          case isTrue hperm =>
            obtain ⟨rfl, rfl⟩ := Prod.mk.inj (Option.some.inj h)
            refine ⟨fun _ hl => Or.inl hl, fun c' hc' => ?_⟩
            obtain rfl := Option.some.inj hc'
            exact fun hmem => not_eligible hpol now job.activitySec (hperm.mem_iff.mp hmem)
          case isFalse => cases h
      | existing | hashrates | pay => cases h
  | hashrates hashrate =>
      cases c with
      | hashrates job userIds =>
          obtain ⟨rfl, rfl⟩ := Prod.mk.inj (Option.some.inj h)
          refine ⟨fun _ hl => Or.inl hl, fun c' hc' => ?_⟩
          obtain rfl := Option.some.inj hc'
          exact fun hmem => hc (sortedEntries_userIds hmem)
      | existing | eligible | pay => cases h
  | committed =>
      cases c with
      | pay job entries =>
          obtain ⟨rfl, rfl⟩ := Prod.mk.inj (Option.some.inj h)
          refine ⟨fun l hl => ?_, fun _ hc' => by cases hc'⟩
          cases hpay : BlkCycle.payWindow job.windowStart job.totalReward entries db with
          | none =>
              rw [hpay] at hl
              exact Or.inl hl
          | some db' =>
              rw [hpay] at hl
              refine (payWindow_logs hpay l hl).imp_right fun hmem heq => hc ?_
              exact heq ▸ hmem
      | existing | eligible | hashrates => cases h

/-- No payment to the user, no selection of the user. -/
def BlkFree (u : UserId) : InFlight BlkCycle.Db BlkCycle.Call → Prop :=
  Service.Holds (fun db => ∀ l ∈ db.logs, l.userId ≠ u) (fun _ c => u ∉ selected c)

theorem blkFree_step {u : UserId} {s s' : InFlight BlkCycle.Db BlkCycle.Call}
    {b : BlockMiner.Event BlkCycle.Request BlkCycle.Answer} (h : BlkFree u s)
    (hpol : (s.db.users.row u).map (·.miningPayoutMode) = some .pol)
    (hstep : BlkCycle.service.step s b = some s') : BlkFree u s' := by
  refine BlkCycle.service.holds_step
    (C := fun db _ _ => (db.users.row u).map (·.miningPayoutMode) = some .pol) ?_ ?_ h ?_ hstep
  · intro db r db' cs hI hr
    obtain ⟨hlogs, hcs⟩ := start_unselected hr
    exact ⟨fun l hl => hI l (hlogs ▸ hl), fun _ hd => hd, hcs⟩
  · intro db c a db' next hI hJ hC hr
    obtain ⟨hlogs, hnext⟩ := resume_unselected hC hJ hr
    exact ⟨fun l hl => (hlogs l hl).elim (hI l) id, fun _ hd => hd, hnext⟩
  · cases b with
    | start => exact trivial
    | resume => exact fun _ _ => hpol

theorem pol_step {u : UserId} {s s' : Pools} {event : Event} (h : BlkFree u s.blk)
    (hpol : s.storedMode u = some .pol) (hstep : s.step event = some s') : BlkFree u s'.blk := by
  rcases step_cases hstep with rfl | ⟨uuid, req, hs⟩ | ⟨v, r, user, hrow, rfl⟩ | ⟨now, -, rfl⟩
    | ⟨b, blk, -, hblk, rfl⟩
  · exact h
  · obtain ⟨_, -, rfl⟩ := createOrGetMiner_eq_some hs
    exact h
  · exact h
  · exact h
  · exact blkFree_step h hpol hblk

/-! ## Runs -/

/-- Nothing loaded, no cycle yet. -/
def fresh (now : Nat) (users : Table BlkCycle.User) : Pools where
  engine := .new now
  blk := BlkCycle.fresh users
  modeDropped := fun _ => false

/-- The column says `mode` for the user. -/
def Stored (u : UserId) (mode : PayoutMode) (s : Pools) (_ : Event) : Prop :=
  s.storedMode u = some mode

instance (u : UserId) (mode : PayoutMode) (s : Pools) (event : Event) :
    Decidable (Stored u mode s event) :=
  inferInstanceAs (Decidable (s.storedMode u = some mode))

/-- **One pool for each user.** A user stored as a BLK miner throughout gets
no POL work exactly in the runs whose ticks all find the mode known, and is
without work at their ends. A user stored as a POL miner throughout stays out
of the cycles. -/
theorem single_pool {now : Nat} {users : Table BlkCycle.User} {events : List Event} {s : Pools}
    (u : UserId) (hrun : sys.run (fresh now users) events = some s) :
    (sys.Meets (Stored u .blk) (fresh now users) events →
        (sys.Meets (NoNewPolWork u) (fresh now users) events
          ↔ sys.Meets (ModeKnown u) (fresh now users) events)
        ∧ (sys.Meets (ModeKnown u) (fresh now users) events →
          ∀ m ∈ s.engine.findMinerByUserId u, s.engine.workOf m.id = 0))
      ∧ (sys.Meets (Stored u .pol) (fresh now users) events → s.storedMode u = some .pol →
        OutOfBlk u s) := by
  have htracked : Tracked u (fresh now users) := fun _ _ hm => by cases hm
  have hstep (s : Pools) (event : Event) (s' : Pools) (h : Tracked u s)
      (hblk : Stored u .blk s event) (hs : sys.step s event = some s') : Tracked u s' :=
    tracked_step h hblk hs
  refine ⟨fun hblk => ?_, fun hpol hstored => ?_⟩
  · have hiff : sys.Meets (NoNewPolWork u) (fresh now users) events
        ↔ sys.Meets (ModeKnown u) (fresh now users) events :=
      sys.meets_iff hstep (fun _ event h _ => noNewPolWork_iff h event) htracked hblk
    refine ⟨hiff, fun hknown m hm => ?_⟩
    have hworkless : Workless u s := sys.run_invariant
      (fun _ _ _ h hnone hs => workless_step h hnone hs) (fun _ _ hm => by cases hm)
      (hiff.mpr hknown) hrun
    obtain ⟨hid, hu⟩ := find_eq_some_iff.mp hm
    exact hworkless m.id m hid hu
  · have hfresh : BlkFree u (fresh now users).blk :=
      ⟨fun _ hl => absurd hl List.not_mem_nil, fun _ _ hc => by cases hc⟩
    have hfree : BlkFree u s.blk := sys.run_invariant (I := fun s => BlkFree u s.blk)
      (fun _ _ _ h hstored hs => pol_step h hstored hs) hfresh hpol hrun
    exact ⟨not_eligible hstored, hfree.2, hfree.1⟩

/-- User 1 mines for BLK, user 2 for POL. -/
def twoUsers : Table BlkCycle.User :=
  [⟨false, .blk, some 0, none, 0⟩, ⟨false, .pol, some 0, none, 0⟩].foldl Table.insert .empty

def tenHashes : ProfileRow := ⟨none, 1, 10, 0, none, 0⟩

/-- A cycle for the users that are eligible at time 1. -/
def oneCycle (userIds : List ℕ) : List Event :=
  [.blk (.start (.runBlkRewardCycle ⟨3 / 100, 600, 900, 1 / 10 ^ 8, false, 1⟩ 1 none)),
    .blk (.resume 1 .found), .blk (.resume 1 (.users 1 userIds)),
    .blk (.resume 1 (.hashrates fun _ => 10)), .blk (.resume 1 .committed)]

/-- Both users join, and the BLK user's profile is reloaded before the tick. -/
theorem single_pool_reloaded :
    ∃ s, sys.run (fresh 0 twoUsers) ([.minerJoin 11 1 tenHashes, .minerJoin 12 2 tenHashes,
        .reloadMinerProfile 1 tenHashes, .tick 1000] ++ oneCycle [1]) = some s
      ∧ s.blk.db.logs.map BlkCycle.BlkRewardLog.credit = [(1, 3 / 100)]
      ∧ s.engine.workOf 12 = 10
      ∧ (∀ m ∈ s.engine.findMinerByUserId 1, s.engine.workOf m.id = 0) ∧ OutOfBlk 2 s := by
  have hrun : (sys.run (fresh 0 twoUsers) ([.minerJoin 11 1 tenHashes, .minerJoin 12 2 tenHashes,
      .reloadMinerProfile 1 tenHashes, .tick 1000] ++ oneCycle [1])).isSome := by decide +kernel
  exact ⟨_, (Option.some_get hrun).symm, by decide +kernel +revert, by decide +kernel +revert,
    ((single_pool 1 (Option.some_get hrun).symm).1 (by decide +kernel)).2 (by decide +kernel),
    (single_pool 2 (Option.some_get hrun).symm).2 (by decide +kernel) (by decide +kernel +revert)⟩

/-- Without the reload, the BLK user gets POL work and the BLK reward. -/
theorem single_pool_joined :
    ∃ s, sys.run (fresh 0 twoUsers) ([.minerJoin 11 1 tenHashes, .tick 1000] ++ oneCycle [1])
        = some s
      ∧ sys.Meets (Stored 1 .blk) (fresh 0 twoUsers)
        ([.minerJoin 11 1 tenHashes, .tick 1000] ++ oneCycle [1])
      ∧ s.storedMode 1 = some .blk
      ∧ s.engine.workOf 11 = 10 ∧ (s.engine.findMinerByUserId 1).map (·.id) = some 11
      ∧ s.blk.db.logs.map BlkCycle.BlkRewardLog.credit = [(1, 3 / 100)] := by
  have hrun : (sys.run (fresh 0 twoUsers)
      ([.minerJoin 11 1 tenHashes, .tick 1000] ++ oneCycle [1])).isSome := by decide +kernel
  exact ⟨_, (Option.some_get hrun).symm, by decide +kernel, by decide +kernel +revert,
    by decide +kernel +revert, by decide +kernel +revert, by decide +kernel +revert⟩

end Pools

end BlockMiner
