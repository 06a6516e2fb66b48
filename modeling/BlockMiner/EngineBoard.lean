import BlockMiner.EngineDistribute
import BlockMiner.EngineRollback
import Mathlib.Data.List.Sort

/-!
# What the engine shows

`getLeaderboard` and `getPublicState` of `server/src/miningEngine.js`, in every
state that an engine can come to: its methods are called in any order, it ticks
while the clock runs, and the blocks that are handed to the persist callback
settle in any order, each persisted or rolled back.

The history has the latest blocks without a gap, at most twelve of them and at
least ten minutes apart; what the miners are shown to have got of a block adds
up to at most its reward; and `totalMinted` is what was persisted and what may
still be (`board_shown`). Hash rates of profiles are not negative.
-/

namespace BlockMiner

namespace OrdMap

variable {κ ν : Type*} [DecidableEq κ]

theorem upsert_of_not_mem {k : κ} {v : ν} :
    ∀ {es : List (κ × ν)}, k ∉ es.map Prod.fst → upsert k v es = es ++ [(k, v)]
  | [], _ => rfl
  | (k', v') :: es, h => by
    rw [List.map_cons, List.mem_cons, not_or] at h
    rw [upsert, if_neg (Ne.symm h.1), upsert_of_not_mem h.2, List.cons_append]

theorem sum_one_le {k : κ} {v : ℚ} (hv : 0 ≤ v) :
    ∀ {ks : List κ}, ks.Nodup → (ks.map fun x => if x = k then v else 0).sum ≤ v
  | [], _ => hv
  | x :: ks, h => by
    rw [List.nodup_cons] at h
    rw [List.map_cons, List.sum_cons]
    split_ifs with heq
    · subst heq
      have hzero : (ks.map fun y => if y = x then v else 0).sum = 0 := by
        refine List.sum_eq_zero fun z hz => ?_
        obtain ⟨y, hy, rfl⟩ := List.mem_map.mp hz
        rw [if_neg]
        rintro rfl
        exact h.1 hy
      rw [hzero, add_zero]
    · rw [zero_add]
      exact sum_one_le hv h.2

/-- Looked up once each, the values add up to at most their sum. -/
theorem sum_lookup_le {ks : List κ} (hks : ks.Nodup) :
    ∀ {es : List (κ × ℚ)}, (es.map Prod.fst).Nodup → (∀ p ∈ es, 0 ≤ p.2) →
      (ks.map fun k => (es.lookup k).getD 0).sum ≤ (es.map Prod.snd).sum
  | [], _, _ => by
    refine (List.sum_eq_zero fun z hz => ?_).le
    obtain ⟨k, -, rfl⟩ := List.mem_map.mp hz
    rfl
  | (k, v) :: es, hnodup, hnonneg => by
    rw [List.map_cons, List.nodup_cons] at hnodup
    have hrest := sum_lookup_le hks hnodup.2 fun p hp => hnonneg p (List.mem_cons_of_mem _ hp)
    have hone := sum_one_le (k := k) (hnonneg (k, v) List.mem_cons_self) hks
    have hsplit : (ks.map fun x => (((k, v) :: es).lookup x).getD 0)
        = ks.map fun x => (if x = k then v else 0) + (es.lookup x).getD 0 := by
      refine List.map_congr_left fun x _ => ?_
      rw [lookup_cons_ite]
      split_ifs with heq
      · rw [heq, lookup_of_not_mem hnodup.1, Option.getD_some, Option.getD_none, add_zero]
      · rw [zero_add]
    rw [hsplit, List.sum_map_add, List.map_cons, List.sum_cons]
    exact add_le_add hone hrest

end OrdMap

namespace Engine

/-! ## The public state -/

structure LeaderboardRow where
  id : MinerId
  username : Option String
  rigs : Nat
  active : Bool
  lifetimeMined : ℚ
  currentHashRate : ℚ

def leaderboardRow (m : Miner) : LeaderboardRow where
  id := m.id
  username := m.username
  rigs := m.rigs
  active := m.active
  lifetimeMined := m.lifetimeMined
  currentHashRate := getMinerHashRate m

def getLeaderboard (e : Engine) (limit : Nat) : List LeaderboardRow :=
  ((e.store.miners.entries.map fun entry => leaderboardRow entry.2).mergeSort fun a b =>
    b.lifetimeMined ≤ a.lifetimeMined).take limit

structure PublicBlock where
  blockNumber : Nat
  totalReward : ℚ
  userReward : ℚ
  minerCount : Nat
  timestamp : Nat

structure PublicMiner where
  id : MinerId
  username : Option String
  walletAddress : Option String
  rigs : Nat
  active : Bool
  balance : ℚ
  lifetimeMined : ℚ
  connected : Bool
  estimatedHashRate : ℚ
  refCode : Option String
  referralCount : Nat

def publicMiner (m : Miner) : PublicMiner where
  id := m.id
  username := m.username
  walletAddress := m.walletAddress
  rigs := m.rigs
  active := m.active
  balance := m.balance
  lifetimeMined := m.lifetimeMined
  connected := m.connected
  estimatedHashRate := getMinerHashRate m
  refCode := m.refCode.filter (· ≠ "")
  referralCount := m.referralCount

structure PublicState where
  serverTime : Nat
  tokenSymbol : String
  tokenPrice : ℚ
  blockReward : ℚ
  blockNumber : Nat
  blockProgress : ℚ
  blockCountdownSeconds : Nat
  totalMiners : Nat
  activeMiners : Nat
  networkHashRate : ℚ
  totalMinted : ℚ
  lastReward : ℚ
  blockHistory : List PublicBlock
  leaderboard : List LeaderboardRow
  miner : Option PublicMiner

def tokenSymbol : String := "POL"

def tokenPrice : ℚ := 35 / 100

/-- What a user is shown of a block; 0 is nobody. -/
def publicBlock (userId : UserId) (b : BlockRecord) : PublicBlock where
  blockNumber := b.blockNumber
  totalReward := b.reward
  userReward := if userId = 0 then 0 else (b.userRewards.get? userId).getD 0
  minerCount := b.minerCount
  timestamp := b.timestamp

/-- `Math.ceil(remainingMs / 1000)` -/
def countdownSeconds (remainingMs : Nat) : Nat := (remainingMs + 999) / 1000

def getPublicState (e : Engine) (minerId : Option MinerId) (now : Nat) : PublicState :=
  let miner := minerId.bind e.miner?
  let userId := (miner.map (·.userId)).getD 0
  { serverTime := now
    tokenSymbol
    tokenPrice
    blockReward := rewardBase
    blockNumber := e.blockNumber
    blockProgress := e.blockProgress
    blockCountdownSeconds := countdownSeconds (e.nextBlockAt - now)
    totalMiners := e.store.miners.entries.length
    activeMiners := e.activeMiners
    networkHashRate := e.currentNetworkHashRate
    totalMinted := e.totalMinted
    lastReward := e.lastReward
    blockHistory := e.blockHistory.map (publicBlock userId)
    leaderboard := e.getLeaderboard 10
    miner := miner.map publicMiner }

/-! ## Runs -/

/-- An engine with the blocks whose persist callback has not settled.
`persisted` is no field of it; it records what was persisted. -/
structure Board where
  engine : Engine
  pending : List PendingBlock
  clock : Nat
  persisted : ℚ

def Board.start (now : Nat) : Board := ⟨new now, [], now, 0⟩

inductive BoardEvent where
  | call (m : Method)
  | tick (now : Nat)
  | settle (i : Nat) (persisted : Bool)

/-- A method that others than the engine itself call. -/
def Method.isCalled : Method → Bool
  | .distributeRewards _ => false
  | .tick _ => false
  | .rollbackBlock _ => false
  | _ => true

def handed (p : PendingBlock) : ℚ := (p.payload.minerRewards.map (·.rewardAmount)).sum

def boardStep (b : Board) : BoardEvent → Option Board
  | .call m =>
      if m.isCalled then (callMethod b.engine m).map fun e => { b with engine := e } else none
  | .tick now =>
      if now < b.clock then none
      else some { b with
        engine := (b.engine.tick now).1
        pending := b.pending ++ (b.engine.tick now).2.toList
        clock := now }
  | .settle i persisted => b.pending[i]?.map fun p =>
      { b with
        engine := if persisted then b.engine else b.engine.rollbackBlock p
        pending := b.pending.eraseIdx i
        persisted := if persisted then b.persisted + handed p else b.persisted }

def board : System Board BoardEvent := ⟨boardStep⟩

def Profile.Fair (p : Profile) : Prop :=
  (∀ r ∈ p.base_hash_rate, 0 ≤ r) ∧ ∀ r ∈ p.baseHashRate, 0 ≤ r

/-- A profile that comes with the event has no negative hash rate. -/
def BoardEvent.Fair : BoardEvent → Prop
  | .call (.createOrGetMiner _ req) => ∀ p ∈ req.profile, p.Fair
  | .call (.reloadMinerProfile _ profile) => ∀ p ∈ profile, p.Fair
  | _ => True

/-! ## What holds of the history -/

/-- What the users are shown to have got is what the block paid, or less. -/
structure RecordOk (r : BlockRecord) : Prop where
  reward : r.reward = 0 ∨ r.reward = rewardBase
  nonneg : ∀ p ∈ r.userRewards.entries, 0 ≤ p.2
  total : (r.userRewards.entries.map Prod.snd).sum ≤ r.reward

structure HistoryOk (e : Engine) (clock : Nat) : Prop where
  first : 1 ≤ e.blockNumber
  count : e.blockHistory.length = min 12 (e.blockNumber - 1)
  numbers : ∀ i r, e.blockHistory[i]? = some r → r.blockNumber + i + 1 = e.blockNumber
  spaced : e.blockHistory.Pairwise fun r r' => r'.timestamp + blockDurationMs ≤ r.timestamp
  before : ∀ r ∈ e.blockHistory, r.timestamp ≤ e.blockStartedAt
  due : e.nextBlockAt = e.blockStartedAt + blockDurationMs
  started : e.blockStartedAt ≤ clock
  records : ∀ r ∈ e.blockHistory, RecordOk r
  progress : 0 ≤ e.blockProgress ∧ e.blockProgress ≤ blockTarget

section History

variable {e e' : Engine} {clock now : Nat}

/-- The fields that only the end of a block changes. -/
structure SameBlock (e e' : Engine) : Prop where
  number : e'.blockNumber = e.blockNumber
  history : e'.blockHistory = e.blockHistory
  startedAt : e'.blockStartedAt = e.blockStartedAt
  nextAt : e'.nextBlockAt = e.nextBlockAt
  progress : e'.blockProgress = e.blockProgress

theorem SameBlock.trans {e'' : Engine} (h : SameBlock e e') (h' : SameBlock e' e'') :
    SameBlock e e'' :=
  ⟨h'.number.trans h.number, h'.history.trans h.history, h'.startedAt.trans h.startedAt,
    h'.nextAt.trans h.nextAt, h'.progress.trans h.progress⟩

theorem HistoryOk.same (h : HistoryOk e clock) (hsame : SameBlock e e') : HistoryOk e' clock where
  first := hsame.number ▸ h.first
  count := by
    rw [hsame.history, hsame.number]
    exact h.count
  numbers i r hr := by
    rw [hsame.history] at hr
    rw [hsame.number]
    exact h.numbers i r hr
  spaced := hsame.history ▸ h.spaced
  before r hr := by
    rw [hsame.history] at hr
    rw [hsame.startedAt]
    exact h.before r hr
  due := by
    rw [hsame.nextAt, hsame.startedAt]
    exact h.due
  started := hsame.startedAt ▸ h.started
  records := hsame.history ▸ h.records
  progress := hsame.progress ▸ h.progress

theorem HistoryOk.later (h : HistoryOk e clock) (hnow : clock ≤ now) : HistoryOk e now :=
  { h with started := h.started.trans hnow }

/-- The block in progress is closed at a time at which it is due. -/
theorem HistoryOk.close (h : HistoryOk e clock) (hdue : e.nextBlockAt ≤ now) {record : BlockRecord}
    (hrecord : RecordOk record) (hnumber : record.blockNumber = e.blockNumber)
    (htime : record.timestamp = now) (hnum : e'.blockNumber = e.blockNumber + 1)
    (hist : e'.blockHistory = (record :: e.blockHistory).take 12)
    (hstarted : e'.blockStartedAt = now) (hnext : e'.nextBlockAt = now + blockDurationMs)
    (hprogress : 0 ≤ e'.blockProgress ∧ e'.blockProgress ≤ blockTarget) : HistoryOk e' now where
  first := by
    rw [hnum]
    exact Nat.le_add_left ..
  count := by
    have hcount := h.count
    have hfirst := h.first
    rw [hist, List.length_take, List.length_cons, hnum]
    omega
  numbers i r hr := by
    rw [hist, List.getElem?_take] at hr
    split_ifs at hr
    rw [hnum]
    cases i with
    | zero =>
      obtain rfl := Option.some.inj hr
      rw [hnumber]
    | succ i =>
      have hold := h.numbers i r hr
      omega
  spaced := by
    rw [hist]
    refine List.Pairwise.sublist (List.take_sublist ..) (List.pairwise_cons.mpr ⟨?_, h.spaced⟩)
    intro r hr
    rw [htime]
    have hbefore := h.before r hr
    have hdue' := h.due
    omega
  before r hr := by
    rw [hist] at hr
    rw [hstarted]
    rcases List.mem_cons.mp (List.mem_of_mem_take hr) with rfl | hold
    · exact htime.le
    · have hbefore := h.before r hold
      have hdue' := h.due
      omega
  due := by rw [hnext, hstarted]
  started := hstarted.le
  records r hr := by
    rw [hist] at hr
    rcases List.mem_cons.mp (List.mem_of_mem_take hr) with rfl | hold
    · exact hrecord
    · exact h.records r hold
  progress := hprogress

end History

/-! ## The methods -/

def RatedMiner (m : Miner) : Prop := 0 ≤ m.baseHashRate ∧ 0 < m.boostMultiplier

/-- No hash rate and no work is negative. -/
structure Rated (e : Engine) : Prop where
  miners : ∀ id m, e.miner? id = some m → RatedMiner m
  work : ∀ p ∈ e.roundWork.entries, 0 ≤ p.2

/-- What a call of a method leaves. -/
structure Quiet (e e' : Engine) : Prop where
  same : SameBlock e e'
  minted : e'.totalMinted = e.totalMinted
  loaded : ∀ id, (e.miner? id).isSome = true → (e'.miner? id).isSome = true
  rated : Rated e → Rated e'

section Methods

variable {e e' : Engine}

theorem Quiet.refl (e : Engine) : Quiet e e :=
  ⟨⟨rfl, rfl, rfl, rfl, rfl⟩, rfl, fun _ h => h, fun h => h⟩

theorem quiet_modifyMiner (e : Engine) (id : MinerId) {f : Miner → Miner}
    (hf : ∀ m, RatedMiner m → RatedMiner (f m)) : Quiet e (e.modifyMiner id f) where
  same := ⟨rfl, rfl, rfl, rfl, rfl⟩
  minted := rfl
  loaded x hx := by
    rw [miner?_modifyMiner]
    split_ifs
    · rw [Option.isSome_map]
      exact hx
    · exact hx
  rated h :=
    { miners := fun x m hm => by
        rw [miner?_modifyMiner] at hm
        split_ifs at hm
        · obtain ⟨m₀, hm₀, rfl⟩ := Option.map_eq_some_iff.mp hm
          exact hf m₀ (h.miners x m₀ hm₀)
        · exact h.miners x m hm
      work := h.work }

theorem ratedMiner_syncBalance {m : Miner} (balance : ℚ) (h : RatedMiner m) :
    RatedMiner (syncBalance balance m) := by
  unfold syncBalance
  split_ifs <;> exact h

theorem orDefault_nonneg {x : Option ℚ} {d : ℚ} (hx : ∀ r ∈ x, 0 ≤ r) (hd : 0 ≤ d) :
    0 ≤ orDefault x d := by
  unfold orDefault
  cases x with
  | none => exact hd
  | some v =>
    dsimp only
    split_ifs
    · exact hd
    · exact hx v rfl

theorem ratedMiner_reloaded {p : Profile} (hp : p.Fair) (m : Miner) (h : RatedMiner m) :
    RatedMiner (reloaded p m) :=
  ratedMiner_syncBalance _ ⟨orDefault_nonneg hp.1 le_rfl, h.2⟩

theorem ratedMiner_rejoin {req : JoinRequest} (hp : ∀ p ∈ req.profile, p.Fair) (m : Miner)
    (h : RatedMiner m) : RatedMiner (rejoin req m) := by
  unfold rejoin
  cases hprofile : req.profile with
  | none => exact h
  | some p =>
    have hfair := hp p hprofile
    refine ratedMiner_syncBalance _ ⟨?_, h.2⟩
    exact orDefault_nonneg hfair.1 (orDefault_nonneg hfair.2 le_rfl)

theorem ratedMiner_newMiner {req : JoinRequest} (hp : ∀ p ∈ req.profile, p.Fair) (id : MinerId) :
    RatedMiner (newMiner id req) := by
  refine ⟨?_, one_pos⟩
  show 0 ≤ orDefault (req.profile.getD {}).base_hash_rate
    (orDefault (req.profile.getD {}).baseHashRate 0)
  cases hprofile : req.profile with
  | none => exact le_rfl
  | some p =>
    have hfair := hp p hprofile
    exact orDefault_nonneg hfair.1 (orDefault_nonneg hfair.2 le_rfl)

theorem quiet_createOrGetMiner {uuid : MinerId} {req : JoinRequest}
    (hp : ∀ p ∈ req.profile, p.Fair) (h : e.createOrGetMiner uuid req = some e') :
    Quiet e e' := by
  unfold createOrGetMiner at h
  cases hfind : e.findMinerByUserId req.userId with
  | some m =>
    rw [hfind] at h
    obtain rfl := Option.some.inj h
    exact quiet_modifyMiner e m.id (ratedMiner_rejoin hp)
  | none =>
    simp only [hfind] at h
    split_ifs at h with hfresh
    obtain rfl := Option.some.inj h
    have hget : ∀ x, (e.store.add (newMiner uuid req) hfresh.1 hfresh.2.1 hfresh.2.2).miners.get? x
        = if x = uuid then some (newMiner uuid req) else e.miner? x := fun x => OrdMap.get?_set ..
    refine ⟨⟨rfl, rfl, rfl, rfl, rfl⟩, rfl, fun x hx => ?_, fun hrated => ⟨fun x m hm => ?_, ?_⟩⟩
    · refine (congrArg Option.isSome (hget x)).trans ?_
      split_ifs
      · rfl
      · exact hx
    · have hm' := (hget x).symm.trans hm
      split_ifs at hm'
      · obtain rfl := Option.some.inj hm'
        exact ratedMiner_newMiner hp uuid
      · exact hrated.miners x m hm'
    · rintro ⟨x, work⟩ hmem
      have hwork := OrdMap.mem_entries.mp hmem
      rw [OrdMap.get?_set] at hwork
      split_ifs at hwork
      · exact (Option.some.inj hwork).le
      · exact hrated.work _ (OrdMap.mem_entries.mpr hwork)

theorem callMethod_quiet {m : Method} (hcalled : m.isCalled = true)
    (hfair : (BoardEvent.call m).Fair) (h : callMethod e m = some e') : Quiet e e' := by
  cases m with
  | createOrGetMiner uuid req => exact quiet_createOrGetMiner hfair h
  | reloadMinerProfile userId profile =>
    obtain rfl := Option.some.inj h
    rcases reloadMinerProfile_cases e userId profile with heq | ⟨p, m, hp, -, heq⟩
    · rw [heq]
      exact .refl e
    · rw [heq]
      exact quiet_modifyMiner e m.id (ratedMiner_reloaded (hfair p hp))
  | setConnected minerId connected =>
    obtain rfl := Option.some.inj h
    exact quiet_modifyMiner e minerId fun _ h => h
  | setActive minerId active =>
    obtain rfl := Option.some.inj h
    exact quiet_modifyMiner e minerId fun _ h => h
  | setWallet minerId walletAddress =>
    obtain rfl := Option.some.inj h
    exact quiet_modifyMiner e minerId fun _ h => h
  | markPersisted minerId =>
    obtain rfl := Option.some.inj h
    exact quiet_modifyMiner e minerId fun _ h => h
  | applyBoost minerId now =>
    obtain rfl := Option.some.inj h
    rcases applyBoost_cases e minerId now with ⟨heq, -⟩ | ⟨m, -, heq, -⟩
    · rw [heq]
      exact .refl e
    · rw [heq]
      refine quiet_modifyMiner e minerId fun m h => ⟨h.1, ?_⟩
      show (0 : ℚ) < 125 / 100
      norm_num
  | upgradeRig minerId =>
    obtain rfl := Option.some.inj h
    rcases upgradeRig_cases e minerId with ⟨heq, -⟩ | ⟨m, -, heq, -⟩
    · rw [heq]
      exact .refl e
    · rw [heq]
      exact quiet_modifyMiner e minerId fun m h => ⟨add_nonneg h.1 (by norm_num), h.2⟩
  | applyUserBalanceDelta runtimeSet userId delta =>
    obtain rfl := Option.some.inj h
    rcases applyUserBalanceDelta_cases runtimeSet e userId delta with
      ⟨heq, -⟩ | ⟨m, -, -, -, heq⟩
    · rw [heq]
      exact .refl e
    · rw [heq]
      exact quiet_modifyMiner e m.id fun _ h => h
  | distributeRewards now => cases hcalled
  | tick now => cases hcalled
  | rollbackBlock pending => cases hcalled

end Methods

/-! ## A tick -/

section Tick

variable {e : Engine} {now : Nat}

theorem ratedMiner_expireBoost (now : Nat) (m : Miner) (h : RatedMiner m) :
    RatedMiner (expireBoost now m) := by
  unfold expireBoost
  split_ifs
  · exact ⟨h.1, one_pos⟩
  · exact h

theorem hashRate_nonneg {m : Miner} (h : RatedMiner m) : 0 ≤ getMinerHashRate m := by
  unfold getMinerHashRate
  split_ifs
  · exact mul_nonneg h.1 h.2.le
  · exact le_rfl

theorem Quiet.trans {e' e'' : Engine} (h : Quiet e e') (h' : Quiet e' e'') : Quiet e e'' :=
  ⟨h.same.trans h'.same, h'.minted.trans h.minted, fun id hid => h'.loaded id (h.loaded id hid),
    fun hr => h'.rated (h.rated hr)⟩

theorem quiet_accumulateMiner {acc : TickAcc} {entry : MinerId × Miner}
    (hentry : RatedMiner entry.2) : Quiet acc.engine (accumulateMiner now acc entry).engine := by
  have hmodify := quiet_modifyMiner acc.engine entry.1 (ratedMiner_expireBoost now)
  unfold accumulateMiner
  cases hmode : (expireBoost now entry.2).miningPayoutMode with
  | blk =>
    simp only [hmode]
    exact hmodify
  | pol =>
    simp only [hmode]
    refine hmodify.trans ⟨⟨rfl, rfl, rfl, rfl, rfl⟩, rfl, fun _ h => h, fun h => ⟨h.miners, ?_⟩⟩
    rintro ⟨x, work⟩ hmem
    have hwork := OrdMap.mem_entries.mp hmem
    have hset : (OrdMap.set (acc.engine.modifyMiner entry.1 (expireBoost now)).roundWork entry.1
        (((acc.engine.modifyMiner entry.1 (expireBoost now)).roundWork.get? entry.1).getD 0
          + getMinerHashRate (expireBoost now entry.2))).get? x = some work := hwork
    rw [OrdMap.get?_set] at hset
    split_ifs at hset
    · obtain rfl := Option.some.inj hset
      refine add_nonneg ?_ (hashRate_nonneg (ratedMiner_expireBoost now _ hentry))
      cases hold : (acc.engine.modifyMiner entry.1 (expireBoost now)).roundWork.get? entry.1 with
      | none => exact le_rfl
      | some old => exact h.work _ (OrdMap.mem_entries.mpr hold)
    · exact h.work _ (OrdMap.mem_entries.mpr hset)

theorem quiet_accumulateLoop : ∀ {entries : List (MinerId × Miner)} {acc : TickAcc},
    (∀ entry ∈ entries, RatedMiner entry.2) →
    Quiet acc.engine (entries.foldl (accumulateMiner now) acc).engine
  | [], _, _ => .refl _
  | entry :: entries, acc, h => by
    rw [List.foldl_cons]
    exact (quiet_accumulateMiner (h entry List.mem_cons_self)).trans
      (quiet_accumulateLoop fun x hx => h x (List.mem_cons_of_mem _ hx))

theorem quiet_accumulateWork (h : Rated e) (now : Nat) : Quiet e (e.accumulateWork now) := by
  have hloop := @quiet_accumulateLoop now e.store.miners.entries ⟨e, 0, 0⟩ fun entry hentry =>
    h.miners entry.1 entry.2 (OrdMap.mem_entries.mp hentry)
  refine ⟨⟨hloop.same.number, hloop.same.history, hloop.same.startedAt, hloop.same.nextAt,
    hloop.same.progress⟩, hloop.minted, hloop.loaded, fun hr => ?_⟩
  have hrated := hloop.rated hr
  exact ⟨hrated.miners, hrated.work⟩

/-- What the payment loop has come to after the miners of `done`. -/
structure LoopOk (acc : PayAcc) (done : List MinerId) : Prop where
  keys : acc.balanceSnapshot.entries.map Prod.fst = acc.minerRewards.map (·.minerId)
  done : ∀ r ∈ acc.minerRewards, r.minerId ∈ done
  nonneg : ∀ p ∈ acc.userRewardsMap.entries, 0 ≤ p.2
  total : (acc.userRewardsMap.entries.map Prod.snd).sum
    ≤ (acc.minerRewards.map (·.rewardAmount)).sum

theorem loopOk_payMiner {acc : PayAcc} {done : List MinerId} {entry : MinerId × ℚ} {total : ℚ}
    (h : LoopOk acc done) (htotal : 0 < total) (hnew : entry.1 ∉ done) :
    LoopOk (payMiner rewardBase total acc entry) (entry.1 :: done) := by
  cases hpay : acc.engine.payable entry with
  | false =>
    rw [payMiner_of_not_payable hpay]
    exact ⟨h.keys, fun r hr => List.mem_cons_of_mem _ (h.done r hr), h.nonneg, h.total⟩
  | true =>
    obtain ⟨hsome, hpos⟩ := Bool.and_eq_true_iff.mp hpay
    obtain ⟨m, hm⟩ := Option.isSome_iff_exists.mp hsome
    have hid := miner?_id hm
    have hreward : 0 ≤ rewardBase * (entry.2 / total) :=
      mul_nonneg (by norm_num [rewardBase]) (div_nonneg (of_decide_eq_true hpos).le htotal.le)
    rw [payMiner_of_payable hm (of_decide_eq_true hpos)]
    unfold payReward
    refine ⟨?_, fun r hr => ?_, ?_, ?_⟩
    · have hfresh : entry.1 ∉ acc.balanceSnapshot.entries.map Prod.fst := by
        rw [h.keys]
        intro hmem
        obtain ⟨r, hr, heq⟩ := List.mem_map.mp hmem
        exact hnew (heq ▸ h.done r hr)
      show (OrdMap.upsert entry.1 _ acc.balanceSnapshot.entries).map Prod.fst = _
      rw [OrdMap.upsert_of_not_mem hfresh, List.map_append, List.map_append, h.keys]
      show _ ++ [entry.1] = _ ++ [m.id]
      rw [hid]
    · rcases List.mem_append.mp hr with hold | hone
      · exact List.mem_cons_of_mem _ (h.done r hold)
      · obtain rfl := List.mem_singleton.mp hone
        exact List.mem_cons.mpr (.inl hid)
    · rintro ⟨u, x⟩ hmem
      have hget := OrdMap.mem_entries.mp hmem
      rw [OrdMap.get?_set] at hget
      split_ifs at hget
      · exact (Option.some.inj hget) ▸ hreward
      · exact h.nonneg _ (OrdMap.mem_entries.mpr hget)
    · show ((OrdMap.set _ _ _).entries.map Prod.snd).sum ≤ _
      rw [OrdMap.sum_set, List.map_append, List.sum_append]
      have hold : 0 ≤ (acc.userRewardsMap.get? m.userId).getD 0 := by
        cases hget : acc.userRewardsMap.get? m.userId with
        | none => exact le_rfl
        | some x => exact h.nonneg _ (OrdMap.mem_entries.mpr hget)
      have hone : ([rewardEntry m entry.2 (entry.2 / total) (rewardBase * (entry.2 / total))].map
          (·.rewardAmount)).sum = rewardBase * (entry.2 / total) := add_zero _
      rw [hone]
      have htot := h.total
      linarith

theorem loopOk_payLoop {total : ℚ} (htotal : 0 < total) :
    ∀ {entries : List (MinerId × ℚ)} {acc : PayAcc} {done : List MinerId}, LoopOk acc done →
      (entries.map Prod.fst).Nodup → (∀ entry ∈ entries, entry.1 ∉ done) →
      ∃ done', LoopOk (entries.foldl (payMiner rewardBase total) acc) done'
  | [], _, done, h, _, _ => ⟨done, h⟩
  | entry :: entries, acc, done, h, hnodup, hnew => by
    rw [List.map_cons, List.nodup_cons] at hnodup
    rw [List.foldl_cons]
    refine loopOk_payLoop htotal (loopOk_payMiner h htotal (hnew entry List.mem_cons_self))
      hnodup.2 fun x hx hmem => ?_
    rcases List.mem_cons.mp hmem with heq | hdone
    · exact hnodup.1 (heq ▸ List.mem_map_of_mem hx)
    · exact hnew x (List.mem_cons_of_mem _ hx) hdone

/-- The handler of a rejection finds the reward and the miner of every snapshot. -/
structure PendingOk (e : Engine) (p : PendingBlock) : Prop where
  keys : p.balanceSnapshot.entries.map Prod.fst = p.payload.minerRewards.map (·.minerId)
  loaded : ∀ r ∈ p.payload.minerRewards, (e.miner? r.minerId).isSome = true
  nonneg : 0 ≤ handed p

/-- What a distribution leaves, in an engine without negative work. -/
structure Distributed (e : Engine) (now : Nat) (out : Engine × Option PendingBlock) : Prop where
  record : ∃ record, RecordOk record ∧ record.blockNumber = e.blockNumber
    ∧ record.timestamp = now ∧ out.1.blockHistory = (record :: e.blockHistory).take 12
  number : out.1.blockNumber = e.blockNumber + 1
  startedAt : out.1.blockStartedAt = now
  nextAt : out.1.nextBlockAt = now + blockDurationMs
  pending : ∀ p ∈ out.2, PendingOk out.1 p
  rated : Rated out.1

/-- A payment changes no rate. -/
theorem rated_payLoop {total : ℚ} : ∀ {entries : List (MinerId × ℚ)} {acc : PayAcc},
    (∀ id m, acc.engine.miner? id = some m → RatedMiner m) →
    ∀ id m, (entries.foldl (payMiner rewardBase total) acc).engine.miner? id = some m →
      RatedMiner m
  | [], _, h => h
  | entry :: entries, acc, h => by
    rw [List.foldl_cons]
    refine rated_payLoop fun id m hm => ?_
    rcases payMiner_cases rewardBase total acc entry with heq | ⟨m₀, -, heq⟩
    · rw [heq] at hm
      exact h id m hm
    · rw [heq] at hm
      have hpaid : (acc.engine.modifyMiner entry.1
          (rewarded (rewardBase * (entry.2 / total)))).miner? id = some m := hm
      rw [miner?_modifyMiner] at hpaid
      split_ifs at hpaid
      · obtain ⟨m₁, hm₁, rfl⟩ := Option.map_eq_some_iff.mp hpaid
        exact h id m₁ hm₁
      · exact h id m hpaid

/-- A round without work. -/
theorem distributed_idle (h : Rated e) (hidle : e.totalWork ≤ 0) (now : Nat) :
    Distributed e now (e.distributeRewards now) := by
  have hclosed := distributeRewards_closed e now
  have hwork : ∀ p ∈ (e.distributeRewards now).1.roundWork.entries, 0 ≤ p.2 := fun p hp =>
    (hclosed.cleared p.1 p.2 (OrdMap.mem_entries.mp hp)).ge
  have hminers := (distributeRewards_idle e now (not_lt.mpr hidle)).1
  refine ⟨⟨⟨e.blockNumber, 0, e.activeMiners, now, .empty⟩, ⟨.inl rfl, fun p hp => ?_, le_rfl⟩,
      rfl, rfl, ?_⟩, hclosed.numbered, ?_, ?_, fun p hp => ?_, ⟨fun id m hm => ?_, hwork⟩⟩
  · cases hp
  · unfold distributeRewards
    simp only [if_pos hidle, clearLoop_eq]
    rfl
  · unfold distributeRewards
    simp only [if_pos hidle]
    rfl
  · unfold distributeRewards
    simp only [if_pos hidle]
    rfl
  · unfold distributeRewards at hp
    simp only [if_pos hidle] at hp
    cases hp
  · rw [hminers] at hm
    exact h.miners id m hm

/-- A round with work. -/
theorem distributed_paid (h : Rated e) (htotal : 0 < e.totalWork) (now : Nat) :
    Distributed e now (e.distributeRewards now) := by
  have hclosed := distributeRewards_closed e now
  have hpaid := (distributeRewards_paid e now).1
  have hloaded := miner?_isSome_of_rows hpaid
  have hwork : ∀ p ∈ (e.distributeRewards now).1.roundWork.entries, 0 ≤ p.2 := fun p hp =>
    (hclosed.cleared p.1 p.2 (OrdMap.mem_entries.mp hp)).ge
  obtain ⟨acc, hacc⟩ : ∃ acc, e.roundWork.entries.foldl (payMiner rewardBase e.totalWork)
    ⟨e, [], .empty, .empty⟩ = acc := ⟨_, rfl⟩
  have hshared := payLoop_sharedOut e h.work htotal hacc
  have hrated := @rated_payLoop e.totalWork e.roundWork.entries ⟨e, [], .empty, .empty⟩ h.miners
  have hhistory := (payLoop_history rewardBase e.totalWork e.roundWork.entries
    ⟨e, [], .empty, .empty⟩).1
  have hempty : LoopOk (⟨e, [], .empty, .empty⟩ : PayAcc) [] :=
    ⟨rfl, fun r hr => (by cases hr), fun p hp => (by cases hp), le_rfl⟩
  obtain ⟨done, hloop⟩ := loopOk_payLoop htotal hempty e.roundWork.nodup
    fun _ _ => List.not_mem_nil
  rw [hacc] at hloop hrated hhistory
  have htotal' : (acc.minerRewards.map (·.rewardAmount)).sum ≤ rewardBase :=
    hshared.handed ▸ hshared.bounded
  have hpending : ∀ p ∈ (e.distributeRewards now).2, p.balanceSnapshot = acc.balanceSnapshot
      ∧ p.payload.minerRewards = acc.minerRewards := by
    intro p hp
    unfold distributeRewards at hp
    simp only [if_neg (not_le.mpr htotal), hacc] at hp
    split_ifs at hp
    · cases hp
    · obtain rfl := Option.some.inj hp
      exact ⟨rfl, rfl⟩
  refine ⟨⟨⟨e.blockNumber, rewardBase, e.activeMiners, now, acc.userRewardsMap⟩,
      ⟨.inr rfl, hloop.nonneg, hloop.total.trans htotal'⟩, rfl, rfl, ?_⟩,
    hclosed.numbered, ?_, ?_, fun p hp => ⟨?_, fun r hr => ?_, List.sum_nonneg fun x hx => ?_⟩,
    ⟨fun id m hm => ?_, hwork⟩⟩
  · unfold distributeRewards
    simp only [if_neg (not_le.mpr htotal), hacc]
    exact congrArg (fun history => List.take 12 (_ :: history)) hhistory
  · unfold distributeRewards
    simp only [if_neg (not_le.mpr htotal)]
    rfl
  · unfold distributeRewards
    simp only [if_neg (not_le.mpr htotal)]
    rfl
  · rw [(hpending p hp).1, (hpending p hp).2]
    exact hloop.keys
  · rw [Option.mem_def.mp hp] at hpaid
    obtain ⟨m, hm, -⟩ := hpaid.loaded r hr
    rw [hloaded, hm]
    rfl
  · rw [Option.mem_def.mp hp] at hpaid
    obtain ⟨r, hr, rfl⟩ := List.mem_map.mp hx
    exact (hpaid.positive r hr).le
  · refine hrated id m ?_
    unfold distributeRewards at hm
    simp only [if_neg (not_le.mpr htotal), hacc] at hm
    exact hm

theorem distributeRewards_distributed (h : Rated e) (now : Nat) :
    Distributed e now (e.distributeRewards now) := by
  rcases le_or_gt e.totalWork 0 with hidle | htotal
  · exact distributed_idle h hidle now
  · exact distributed_paid h htotal now

theorem progress_bounds (elapsed : Nat) :
    0 ≤ min blockTarget ((elapsed : ℚ) / blockDurationMs * blockTarget)
      ∧ min blockTarget ((elapsed : ℚ) / blockDurationMs * blockTarget) ≤ blockTarget := by
  have htarget : (0 : ℚ) ≤ blockTarget := by norm_num [blockTarget]
  refine ⟨le_min htarget (mul_nonneg (div_nonneg ?_ ?_) htarget), min_le_left ..⟩
  · exact Nat.cast_nonneg elapsed
  · exact Nat.cast_nonneg blockDurationMs

/-- What a tick leaves. -/
structure Ticked (e : Engine) (clock now : Nat) (out : Engine × Option PendingBlock) : Prop where
  history : HistoryOk e clock → HistoryOk out.1 now
  rated : Rated out.1
  pending : ∀ p ∈ out.2, PendingOk out.1 p
  minted : out.1.totalMinted = e.totalMinted + (out.2.map handed).getD 0
  loaded : ∀ id, (e.miner? id).isSome = true → (out.1.miner? id).isSome = true

theorem tick_ticked (h : Rated e) {clock : Nat} (hclock : clock ≤ now) :
    Ticked e clock now (e.tick now) := by
  have hquiet := quiet_accumulateWork h now
  have hrated := hquiet.rated h
  have hpaid := tick_paid e now
  have hminted : (e.tick now).1.totalMinted
      = e.totalMinted + ((e.tick now).2.map handed).getD 0 := by
    rw [hpaid.minted]
    cases (e.tick now).2 <;> rfl
  have hloaded : ∀ id, (e.miner? id).isSome = true → ((e.tick now).1.miner? id).isSome = true :=
    fun id hid => (miner?_isSome_of_rows hpaid id).trans hid
  have hdistributed := distributeRewards_distributed hrated now
  refine ⟨fun hhistory => ?_, ?_, fun p hp => ?_, hminted, hloaded⟩
  · have hacc := (hhistory.same hquiet.same).later hclock
    unfold tick
    by_cases hdue : (e.accumulateWork now).nextBlockAt ≤ now
    · simp only [if_pos hdue]
      obtain ⟨record, hrecord, hnumber, htime, hist⟩ := hdistributed.record
      exact hacc.close hdue hrecord hnumber htime hdistributed.number hist
        hdistributed.startedAt hdistributed.nextAt (progress_bounds _)
    · simp only [if_neg hdue]
      exact { hacc with progress := progress_bounds _ }
  · unfold tick
    by_cases hdue : (e.accumulateWork now).nextBlockAt ≤ now
    · simp only [if_pos hdue]
      exact ⟨hdistributed.rated.miners, hdistributed.rated.work⟩
    · simp only [if_neg hdue]
      exact ⟨hrated.miners, hrated.work⟩
  · unfold tick at hp ⊢
    by_cases hdue : (e.accumulateWork now).nextBlockAt ≤ now
    · simp only [if_pos hdue] at hp ⊢
      have hok := hdistributed.pending p hp
      exact ⟨hok.keys, hok.loaded, hok.nonneg⟩
    · simp only [if_neg hdue] at hp
      cases hp

end Tick

/-! ## A rejection -/

section Rollback

variable {e : Engine} {p : PendingBlock}

/-- What the handler takes back for the miner of an id. -/
def takenBack (payload : BlockPayload) (id : MinerId) : ℚ :=
  ((payload.minerRewards.find? (·.minerId = id)).map (·.rewardAmount)).getD 0

theorem quiet_rollbackMiner (payload : BlockPayload) (e : Engine) (entry : MinerId × Snapshot) :
    SameBlock e (rollbackMiner payload e entry)
      ∧ (∀ id, (e.miner? id).isSome = true →
        ((rollbackMiner payload e entry).miner? id).isSome = true)
      ∧ (Rated e → Rated (rollbackMiner payload e entry)) := by
  rcases rollbackMiner_cases payload e entry with heq | ⟨minted, heq⟩
  · rw [heq]
    exact ⟨⟨rfl, rfl, rfl, rfl, rfl⟩, fun _ h => h, fun h => h⟩
  · rw [heq]
    have hquiet := quiet_modifyMiner e entry.1 (f := restoredTo entry.2) fun _ h => h
    exact ⟨⟨rfl, rfl, rfl, rfl, rfl⟩, hquiet.loaded, fun h =>
      ⟨(hquiet.rated h).miners, (hquiet.rated h).work⟩⟩

theorem rollbackMiner_minted {payload : BlockPayload} {entry : MinerId × Snapshot}
    (h : (e.miner? entry.1).isSome = true) : (rollbackMiner payload e entry).totalMinted
      = e.totalMinted - takenBack payload entry.1 := by
  obtain ⟨m, hm⟩ := Option.isSome_iff_exists.mp h
  unfold rollbackMiner takenBack
  dsimp only
  rw [hm]
  cases payload.minerRewards.find? (·.minerId = entry.1) with
  | none => exact (sub_zero _).symm
  | some r => rfl

theorem rollbackLoop {payload : BlockPayload} :
    ∀ {entries : List (MinerId × Snapshot)} {e : Engine},
    (∀ entry ∈ entries, (e.miner? entry.1).isSome = true) →
    SameBlock e (entries.foldl (rollbackMiner payload) e)
      ∧ (∀ id, (e.miner? id).isSome = true →
        ((entries.foldl (rollbackMiner payload) e).miner? id).isSome = true)
      ∧ (Rated e → Rated (entries.foldl (rollbackMiner payload) e))
      ∧ (entries.foldl (rollbackMiner payload) e).totalMinted
        = e.totalMinted - (entries.map fun entry => takenBack payload entry.1).sum
  | [], e, _ => ⟨⟨rfl, rfl, rfl, rfl, rfl⟩, fun _ h => h, fun h => h, (sub_zero _).symm⟩
  | entry :: entries, e, h => by
    obtain ⟨hsame, hkept, hrated⟩ := quiet_rollbackMiner payload e entry
    obtain ⟨hsame', hkept', hrated', hminted'⟩ := @rollbackLoop payload entries
      (rollbackMiner payload e entry) fun x hx => hkept _ (h x (List.mem_cons_of_mem _ hx))
    rw [List.foldl_cons]
    refine ⟨hsame.trans hsame', fun id hid => hkept' id (hkept id hid), fun hr =>
      hrated' (hrated hr), ?_⟩
    rw [hminted', rollbackMiner_minted (h entry List.mem_cons_self), List.map_cons, List.sum_cons]
    ring

/-- All that was handed out is taken back. -/
theorem sum_takenBack (h : PendingOk e p) :
    (p.balanceSnapshot.entries.map fun entry => takenBack p.payload entry.1).sum = handed p := by
  have hnodup := p.balanceSnapshot.nodup
  have hmap : (p.balanceSnapshot.entries.map fun entry => takenBack p.payload entry.1)
      = (p.balanceSnapshot.entries.map Prod.fst).map (takenBack p.payload) := by
    rw [List.map_map]
    rfl
  rw [hmap, h.keys, List.map_map]
  rw [h.keys] at hnodup
  unfold handed
  refine congrArg List.sum (List.map_congr_left fun r hr => ?_)
  have hfind : p.payload.minerRewards.find? (·.minerId = r.minerId) = some r := by
    obtain ⟨r', hr'⟩ : ∃ r', p.payload.minerRewards.find? (·.minerId = r.minerId) = some r' :=
      Option.isSome_iff_exists.mp (List.find?_isSome.mpr ⟨r, hr, decide_eq_true rfl⟩)
    have hid : r'.minerId = r.minerId := by simpa using List.find?_some hr'
    have hmem := List.mem_of_find?_eq_some hr'
    rw [hr', List.inj_on_of_nodup_map hnodup hmem hr hid]
  show takenBack p.payload r.minerId = r.rewardAmount
  unfold takenBack
  rw [hfind]
  rfl

end Rollback

/-! ## Every run -/

structure Running (b : Board) : Prop where
  history : HistoryOk b.engine b.clock
  rated : Rated b.engine
  pending : ∀ p ∈ b.pending, PendingOk b.engine p
  minted : b.engine.totalMinted = b.persisted + (b.pending.map handed).sum
  persisted : 0 ≤ b.persisted

section Runs

variable {b b' : Board}

theorem PendingOk.mono {e e' : Engine} {p : PendingBlock} (h : PendingOk e p)
    (hloaded : ∀ id, (e.miner? id).isSome = true → (e'.miner? id).isSome = true) :
    PendingOk e' p :=
  ⟨h.keys, fun r hr => hloaded _ (h.loaded r hr), h.nonneg⟩

theorem running_start (now : Nat) : Running (.start now) where
  history :=
    { first := le_rfl
      count := rfl
      numbers := fun i r hr => by cases hr
      spaced := .nil
      before := fun r hr => by cases hr
      due := rfl
      started := le_rfl
      records := fun r hr => by cases hr
      progress := ⟨le_rfl, by norm_num [Board.start, new, blockTarget]⟩ }
  rated := ⟨fun id m hm => (by cases hm), fun p hp => by cases hp⟩
  pending p hp := by cases hp
  minted := (add_zero _).symm
  persisted := le_rfl

/-- A rejected block leaves the others, and what was minted without it. -/
theorem running_settle (h : Running b) {i : Nat} {persisted : Bool} {p : PendingBlock}
    (hp : b.pending[i]? = some p) : Running { b with
      engine := if persisted then b.engine else b.engine.rollbackBlock p
      pending := b.pending.eraseIdx i
      persisted := if persisted then b.persisted + handed p else b.persisted } := by
  have hok := h.pending p (List.mem_of_getElem? hp)
  have hothers : ∀ q ∈ b.pending.eraseIdx i, PendingOk b.engine q := fun q hq =>
    h.pending q (List.mem_of_mem_eraseIdx hq)
  have hsum : (b.pending.map handed).sum
      = handed p + ((b.pending.eraseIdx i).map handed).sum := by
    obtain ⟨hi, rfl⟩ := List.getElem?_eq_some_iff.mp hp
    have hperm := (List.getElem_cons_eraseIdx_perm hi).map handed
    rw [← hperm.sum_eq, List.map_cons, List.sum_cons]
  cases persisted with
  | true =>
    refine ⟨h.history, h.rated, hothers, ?_, add_nonneg h.persisted hok.nonneg⟩
    show b.engine.totalMinted = b.persisted + handed p + _
    rw [h.minted, hsum, add_assoc]
  | false =>
    have hsnapshot : ∀ entry ∈ p.balanceSnapshot.entries,
        (b.engine.miner? entry.1).isSome = true := by
      intro entry hentry
      have hmem := List.mem_map_of_mem (f := Prod.fst) hentry
      rw [hok.keys] at hmem
      obtain ⟨r, hr, heq⟩ := List.mem_map.mp hmem
      exact heq ▸ hok.loaded r hr
    obtain ⟨hsame, hloaded, hrated, hminted⟩ := @rollbackLoop p.payload _ b.engine hsnapshot
    refine ⟨h.history.same hsame, hrated h.rated, fun q hq => (hothers q hq).mono hloaded, ?_,
      h.persisted⟩
    refine hminted.trans ?_
    show _ = b.persisted + _
    rw [sum_takenBack hok, h.minted, hsum]
    ring

theorem running_step {ev : BoardEvent} (h : Running b) (hfair : ev.Fair)
    (hstep : boardStep b ev = some b') : Running b' := by
  cases ev with
  | call m =>
    unfold boardStep at hstep
    dsimp only at hstep
    split_ifs at hstep with hcalled
    obtain ⟨e, he, rfl⟩ := Option.map_eq_some_iff.mp hstep
    have hquiet := callMethod_quiet hcalled hfair he
    exact ⟨h.history.same hquiet.same, hquiet.rated h.rated,
      fun p hp => (h.pending p hp).mono hquiet.loaded, hquiet.minted.trans h.minted, h.persisted⟩
  | tick now =>
    unfold boardStep at hstep
    dsimp only at hstep
    split_ifs at hstep with hlate
    obtain rfl := Option.some.inj hstep
    have hticked := tick_ticked h.rated (not_lt.mp hlate)
    refine ⟨hticked.history h.history, hticked.rated, fun p hp => ?_, ?_, h.persisted⟩
    · rcases List.mem_append.mp hp with hold | hnew
      · exact (h.pending p hold).mono hticked.loaded
      · exact hticked.pending p (Option.mem_toList.mp hnew)
    · show (b.engine.tick now).1.totalMinted = b.persisted + _
      rw [hticked.minted, h.minted, List.map_append, List.sum_append, add_assoc]
      congr 2
      cases (b.engine.tick now).2 with
      | none => rfl
      | some p => exact (add_zero _).symm
  | settle i persisted =>
    obtain ⟨p, hp, rfl⟩ := Option.map_eq_some_iff.mp hstep
    exact running_settle h hp

theorem run_running {start : Nat} {evs : List BoardEvent} (hfair : ∀ ev ∈ evs, ev.Fair)
    (hrun : board.run (.start start) evs = some b) : Running b :=
  board.run_invariant (C := fun _ ev => ev.Fair) (fun _ _ _ h hfair hstep =>
    running_step h hfair hstep) (running_start start)
    (board.meets_of_labels _ _ fun ev hev _ => hfair ev hev) hrun

end Runs

/-! ## The public state -/

/-- What any miner, or nobody, is shown. -/
structure PublicState.Ok (p : PublicState) : Prop where
  count : p.blockHistory.length = min 12 (p.blockNumber - 1)
  numbers : ∀ i b, p.blockHistory[i]? = some b → b.blockNumber + i + 1 = p.blockNumber
  spaced : p.blockHistory.Pairwise fun b b' => b'.timestamp + 600000 ≤ b.timestamp
  rewards : ∀ b ∈ p.blockHistory, (b.totalReward = 0 ∨ b.totalReward = 3 / 10)
    ∧ 0 ≤ b.userReward ∧ b.userReward ≤ b.totalReward
  progress : 0 ≤ p.blockProgress ∧ p.blockProgress ≤ 100
  countdown : p.blockCountdownSeconds ≤ 600
  minted : 0 ≤ p.totalMinted

/-- The miners that have mined the most, in order. -/
structure Leaders (e : Engine) (limit : Nat) (rows : List LeaderboardRow) : Prop where
  size : rows.length = min limit e.store.miners.entries.length
  sorted : rows.Pairwise fun a b => b.lifetimeMined ≤ a.lifetimeMined
  distinct : (rows.map (·.id)).Nodup
  loaded : ∀ row ∈ rows, ∃ m, e.miner? row.id = some m ∧ row = leaderboardRow m
  most : ∀ id m, e.miner? id = some m → id ∉ rows.map (·.id) →
    ∀ row ∈ rows, m.lifetimeMined ≤ row.lifetimeMined

section Public

variable {e : Engine} {clock now : Nat}

theorem ids_leaderboard (e : Engine) :
    (e.store.miners.entries.map fun entry => leaderboardRow entry.2).map (·.id)
      = e.store.miners.entries.map Prod.fst := by
  rw [List.map_map]
  exact List.map_congr_left fun entry hentry => miner?_id (OrdMap.mem_entries.mp hentry)

theorem getLeaderboard_leaders (e : Engine) (limit : Nat) :
    Leaders e limit (e.getLeaderboard limit) := by
  have hperm := List.mergeSort_perm (e.store.miners.entries.map fun entry => leaderboardRow entry.2)
    fun a b => decide (b.lifetimeMined ≤ a.lifetimeMined)
  have hsorted : ((e.store.miners.entries.map fun entry => leaderboardRow entry.2).mergeSort
      fun a b => decide (b.lifetimeMined ≤ a.lifetimeMined)).Pairwise
        fun a b => b.lifetimeMined ≤ a.lifetimeMined := by
    refine (List.pairwise_mergeSort (fun a b c hab hbc => ?_) (fun a b => ?_) _).imp
      of_decide_eq_true
    · exact decide_eq_true ((of_decide_eq_true hbc).trans (of_decide_eq_true hab))
    · rw [Bool.or_eq_true, decide_eq_true_eq, decide_eq_true_eq]
      exact le_total _ _
  have hloaded : ∀ row ∈ (e.store.miners.entries.map fun entry => leaderboardRow entry.2).mergeSort
      (fun a b => decide (b.lifetimeMined ≤ a.lifetimeMined)),
      ∃ m, e.miner? row.id = some m ∧ row = leaderboardRow m := by
    intro row hrow
    obtain ⟨⟨id, m⟩, hentry, rfl⟩ := List.mem_map.mp (hperm.mem_iff.mp hrow)
    have hm : e.miner? id = some m := OrdMap.mem_entries.mp hentry
    exact ⟨m, (congrArg e.miner? (miner?_id hm)).trans hm, rfl⟩
  have hnodup := (hperm.map LeaderboardRow.id).nodup_iff.mpr
    ((ids_leaderboard e).symm ▸ e.store.miners.nodup)
  unfold getLeaderboard
  refine ⟨?_, hsorted.sublist (List.take_sublist ..), hnodup.sublist ((List.take_sublist ..).map _),
    fun row hrow => hloaded row (List.mem_of_mem_take hrow), fun id m hm hnot row hrow => ?_⟩
  · rw [List.length_take, hperm.length_eq, List.length_map]
  · have hall : leaderboardRow m ∈ (e.store.miners.entries.map fun entry =>
        leaderboardRow entry.2).mergeSort fun a b => decide (b.lifetimeMined ≤ a.lifetimeMined) :=
      hperm.mem_iff.mpr (List.mem_map.mpr ⟨(id, m), OrdMap.mem_entries.mpr hm, rfl⟩)
    rw [← List.take_append_drop limit (List.mergeSort _ _)] at hall hsorted
    rcases List.mem_append.mp hall with htake | hdrop
    · exact absurd (List.mem_map.mpr ⟨_, htake, miner?_id hm⟩) hnot
    · exact (List.pairwise_append.mp hsorted).2.2 row hrow _ hdrop

theorem countdown_le (h : HistoryOk e clock) (hnow : clock ≤ now) :
    countdownSeconds (e.nextBlockAt - now) ≤ 600 := by
  have hdue := h.due
  have hstarted := h.started
  unfold countdownSeconds
  unfold blockDurationMs at hdue
  omega

theorem userReward_bounds {r : BlockRecord} (h : RecordOk r) (userId : UserId) :
    0 ≤ (publicBlock userId r).userReward ∧ (publicBlock userId r).userReward ≤ r.reward := by
  have hsum : 0 ≤ (r.userRewards.entries.map Prod.snd).sum := by
    refine List.sum_nonneg fun x hx => ?_
    obtain ⟨entry, hentry, rfl⟩ := List.mem_map.mp hx
    exact h.nonneg entry hentry
  have hzero := hsum.trans h.total
  unfold publicBlock
  dsimp only
  split_ifs
  · exact ⟨le_rfl, hzero⟩
  · cases hget : r.userRewards.get? userId with
    | none => exact ⟨le_rfl, hzero⟩
    | some x =>
      have hmem := OrdMap.mem_entries.mpr hget
      refine ⟨h.nonneg _ hmem, le_trans ?_ h.total⟩
      refine List.single_le_sum (fun y hy => ?_) x (List.mem_map.mpr ⟨_, hmem, rfl⟩)
      obtain ⟨entry, hentry, rfl⟩ := List.mem_map.mp hy
      exact h.nonneg entry hentry

theorem getPublicState_ok (h : HistoryOk e clock) (hnow : clock ≤ now)
    (hminted : 0 ≤ e.totalMinted) (minerId : Option MinerId) :
    (e.getPublicState minerId now).Ok := by
  unfold getPublicState
  refine ⟨?_, fun i b hb => ?_, ?_, fun b hb => ?_, h.progress, countdown_le h hnow, hminted⟩
  · rw [List.length_map]
    exact h.count
  · rw [List.getElem?_map] at hb
    obtain ⟨r, hr, rfl⟩ := Option.map_eq_some_iff.mp hb
    exact h.numbers i r hr
  · exact List.pairwise_map.mpr h.spaced
  · obtain ⟨r, hr, rfl⟩ := List.mem_map.mp hb
    exact ⟨(h.records r hr).reward, userReward_bounds (h.records r hr) _⟩

/-- What the miners are shown to have got of the block at a place of the history. -/
def shownReward (e : Engine) (now i : Nat) (id : MinerId) : ℚ :=
  (((e.getPublicState (some id) now).blockHistory[i]?).map (·.userReward)).getD 0

def shownTotal (e : Engine) (now i : Nat) : ℚ :=
  (((e.getPublicState none now).blockHistory[i]?).map (·.totalReward)).getD 0

/-- Different miners are of different users. -/
theorem nodup_users {ids : List MinerId} (h : ids.Nodup) :
    ((ids.filterMap e.miner?).map (·.userId)).Nodup := by
  have hinj : ∀ id id' m, m ∈ e.miner? id → m ∈ e.miner? id' → id = id' := fun id id' m hm hm' =>
    (miner?_id hm).symm.trans (miner?_id hm')
  refine List.Nodup.map_on (fun m hm m' hm' heq => ?_) (h.filterMap hinj)
  obtain ⟨id, -, hid⟩ := List.mem_filterMap.mp hm
  obtain ⟨id', -, hid'⟩ := List.mem_filterMap.mp hm'
  have hindex := (e.store.id_ok id m hid).2.2
  rw [heq, (e.store.id_ok id' m' hid').2.2] at hindex
  obtain rfl := Option.some.inj hindex
  exact Option.some.inj (hid.symm.trans hid')

theorem sum_filterMap {α β : Type*} (f : α → Option β) (w : β → ℚ) :
    ∀ xs : List α, (xs.map fun x => ((f x).map w).getD 0).sum = ((xs.filterMap f).map w).sum
  | [] => rfl
  | x :: xs => by
    rw [List.map_cons, List.sum_cons, sum_filterMap f w xs]
    cases hx : f x with
    | none => rw [List.filterMap_cons_none hx, Option.map_none, Option.getD_none, zero_add]
    | some y => rw [List.filterMap_cons_some hx, List.map_cons, List.sum_cons]; rfl

theorem shownReward_eq {r : BlockRecord} {i : Nat} (hr : e.blockHistory[i]? = some r)
    (id : MinerId) : shownReward e now i id
      = ((e.miner? id).map fun m => (r.userRewards.get? m.userId).getD 0).getD 0 := by
  unfold shownReward getPublicState
  dsimp only
  rw [List.getElem?_map, hr, Option.map_some, Option.map_some, Option.getD_some, Option.bind_some]
  cases hm : e.miner? id with
  | none => rfl
  | some m => exact if_neg (e.store.id_ok id m hm).2.1

/-- What different miners are shown to have got of a block is at most its reward. -/
theorem shownReward_sum (h : HistoryOk e clock) {ids : List MinerId} (hids : ids.Nodup) (i : Nat) :
    (ids.map (shownReward e now i)).sum ≤ shownTotal e now i := by
  cases hr : e.blockHistory[i]? with
  | none =>
    have hnone : ∀ minerId, (e.getPublicState minerId now).blockHistory[i]? = none := by
      intro minerId
      unfold getPublicState
      dsimp only
      rw [List.getElem?_map, hr, Option.map_none]
    unfold shownTotal
    rw [hnone none]
    refine (List.sum_eq_zero fun x hx => ?_).le
    obtain ⟨id, -, rfl⟩ := List.mem_map.mp hx
    unfold shownReward
    rw [hnone (some id)]
    rfl
  | some r =>
    have hok := h.records r (List.mem_of_getElem? hr)
    have htotal : shownTotal e now i = r.reward := by
      unfold shownTotal getPublicState
      dsimp only
      rw [List.getElem?_map, hr]
      rfl
    rw [htotal, List.map_congr_left fun id _ => shownReward_eq hr id, sum_filterMap,
      ← Function.comp_def (fun u => (r.userRewards.get? u).getD 0) Miner.userId, ← List.map_map]
    exact (OrdMap.sum_lookup_le (nodup_users hids) r.userRewards.nodup hok.nonneg).trans hok.total

end Public

/-- A miner joins, and the block that pays it is rolled back. -/
def oneBlock : List BoardEvent :=
  [.call (.createOrGetMiner 1 ⟨101, some "alpha", none, some { baseHashRate := some 10 }⟩),
    .tick 1000, .tick 600000, .settle 0 false, .tick 600001]

end Engine

end BlockMiner
