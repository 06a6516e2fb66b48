import BlockMiner.HashRate
import Mathlib.Tactic.Linarith

/-!
# Which operations the engine's hash rate follows

A reload, and a sync for the miner that `findMinerByUserId` finds, leave the
rate of the loaded miner at the sum of the tables, whatever it was before.
Three operations do not: `finishGame` looks for the miner under the user's id,
which no uuid is (`minersGet_userId`); a repeated completion refreshes
nothing; and a rig is in no table, so that the next reload takes it back.
`Reached` says when they come out right all the same.
-/

namespace BlockMiner.HashRate

open Engine

/-! ## The rate of a loaded miner -/

def rateOf (e : Engine) (u : UserId) : Option ℚ := (e.findMinerByUserId u).map (·.baseHashRate)

theorem rateOf_modifyMiner {e : Engine} {u : UserId} {m : Miner}
    (hm : e.findMinerByUserId u = some m) (f : Miner → Miner) :
    rateOf (e.modifyMiner m.id f) u = some (f m).baseHashRate := by
  obtain ⟨hget, rfl⟩ := find_eq_some_iff.mp hm
  rw [rateOf, find_modifyMiner hget, if_pos rfl]
  rfl

theorem rateOf_setBaseHashRate (w : World) (u : UserId) (total : ℚ) :
    rateOf (setBaseHashRate w (w.engine.findMinerByUserId u) total).engine u
      = (rateOf w.engine u).map fun _ => total := by
  cases hm : w.engine.findMinerByUserId u with
  | none => simp only [setBaseHashRate, rateOf, hm, Option.map_none]
  | some m =>
      simp only [setBaseHashRate, rateOf_modifyMiner hm]
      rw [rateOf, hm]
      rfl

theorem reloaded_baseHashRate (p : Engine.Profile) (m : Miner) :
    (reloaded p m).baseHashRate = orDefault p.base_hash_rate 0 := by
  unfold reloaded syncBalance
  split <;> rfl

theorem orDefault_zero (x : ℚ) : orDefault (some x) 0 = x := by
  show (if x = 0 then 0 else x) = x
  split
  case isTrue h => exact h.symm
  case isFalse => rfl

theorem rateOf_reload (e : Engine) (u : UserId) (p : Engine.Profile) :
    rateOf (e.reloadMinerProfile u (some p)) u
      = (rateOf e u).map fun _ => orDefault p.base_hash_rate 0 := by
  cases hm : e.findMinerByUserId u with
  | none => simp only [Engine.reloadMinerProfile, rateOf, hm, Option.map_none]
  | some m =>
      simp only [Engine.reloadMinerProfile, hm, rateOf_modifyMiner hm, reloaded_baseHashRate]
      rw [rateOf, hm]
      rfl

theorem rateOf_isSome_modifyMiner (e : Engine) (id : MinerId) (f : Miner → Miner) (u : UserId) :
    (rateOf (e.modifyMiner id f) u).isSome = (rateOf e u).isSome := by
  cases hm : e.miner? id with
  | none => rw [Engine.modifyMiner, MinerStore.modify_of_none hm]
  | some m =>
      rw [rateOf, rateOf, find_modifyMiner hm, Option.isSome_map, Option.isSome_map]
      by_cases hu : u = m.userId
      · subst hu
        rw [if_pos rfl, find_of_miner? hm]
        rfl
      · rw [if_neg hu]

/-! ## Refreshes -/

/-- The rate of the user's loaded miner is the sum of the tables. -/
def InStep (s : State) (u : UserId) (now : ℤ) : Prop :=
  ∀ rate ∈ rateOf s.world.engine u, rate = syncUserBaseHashRate s.db u now

instance (s : State) (u : UserId) (now : ℤ) : Decidable (InStep s u now) := by
  unfold InStep
  infer_instance

theorem syncFound_inStep (s : State) (u : UserId) (now : ℤ) : InStep (syncFound s u now) u now := by
  intro rate hrate
  have hrate : rateOf (setBaseHashRate s.world (s.world.engine.findMinerByUserId u)
      (syncUserBaseHashRate s.db u now)).engine u = some rate := hrate
  rw [rateOf_setBaseHashRate] at hrate
  obtain ⟨old, -, rfl⟩ := Option.map_eq_some_iff.mp hrate
  rfl

theorem ensureRefCode_world (s : State) (u : UserId) (newRefCode : String) :
    (ensureRefCode s u newRefCode).world = s.world := by
  unfold ensureRefCode
  split <;> rfl

theorem ensureRefCode_sum (s : State) (u v : UserId) (newRefCode : String) (now : ℤ) :
    syncUserBaseHashRate (ensureRefCode s u newRefCode).db v now
      = syncUserBaseHashRate s.db v now := by
  unfold ensureRefCode
  split <;> rfl

theorem rateOf_reloadMinerProfile (s : State) (u : UserId) (newRefCode : String) (now : ℤ) :
    rateOf (reloadMinerProfile s u newRefCode now).world.engine u
      = (rateOf s.world.engine u).map fun _ => syncUserBaseHashRate s.db u now := by
  unfold reloadMinerProfile
  simp only
  rw [rateOf_reload, ensureRefCode_world]
  refine congrArg (Option.map · _) (funext fun _ => ?_)
  exact (orDefault_zero _).trans (ensureRefCode_sum ..)

/-- The two sums are written out twice in the source, and are the same. -/
theorem reload_inStep (s : State) (u : UserId) (newRefCode : String) (now : ℤ) :
    InStep (reloadMinerProfile s u newRefCode now) u now := by
  intro rate hrate
  have hrate : rateOf (reloadMinerProfile s u newRefCode now).world.engine u = some rate := hrate
  rw [rateOf_reloadMinerProfile] at hrate
  obtain ⟨old, -, rfl⟩ := Option.map_eq_some_iff.mp hrate
  exact (ensureRefCode_sum ..).symm

/-! ## The lookup of `finishGame` -/

theorem not_dash_mem_toString (u : UserId) : '-' ∉ (toString u).toList := by
  intro hmem
  have hdigit : '-' ∈ Nat.toDigits 10 u := by
    have heq : (toString u).toList = Nat.toDigits 10 u := by simp [toString, Nat.repr]
    rw [← heq]
    exact hmem
  have := Nat.isDigit_of_mem_toDigits (by decide) (by decide) hdigit
  revert this
  decide

/-- No miner is kept under the text of a user's id. -/
theorem minersGet_userId (uuid : Uuid) (e : Engine) (u : UserId) :
    minersGet uuid e (toString u) = none := by
  have hnone : e.store.miners.entries.find? (fun entry => uuid.text entry.1 = toString u)
      = none := by
    refine List.find?_eq_none.mpr fun entry _ hentry => not_dash_mem_toString u ?_
    rw [← of_decide_eq_true hentry]
    exact uuid.dashed entry.1
  rw [minersGet, hnone]
  rfl

/-! ## The operations -/

section Operations

variable {env : Env} {s s' : State}

/-- When the power of a game ends. -/
def powerEnds (env : Env) (confirmed : Bool) (now : ℤ) : ℤ :=
  now + SocketGames.powerDays env.games confirmed * 24 * 60 * 60 * 1000

/-- A game that is won leaves the engine alone, and adds 50 H/s to the sum
until its power ends. -/
theorem finishGame_spec {socket id : ℕ} {confirmed : Bool} {now syncedAt : ℤ}
    (h : finishGame env s socket id confirmed now syncedAt = some s') :
    ∃ state, s.db.games.sessions.row id = some state ∧ s'.world = s.world
      ∧ syncUserBaseHashRate s'.db state.userId syncedAt
        = syncUserBaseHashRate s.db state.userId syncedAt
          + if syncedAt < powerEnds env confirmed now then 50 else 0 := by
  obtain ⟨state, hrow, h⟩ := Option.bind_eq_some_iff.mp h
  refine ⟨state, hrow, ?_⟩
  unfold SocketGames.finishGame at h
  by_cases hfinished : state.isFinished = true
  · simp only [hfinished, if_true] at h
    cases h
  · by_cases hwon : SocketGames.MIN_PLAY_MS ≤ now - state.startTime
    · simp only [hfinished, hwon, and_self, if_true, minersGet_userId] at h
      obtain rfl := Option.some.inj h
      refine ⟨rfl, ?_⟩
      simp only [syncUserBaseHashRate, gameHashRate, gamePowers, List.sum_append,
        SocketGames.createPower, SocketGames.setSession, List.filter_cons, true_and]
      by_cases hends : syncedAt < powerEnds env confirmed now
      · have hlast : syncedAt
            < now + SocketGames.powerDays env.games confirmed * 24 * 60 * 60 * 1000 := hends
        rw [if_pos hends, if_pos (decide_eq_true hlast), List.map_cons, List.sum_cons]
        simp only [machineHashRate, activeMiners, ytHashRate, ytPowers, gpuHashRate, gpuPowers,
          autoMiningV2Grants]
        ring
      · have hlast : ¬ syncedAt
            < now + SocketGames.powerDays env.games confirmed * 24 * 60 * 60 * 1000 := hends
        rw [if_neg hends, if_neg (by simpa using hlast)]
        simp only [machineHashRate, activeMiners, ytHashRate, ytPowers, gpuHashRate, gpuPowers,
          autoMiningV2Grants]
        ring
    · simp only [hfinished, hwon, and_false, if_false] at h
      cases h

/-- The session has been completed by the user, and rewarded. -/
def completed (db : Minigame.Db) (u sid : ℕ) : Bool :=
  (db.sessions.row sid).any fun r =>
    r.userId = u ∧ r.status = .COMPLETED ∧ r.rewardGranted

/-- What expires was active. -/
theorem completed_expire (db : Minigame.Db) (u v sid : ℕ) (now : ℤ) :
    completed (db.expireStaleActiveSessions v now) u sid = completed db u sid := by
  unfold completed Minigame.Db.expireStaleActiveSessions
  rw [Table.updateMany_row]
  cases db.sessions.row sid with
  | none => rfl
  | some r =>
      simp only [Option.map_some, Option.any_some]
      split
      case isTrue hstale =>
        simp only [Bool.and_eq_true, decide_eq_true_eq] at hstale
        simp [hstale.1.2]
      case isFalse => rfl

/-- A completion that is answered `ok` is a repeated one or writes a reward. -/
theorem complete_spec {e : Minigame.Env} {db minigame : Minigame.Db} {u sid : ℕ}
    {clientMeta : Minigame.ClientMeta} {now : ℤ} {idempotent : Bool} {rewardHashRate : ℕ}
    {powerDays : ℤ} {nextPlayAllowedAt : Option ℤ} {cooldown : ℤ}
    (h : Minigame.completeMinigameSession e db u sid clientMeta now
      = (minigame, .ok idempotent rewardHashRate powerDays nextPlayAllowedAt cooldown)) :
    idempotent = completed db u sid ∧ (idempotent = true → minigame.powers = db.powers) := by
  unfold Minigame.completeMinigameSession at h
  split at h
  · cases h
  · rw [← completed_expire db u u sid now]
    simp only at h
    split at h
    · cases h
    case h_2 id row hfind =>
      obtain ⟨hrow, hp⟩ := Table.findFirst_eq_some hfind
      simp only [Bool.and_eq_true, decide_eq_true_eq] at hp
      obtain ⟨rfl, huser⟩ := hp
      have hcompleted : completed (db.expireStaleActiveSessions u now) u id
          = decide (row.status = .COMPLETED ∧ row.rewardGranted = true) := by
        rw [completed, hrow, Option.any_some]
        simp only [huser, true_and]
      rw [hcompleted]
      by_cases hdone : row.status = .COMPLETED ∧ row.rewardGranted = true
      · rw [if_pos hdone] at h
        obtain ⟨rfl, hreply⟩ := Prod.mk.inj h
        obtain ⟨rfl, -⟩ := Minigame.CompleteReply.ok.inj hreply
        exact ⟨(decide_eq_true hdone).symm, fun _ => rfl⟩
      · rw [if_neg hdone] at h
        rw [decide_eq_false hdone]
        split at h
        · cases h
        · split at h
          · split at h
            · cases h
            · cases h
          · obtain ⟨-, hreply⟩ := Prod.mk.inj h
            obtain ⟨rfl, -⟩ := Minigame.CompleteReply.ok.inj hreply
            exact ⟨rfl, fun hfalse => by cases hfalse⟩

end Operations

/-! ## What is claimed of an operation -/

/-- The rate at which an operation that the user has paid for leaves the
miner. -/
def paidRate (s : State) : Op → Option ℚ
  | .upgradeRig minerId =>
      let (engine, reply) := s.world.engine.upgradeRig minerId
      if reply.ok then (engine.miner? minerId).map (·.baseHashRate) else none
  | _ => none

/-- After the operation the rate of the user's miner is the sum, and a reload
has taken nothing away that was paid for. -/
structure Follows (s : State) (op : Op) (now : ℤ) (s' : State) : Prop where
  inStep : ∀ u ∈ op.user s, InStep s' u now
  kept : ∀ paid ∈ paidRate s op, ∀ u ∈ op.user s, ∀ rate ∈ rateOf s'.world.engine u, paid ≤ rate

/-- The operation refreshes the user's miner, or finds it right: a won game
finds it at the sum with the new power, a repeated completion at the sum, and
a rig, of 18 H/s, at least that much behind it. -/
def Reached (env : Env) (s : State) (now : ℤ) : Op → Prop
  | .finishGame _ id confirmed wonAt => ∀ state ∈ s.db.games.sessions.row id,
      ∀ rate ∈ rateOf s.world.engine state.userId,
        rate = syncUserBaseHashRate s.db state.userId now
          + if now < powerEnds env confirmed wonAt then 50 else 0
  | .completeMinigameSession u sid _ _ =>
      completed s.db.minigame u sid = true → InStep s u now
  | .upgradeRig minerId => ∀ m ∈ s.world.engine.miner? minerId, rigCost m ≤ m.balance →
      m.baseHashRate + 18 ≤ syncUserBaseHashRate s.db m.userId now
  | _ => True

instance (env : Env) (s : State) (now : ℤ) : ∀ op, Decidable (Reached env s now op) := fun op => by
  unfold Reached
  split <;> infer_instance

section Steps

variable {env : Env} {s s' : State} {now : ℤ} {newRefCode : String}

theorem follows_of_inStep {op : Op} (hfree : paidRate s op = none)
    (h : ∀ u ∈ op.user s, InStep s' u now) : Follows s op now s' := by
  refine ⟨h, fun paid hpaid => ?_⟩
  rw [hfree] at hpaid
  cases hpaid

/-- An operation on the tables, and a reload. -/
theorem follows_reload {op : Op} {u : UserId} {x : Option State} (huser : op.user s = some u)
    (hfree : paidRate s op = none)
    (h : (x.map fun s => reloadMinerProfile s u newRefCode now) = some s') :
    Follows s op now s' := by
  obtain ⟨s₁, -, rfl⟩ := Option.map_eq_some_iff.mp h
  refine follows_of_inStep hfree fun v hv => ?_
  rw [huser] at hv
  obtain rfl := Option.some.inj hv
  exact reload_inStep _ _ _ _

theorem finishGame_follows_iff {socket id : ℕ} {confirmed : Bool} {wonAt : ℤ}
    (h : finishGame env s socket id confirmed wonAt now = some s') :
    Follows s (.finishGame socket id confirmed wonAt) now s'
      ↔ Reached env s now (.finishGame socket id confirmed wonAt) := by
  obtain ⟨state, hrow, hworld, hsum⟩ := finishGame_spec h
  have huser : Op.user s (.finishGame socket id confirmed wonAt) = some state.userId := by
    rw [Op.user, hrow, Option.map_some]
  constructor
  · intro hfollows state' hstate' rate hrate
    rw [hrow] at hstate'
    obtain rfl := Option.some.inj hstate'
    rw [← hsum]
    exact hfollows.inStep state.userId huser rate (hworld.symm ▸ hrate)
  · intro hreached
    refine follows_of_inStep rfl fun u hu rate hrate => ?_
    rw [huser] at hu
    obtain rfl := Option.some.inj hu
    rw [hworld] at hrate
    rw [hsum]
    exact hreached state hrow rate hrate

theorem completeMinigameSession_follows_iff {u sid : ℕ} {clientMeta : Minigame.ClientMeta}
    {playedAt : ℤ} (h : completeMinigameSession env s u sid clientMeta playedAt now = some s') :
    Follows s (.completeMinigameSession u sid clientMeta playedAt) now s'
      ↔ Reached env s now (.completeMinigameSession u sid clientMeta playedAt) := by
  unfold completeMinigameSession at h
  split at h
  case h_2 => cases h
  case h_1 minigame idempotent rewardHashRate powerDays nextPlayAllowedAt cooldown hreply =>
    obtain ⟨hrepeated, hpowers⟩ := complete_spec hreply
    obtain rfl := Option.some.inj h
    cases hcompleted : completed s.db.minigame u sid with
    | false =>
        rw [hcompleted] at hrepeated
        subst hrepeated
        refine iff_of_true (follows_of_inStep rfl fun v hv => ?_) fun htrue => ?_
        · obtain rfl := Option.some.inj hv
          exact syncFound_inStep _ _ _
        · rw [hcompleted] at htrue
          cases htrue
    | true =>
        rw [hcompleted] at hrepeated
        subst hrepeated
        have hsum : syncUserBaseHashRate { s.db with minigame } u now
            = syncUserBaseHashRate s.db u now := by
          simp only [syncUserBaseHashRate, gameHashRate, gamePowers, hpowers rfl]
          rfl
        constructor
        · intro hfollows _ rate hrate
          rw [← hsum]
          exact hfollows.inStep u rfl rate hrate
        · intro hreached
          refine follows_of_inStep rfl fun v hv rate hrate => ?_
          obtain rfl := Option.some.inj hv
          exact (hreached hcompleted rate hrate).trans hsum.symm

theorem claimReward_follows {u : UserId} {videoId : String} {claimedAt : ℤ}
    (h : claimReward env s u videoId claimedAt now = some s') :
    Follows s (.claimReward u videoId claimedAt) now s' := by
  unfold claimReward at h
  split at h
  · cases h
  · obtain ⟨expiresAt, -, rfl⟩ := Option.map_eq_some_iff.mp h
    refine follows_of_inStep rfl fun v hv => ?_
    obtain rfl := Option.some.inj hv
    exact syncFound_inStep _ _ _

theorem upgradeRig_bought {e : Engine} {minerId : MinerId} {m : Miner}
    (hm : e.miner? minerId = some m) (hcost : rigCost m ≤ m.balance) :
    e.upgradeRig minerId = (e.modifyMiner minerId withRig, .rigBought (m.rigs + 1)) := by
  simp only [Engine.upgradeRig, hm, if_neg (not_lt.mpr hcost)]

theorem upgradeRig_refused {e : Engine} {minerId : MinerId} {m : Miner}
    (hm : e.miner? minerId = some m) (hcost : m.balance < rigCost m) :
    e.upgradeRig minerId = (e, .needs (rigCost m)) := by
  simp only [Engine.upgradeRig, hm, if_pos hcost]

theorem persistMinerProfile_isSome (w : World) (minerId : MinerId) (u : UserId) :
    (rateOf (w.persistMinerProfile minerId).engine u).isSome = (rateOf w.engine u).isSome := by
  unfold World.persistMinerProfile
  cases w.engine.miner? minerId with
  | none => rfl
  | some m =>
      simp only
      split
      · rfl
      · exact rateOf_isSome_modifyMiner ..

/-- A rig is in no table, so that a reload leaves none of its rate. -/
theorem upgradeRig_follows_iff {minerId : MinerId}
    (h : step env s (.upgradeRig minerId) now newRefCode = some s') :
    Follows s (.upgradeRig minerId) now s' ↔ Reached env s now (.upgradeRig minerId) := by
  obtain ⟨m, hm, rfl⟩ := Option.map_eq_some_iff.mp h
  have huser : Op.user s (.upgradeRig minerId) = some m.userId := by
    rw [Op.user, hm, Option.map_some]
  have hinStep : ∀ u ∈ Op.user s (.upgradeRig minerId),
      InStep (reloadMinerProfile (upgradeRig s minerId) m.userId newRefCode now) u now := by
    intro u hu
    rw [huser] at hu
    obtain rfl := Option.some.inj hu
    exact reload_inStep _ _ _ _
  by_cases hcost : rigCost m ≤ m.balance
  · have hbought := upgradeRig_bought hm hcost
    have hpaid : paidRate s (.upgradeRig minerId) = some (m.baseHashRate + 18) := by
      simp only [paidRate, hbought, Reply.ok, if_true, miner?_modifyMiner, hm, Option.map_some,
        withRig]
    have hsum : (upgradeRig s minerId).db = s.db := rfl
    have hsome : (rateOf (upgradeRig s minerId).world.engine m.userId).isSome := by
      simp only [upgradeRig, hbought, Reply.ok, if_true]
      rw [persistMinerProfile_isSome, rateOf_isSome_modifyMiner, rateOf, find_of_miner? hm]
      rfl
    obtain ⟨old, hold⟩ := Option.isSome_iff_exists.mp hsome
    have hreloaded := rateOf_reloadMinerProfile (upgradeRig s minerId) m.userId newRefCode now
    rw [hold, Option.map_some, hsum] at hreloaded
    constructor
    · intro hfollows m' hm' _
      rw [hm] at hm'
      obtain rfl := Option.some.inj hm'
      exact hfollows.kept _ hpaid m.userId huser _ hreloaded
    · intro hreached
      refine ⟨hinStep, fun paid hpaid' u hu rate hrate => ?_⟩
      rw [huser] at hu
      obtain rfl := Option.some.inj hu
      rw [hpaid] at hpaid'
      obtain rfl := Option.some.inj hpaid'
      rw [hreloaded] at hrate
      obtain rfl := Option.some.inj hrate
      exact hreached m hm hcost
  · have hrefused := upgradeRig_refused hm (not_le.mp hcost)
    refine iff_of_true (follows_of_inStep ?_ hinStep) fun m' hm' hcost' => ?_
    · simp only [paidRate, hrefused, Reply.ok, Bool.false_eq_true, if_false]
    · rw [hm] at hm'
      obtain rfl := Option.some.inj hm'
      exact absurd hcost' hcost

end Steps

/-- **The engine follows the database, where a refresh reaches it.** After an
operation the rate of the user's miner is the sum of the tables, and a reload
takes nothing away that was paid for, exactly if `Reached` holds before it. -/
theorem hashRate_follows_iff {env : Env} {s s' : State} {op : Op} {now : ℤ} {newRefCode : String}
    (h : step env s op now newRefCode = some s') : Follows s op now s' ↔ Reached env s now op := by
  cases op with
  | finishGame socket id confirmed wonAt => exact finishGame_follows_iff h
  | completeMinigameSession u sid clientMeta playedAt =>
      exact completeMinigameSession_follows_iff h
  | claimReward u videoId claimedAt => exact iff_of_true (claimReward_follows h) trivial
  | toggleMachine | removeMachine | moveMachine | installMiner | uninstallMiner =>
      exact iff_of_true (follows_reload rfl rfl h) trivial
  | upgradeRig minerId => exact upgradeRig_follows_iff h

/-! ## A user with a machine and a game -/

def exampleUuid : Uuid where
  text id := "00000000-0000-4000-8000-" ++ String.ofList
    (List.replicate (12 - (Nat.toDigits 16 id).length) '0' ++ Nat.toDigits 16 id)
  dashed id := by simp

def exampleEnv : Env where
  machines := Machines.defaults
  minigame := { powerDays := none }
  games := { GAME_COOLDOWN_MS := 60000, GAME_POWER_DAYS := 7, MEMORY_MISMATCH_TOTAL_MS := 1000 }
  watch := { DURATION_HOURS := some 24 }
  uuid := exampleUuid

/-- User 1 has a machine of 10 H/s, miner 7 loaded at that rate, and a game of
match-3 under way since 0. -/
def exampleState : State where
  world :=
    { engine := ((Engine.new 0).createOrGetMiner 7
        { userId := 1, username := some "alice", walletAddress := none,
          profile := some { balance := some 20, base_hash_rate := some 10 } }).getD (.new 0)
      polBalance := fun u => if u = 1 then 20 else 0
      referredBy := fun _ => none
      runtimeSet := false }
  db :=
    { machines := { Machines.Db.empty with
        userMiner := Table.empty.insert
          { userId := 1, slotIndex := 0, specs := (Machines.customMachine 1).toSpecs
            ownedMachineId := none } }
      isActive := fun _ => true
      minigame := .empty
      games :=
        { sessions := Table.empty.insert
            { gameId := 1, userId := 1, score := 1480, isFinished := false, startTime := 0
              play := .match3 fun _ _ => none }
          bySocket := fun _ => some 1
          lastFinish := fun _ _ => none
          powers := []
          nextTimer := 0
          clock := 0 }
      watch :=
        { users := .empty, powers := .empty, history := .empty, auditLog := [], heartbeats := []
          clock := 0 }
      autoMiningGpu := []
      autoMiningV2PowerGrant := some []
      columns := fun _ => { miningPayoutMode := .pol, refCode := none, referrals := 0 } }

/-- The machine is switched off. -/
theorem hashRate_follows_iff_toggle : ∃ s',
    step exampleEnv exampleState (.toggleMachine 1 1 (some false)) 20000 "a1b2c3d4e5" = some s'
      ∧ (Follows exampleState (.toggleMachine 1 1 (some false)) 20000 s'
        ↔ Reached exampleEnv exampleState 20000 (.toggleMachine 1 1 (some false))) := by
  have hrun : (step exampleEnv exampleState (.toggleMachine 1 1 (some false)) 20000
      "a1b2c3d4e5").isSome := by decide +kernel
  exact ⟨_, (Option.some_get hrun).symm, hashRate_follows_iff (Option.some_get hrun).symm⟩

/-- A game that is won adds 50 H/s to the sum, and nothing to the loaded
miner. -/
theorem finishGame_unseen :
    ¬ ∀ (env : Env) (s s' : State) (op : Op) (now : ℤ) (newRefCode : String),
        step env s op now newRefCode = some s' → Follows s op now s' := by
  intro h
  have hrun : (finishGame exampleEnv exampleState 1 1 true 20000 20000).isSome := by
    decide +kernel
  have hstep : step exampleEnv exampleState (.finishGame 1 1 true 20000) 20000 "a1b2c3d4e5"
      = some (Option.get _ hrun) := (Option.some_get hrun).symm
  have hreached := (finishGame_follows_iff (Option.some_get hrun).symm).mp (h _ _ _ _ _ _ hstep)
  revert hreached
  decide +kernel

/-- The rig that the user can pay for is not in the sum. -/
example : ¬ Reached exampleEnv exampleState 20000 (.upgradeRig 7) := by decide +kernel

end BlockMiner.HashRate
