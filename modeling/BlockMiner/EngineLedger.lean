import BlockMiner.Run
import BlockMiner.EngineBlock
import Mathlib.Algebra.BigOperators.Group.List.Basic

/-!
# The POL ledger between the engine and the database

A user's money is in two places: `polBalance` in the users table, and the
balance of the loaded miner, of which `lastPersistedBalance` marks what
the table already has. What the user really owns is the `settled` amount,
the table value plus the unpersisted rest.

`LedgerOp` lists the operations that touch either copy, each run to
completion. All of them move the settled amount by the flow they are
charged with, except for one case: a reload or re-join that finds the
table ahead of the engine overwrites both copies of the engine, and with
them a boost or rig purchase that was not persisted yet. `SyncSafe` is the
condition that excludes it.
-/

namespace BlockMiner

open Engine

/-- The engine beside the two columns of the users table it is kept in
step with. -/
structure World where
  engine : Engine
  polBalance : UserId → ℚ
  referredBy : UserId → Option UserId
  /-- See `Engine.applyUserBalanceDelta`. -/
  runtimeSet : Bool

namespace World

/-- `prisma.user.update` with `polBalance: { increment: amount }`. -/
def increment (w : World) (u : UserId) (amount : ℚ) : World :=
  { w with polBalance := Function.update w.polBalance u (w.polBalance u + amount) }

def applyUserBalanceDelta (w : World) (u : UserId) (delta : ℚ) : World :=
  { w with engine := Engine.applyUserBalanceDelta w.runtimeSet w.engine u delta }

/-- Table value plus what the engine has not written to it yet. -/
def settled (w : World) (u : UserId) : ℚ := w.polBalance u + w.engine.unpersisted u

/-! ## Block rewards -/

/-- The entry of `pendingReferralDeltas` that one reward gives rise to. -/
def referralDelta (referredBy : UserId → Option UserId) (r : MinerReward) :
    Option (UserId × ℚ) :=
  if 0 < r.rewardAmount then
    ((referredBy r.userId).filter (· ≠ 0)).map fun referrer =>
      (referrer, r.rewardAmount * (1 / 100))
  else none

/-- The balance updates of `persistBlockRewards` for one reward: the miner
is credited, and the referrer gets the commission. -/
def persistReward (w : World) (r : MinerReward) : World :=
  match referralDelta w.referredBy r with
  | none => w.increment r.userId r.rewardAmount
  | some (referrer, commission) =>
    (w.increment r.userId r.rewardAmount).increment referrer commission

/-- `persistBlockRewards`: one transaction for the rewards, and after it
the commissions are passed on to the engine. -/
def persistBlockRewards (w : World) (rewards : List MinerReward) : World :=
  (rewards.filterMap (referralDelta w.referredBy)).foldl
    (fun w d => w.applyUserBalanceDelta d.1 d.2) (rewards.foldl persistReward w)

/-- `persistMinerProfile`, run to completion for the miner under `minerId`. -/
def persistMinerProfile (w : World) (minerId : MinerId) : World :=
  match w.engine.miner? minerId with
  | none => w
  | some m =>
    if nothingToPersist (persistDelta m) then w
    else
      let w := w.increment m.userId (persistDelta m)
      { w with engine := w.engine.markPersisted minerId }

/-- The profile as just read from the users table. -/
def freshProfile (w : World) (u : UserId) (p : Profile) : Profile :=
  { p with balance := some (w.polBalance u) }

end World

/-! ## Operations -/

/-- The operations on the ledger. A profile carried by a label stands for
the fields that the accounting does not look at; the balance in it is read
from the table when the operation runs. -/
inductive LedgerOp where
  | tick (now : Nat)
  | applyBoost (minerId : MinerId) (now : Nat)
  | upgradeRig (minerId : MinerId)
  | persistMinerProfile (minerId : MinerId)
  /-- A change of `polBalance` followed by `applyUserBalanceDelta`. -/
  | mirrored (u : UserId) (amount : ℚ)
  /-- A change of `polBalance` that the engine is not told about. -/
  | dbOnly (u : UserId) (amount : ℚ)
  | reloadMinerProfile (u : UserId) (profile : Option Profile)
  | createOrGetMiner (uuid : MinerId) (req : JoinRequest)

def ledgerStep (w : World) : LedgerOp → Option World
  | .tick now =>
      let (engine, pending) := w.engine.tick now
      some ({ w with engine }.persistBlockRewards (rewardsOf pending))
  | .applyBoost id now => some { w with engine := (w.engine.applyBoost id now).1 }
  | .upgradeRig id => some { w with engine := (w.engine.upgradeRig id).1 }
  | .persistMinerProfile id => some (w.persistMinerProfile id)
  | .mirrored u amount => some ((w.increment u amount).applyUserBalanceDelta u amount)
  | .dbOnly u amount => some (w.increment u amount)
  | .reloadMinerProfile u profile =>
      some { w with engine := w.engine.reloadMinerProfile u (profile.map (w.freshProfile u)) }
  | .createOrGetMiner uuid req =>
      (w.engine.createOrGetMiner uuid
        { req with profile := req.profile.map (w.freshProfile req.userId) }).map
        fun engine => { w with engine }

def ledger : System World LedgerOp := ⟨ledgerStep⟩

/-- What one reward entry brings to user `u`, as the miner or as the
referrer of the miner. -/
def rewardCredit (referredBy : UserId → Option UserId) (u : UserId) (r : MinerReward) : ℚ :=
  (if u = r.userId then r.rewardAmount else 0)
    + match World.referralDelta referredBy r with
      | none => 0
      | some (referrer, commission) => if u = referrer then commission else 0

/-- The price of a purchase that went through, charged to the owner of
the miner. -/
def spend (e : Engine) (u : UserId) (id : MinerId) (bought : Bool) (price : Miner → ℚ) : ℚ :=
  match e.miner? id with
  | none => 0
  | some m => if bought ∧ u = m.userId then price m else 0

/-- What an operation should add to the settled amount of user `u`. -/
def ledgerFlow (u : UserId) (w : World) : LedgerOp → ℚ
  | .tick now => ((rewardsOf (w.engine.tick now).2).map (rewardCredit w.referredBy u)).sum
  | .applyBoost id now =>
      - spend w.engine u id (w.engine.applyBoost id now).2.ok fun _ => boostCost
  | .upgradeRig id => - spend w.engine u id (w.engine.upgradeRig id).2.ok rigCost
  | .mirrored v amount | .dbOnly v amount => if u = v then amount else 0
  | .persistMinerProfile _ | .reloadMinerProfile _ _ | .createOrGetMiner _ _ => 0

/-- Nothing is lost if the engine takes the table value of `u` over now:
the table is not ahead, or the engine has nothing unpersisted. -/
def SyncSafe (w : World) (u : UserId) : Prop :=
  ∀ m ∈ w.engine.findMinerByUserId u,
    w.polBalance u ≤ m.balance ∨ m.balance = m.lastPersistedBalance

instance (w : World) (u : UserId) : Decidable (SyncSafe w u) :=
  inferInstanceAs (Decidable (∀ m ∈ w.engine.findMinerByUserId u, _))

/-- Reloads and re-joins are safe; every other operation always is. -/
def LedgerCond (w : World) : LedgerOp → Prop
  | .reloadMinerProfile u (some _) => SyncSafe w u
  | .createOrGetMiner _ req => req.profile.isSome → SyncSafe w req.userId
  | _ => True

instance (w : World) : ∀ op, Decidable (LedgerCond w op)
  | .reloadMinerProfile u (some _) => inferInstanceAs (Decidable (SyncSafe w u))
  | .createOrGetMiner _ req =>
      inferInstanceAs (Decidable (req.profile.isSome → SyncSafe w req.userId))
  | .reloadMinerProfile _ none | .tick _ | .applyBoost _ _ | .upgradeRig _
  | .persistMinerProfile _ | .mirrored _ _ | .dbOnly _ _ => inferInstanceAs (Decidable True)

/-! ## One lemma per operation -/

section Operations

variable (w : World) (u : UserId)

@[simp] theorem settled_increment (v : UserId) (amount : ℚ) :
    (w.increment v amount).settled u = w.settled u + if u = v then amount else 0 := by
  simp only [World.settled, World.increment, Function.update_apply]
  split
  case isTrue h =>
    subst h
    ring
  case isFalse => ring

/-- A notification moves both copies in the engine. -/
@[simp] theorem settled_applyUserBalanceDelta (v : UserId) (delta : ℚ) :
    (w.applyUserBalanceDelta v delta).settled u = w.settled u := by
  simp only [World.settled, World.applyUserBalanceDelta]
  rcases applyUserBalanceDelta_cases w.runtimeSet w.engine v delta with
    ⟨heq, -⟩ | ⟨m, -, hm, -, heq⟩
  · rw [heq]
  · have hshift : persistDelta (shifted delta m) = persistDelta m := by
      simp only [persistDelta, shifted]
      ring
    rw [heq, unpersisted_modifyMiner hm, hshift, sub_self, ite_self, add_zero]

theorem settled_notifications :
    ∀ (ds : List (UserId × ℚ)) (w : World),
      (ds.foldl (fun w d => w.applyUserBalanceDelta d.1 d.2) w).settled u = w.settled u
  | [], _ => rfl
  | d :: ds, w => by
      rw [List.foldl_cons, settled_notifications ds, settled_applyUserBalanceDelta]

theorem settled_persistReward (r : MinerReward) :
    (w.persistReward r).settled u = w.settled u + rewardCredit w.referredBy u r := by
  unfold World.persistReward rewardCredit
  cases World.referralDelta w.referredBy r with
  | none => simp
  | some d => simp [add_assoc]

@[simp] theorem persistReward_referredBy (r : MinerReward) :
    (w.persistReward r).referredBy = w.referredBy := by
  unfold World.persistReward
  cases World.referralDelta w.referredBy r <;> rfl

theorem settled_persistRewards :
    ∀ (rewards : List MinerReward) (w : World),
      (rewards.foldl World.persistReward w).settled u
        = w.settled u + (rewards.map (rewardCredit w.referredBy u)).sum
  | [], w => by simp
  | r :: rewards, w => by
      rw [List.foldl_cons, settled_persistRewards rewards, settled_persistReward,
        persistReward_referredBy, List.map_cons, List.sum_cons, add_assoc]

/-- A tick moves the rewards in both copies of the engine; writing them to
the table is what makes the users richer. -/
theorem settled_tick (now : Nat) :
    ({ w with engine := (w.engine.tick now).1 }.persistBlockRewards
        (rewardsOf (w.engine.tick now).2)).settled u
      = w.settled u
        + ((rewardsOf (w.engine.tick now).2).map (rewardCredit w.referredBy u)).sum := by
  have hpaid := tick_paid w.engine now
  have hsame : (w.engine.tick now).1.unpersisted u = w.engine.unpersisted u := by
    refine unpersisted_congr hpaid.index (fun id => ?_) u
    have hrow := congrArg (Option.map fun r : LedgerRow => r.balance - r.lastPersistedBalance)
      (hpaid.rows id)
    rw [ledger?, ledger?, Option.map_map, Option.map_map, Option.map_map] at hrow
    refine hrow.trans (congrArg (Option.map · _) (funext fun m => ?_))
    exact add_sub_add_right_eq_sub ..
  rw [World.persistBlockRewards, settled_notifications, settled_persistRewards]
  simp only [World.settled, hsame]

/-- Money spent in the engine is missing from the unpersisted part. -/
theorem settled_purchase {e' : Engine} {id : MinerId} {ok : Bool} {f : Miner → Miner}
    (price : Miner → ℚ) (hprice : ∀ m, persistDelta (f m) = persistDelta m - price m)
    (h : (e' = w.engine ∧ ok = false)
      ∨ ∃ m, w.engine.miner? id = some m ∧ e' = w.engine.modifyMiner id f ∧ ok = true) :
    { w with engine := e' }.settled u = w.settled u + - spend w.engine u id ok price := by
  rcases h with ⟨rfl, rfl⟩ | ⟨m, hm, rfl, rfl⟩
  · cases hm : w.engine.miner? id <;> simp [spend, hm]
  · have hdelta : persistDelta (f m) - persistDelta m = - price m := by
      rw [hprice]
      ring
    simp only [World.settled, unpersisted_modifyMiner hm, hdelta, spend, hm, true_and]
    split <;> ring

theorem settled_persistMinerProfile (id : MinerId) :
    (w.persistMinerProfile id).settled u = w.settled u := by
  unfold World.persistMinerProfile
  cases hm : w.engine.miner? id with
  | none => rfl
  | some m =>
      simp only
      split
      case isTrue => rfl
      case isFalse =>
        -- the table gains exactly what the mark catches up with
        simp only [World.settled, World.increment, markPersisted, Function.update_apply,
          unpersisted_modifyMiner hm]
        simp only [persistDelta]
        split
        case isTrue h =>
          subst h
          ring
        case isFalse => ring

/-- Taking the table value over keeps the unpersisted part exactly when
nothing is lost by it. -/
theorem persistDelta_syncBalance_iff (dbBalance : ℚ) (m : Miner) :
    persistDelta (syncBalance dbBalance m) = persistDelta m ↔
      dbBalance ≤ m.balance ∨ m.balance = m.lastPersistedBalance := by
  unfold syncBalance
  split
  case isTrue h =>
    simp only [persistDelta, sub_self, not_le.mpr h, false_or]
    exact eq_comm.trans sub_eq_zero
  case isFalse h => exact iff_of_true rfl (Or.inl (not_lt.mp h))

/-- A sync of the miner of `v` that meets `SyncSafe` moves no money. -/
theorem settled_sync {v : UserId} {m m' : Miner} {f : Miner → Miner}
    (hm : w.engine.findMinerByUserId v = some m) (hsafe : SyncSafe w v)
    (hf : f m = syncBalance (orDefault (some (w.polBalance v)) 0) m')
    (hbal : m'.balance = m.balance)
    (hmark : m'.lastPersistedBalance = m.lastPersistedBalance) :
    { w with engine := w.engine.modifyMiner m.id f }.settled u = w.settled u := by
  have hdb : orDefault (some (w.polBalance v)) 0 = w.polBalance v := by
    show (if w.polBalance v = 0 then 0 else w.polBalance v) = w.polBalance v
    split
    case isTrue h => exact h.symm
    case isFalse => rfl
  have hkeep : persistDelta (f m) = persistDelta m := by
    have hm' : persistDelta m' = persistDelta m := by
      rw [persistDelta, hbal, hmark, persistDelta]
    rw [hf, hdb, ← hm', persistDelta_syncBalance_iff, hbal, hmark]
    exact hsafe m hm
  simp only [World.settled, unpersisted_modifyMiner (find_eq_some_iff.mp hm).1, hkeep, sub_self,
    ite_self, add_zero]

end Operations

/-! ## Conservation -/

/-- **Step lemma.** An operation that meets its condition moves the settled
amount of every user by its flow. -/
theorem ledgerStep_settled {w w' : World} {op : LedgerOp} (u : UserId)
    (hsafe : LedgerCond w op) (h : ledgerStep w op = some w') :
    w'.settled u = w.settled u + ledgerFlow u w op := by
  cases op with
  | tick now =>
      obtain rfl := Option.some.inj h
      exact settled_tick w u now
  | applyBoost id now =>
      obtain rfl := Option.some.inj h
      refine settled_purchase w u _ (fun m => ?_) (applyBoost_cases w.engine id now)
      simp only [persistDelta, boosted]
      ring
  | upgradeRig id =>
      obtain rfl := Option.some.inj h
      refine settled_purchase w u _ (fun m => ?_) (upgradeRig_cases w.engine id)
      simp only [persistDelta, withRig]
      ring
  | persistMinerProfile id =>
      obtain rfl := Option.some.inj h
      rw [settled_persistMinerProfile, ledgerFlow, add_zero]
  | mirrored v amount =>
      obtain rfl := Option.some.inj h
      rw [settled_applyUserBalanceDelta, settled_increment, ledgerFlow]
  | dbOnly v amount =>
      obtain rfl := Option.some.inj h
      rw [settled_increment, ledgerFlow]
  | reloadMinerProfile v profile =>
      obtain rfl := Option.some.inj h
      rw [ledgerFlow, add_zero]
      rcases reloadMinerProfile_cases w.engine v (profile.map (w.freshProfile v)) with
        heq | ⟨p, m, hp, hm, heq⟩
      · rw [heq]
      · obtain ⟨p0, rfl, rfl⟩ := Option.map_eq_some_iff.mp hp
        rw [heq]
        exact settled_sync w u hm hsafe rfl rfl rfl
  | createOrGetMiner uuid req =>
      obtain ⟨e', he', rfl⟩ := Option.map_eq_some_iff.mp h
      rw [ledgerFlow, add_zero]
      rcases createOrGetMiner_cases he' with ⟨m, hm, rfl⟩ | ⟨hfind, hfresh, -, hget⟩
      · obtain ⟨userId, username, walletAddress, profile⟩ := req
        cases profile with
        | none =>
            -- without a profile only the name and the wallet change
            simp [World.settled, unpersisted_modifyMiner (find_eq_some_iff.mp hm).1, rejoin,
              persistDelta]
        | some p =>
            exact settled_sync w u hm (hsafe rfl) rfl rfl rfl
      · simp only [World.settled, createOrGetMiner_unpersisted_new hfind hfresh hget]

/-- **Conservation.** Over a run whose reloads and re-joins are all safe,
the settled amount of a user is the initial one plus all rewards and
credits, minus everything spent. -/
theorem settled_conserved {w w' : World} {ops : List LedgerOp} (u : UserId)
    (hsafe : ledger.Meets LedgerCond w ops) (hrun : ledger.run w ops = some w') :
    w'.settled u = w.settled u + ledger.total (ledgerFlow u) w ops :=
  ledger.run_potential (C := LedgerCond) (I := fun _ => True) (φ := (·.settled u))
    (fun _ _ _ _ hC hstep => ⟨trivial, ledgerStep_settled u hC hstep⟩) trivial hsafe hrun

/-- One user, id 1, with 10 POL in the table and no miner loaded yet. -/
def ledgerStart : World where
  engine := .new 0
  polBalance := fun u => if u = 1 then 10 else 0
  referredBy := fun _ => none
  runtimeSet := false

/-- The user joins, under miner id 7. -/
def ledgerJoin : LedgerOp :=
  .createOrGetMiner 7
    { userId := 1, username := some "alice", walletAddress := none, profile := some {} }

/-- Joining, boosting, persisting, a credit outside the engine, a reload. -/
def ledgerSafeOps : List LedgerOp :=
  [ledgerJoin, .applyBoost 7 0, .persistMinerProfile 7, .dbOnly 1 5,
    .reloadMinerProfile 1 (some {})]

theorem settled_conserved_safeOps :
    ∃ w', ledger.run ledgerStart ledgerSafeOps = some w'
      ∧ w'.settled 1
          = ledgerStart.settled 1 + ledger.total (ledgerFlow 1) ledgerStart ledgerSafeOps :=
  have hrun : (ledger.run ledgerStart ledgerSafeOps).isSome := by decide +kernel
  ⟨_, (Option.some_get hrun).symm,
    settled_conserved 1 (by decide +kernel) (Option.some_get hrun).symm⟩

/-- A boost that is reloaded before it is persisted was free. -/
theorem reload_erases_boost :
    ¬ ∀ (w w' : World) (ops : List LedgerOp) (u : UserId), ledger.run w ops = some w' →
        w'.settled u = w.settled u + ledger.total (ledgerFlow u) w ops := by
  intro h
  have hten : (ledger.run ledgerStart
      [ledgerJoin, .applyBoost 7 0, .reloadMinerProfile 1 (some {})]).map (·.settled 1)
        = some 10 := by
    decide +kernel
  obtain ⟨w', hrun, hw'⟩ := Option.map_eq_some_iff.mp hten
  have hclaim := h ledgerStart w' _ 1 hrun
  rw [hw'] at hclaim
  revert hclaim
  decide +kernel

end BlockMiner
