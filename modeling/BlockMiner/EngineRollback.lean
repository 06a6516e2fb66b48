import BlockMiner.EngineBlock
import Mathlib.Algebra.Order.BigOperators.Group.List

/-!
# Rolling back a block that was not persisted

`distributeRewards` pays first and persists later. If the persist callback
rejects, its handler undoes the payment from a snapshot taken when the
block was paid; operations on the same miners may have run in between.

`afterRejection` is that course of events, and `withoutReward` the one it
should be indistinguishable from: the same tick with the payment loop left
out, followed by the same operations. The handler restores the balance
and `lifetimeMined` to their snapshots but never touches
`lastPersistedBalance`, so the two agree only when the block paid nobody
(`undone_iff`). The argument follows the persisted marks alone
(`MarksPlus`): no interleaved operation can tell the two runs apart by
them, since each moves a mark by an amount that does not depend on any
balance.
-/

namespace BlockMiner

namespace Engine

/-- An operation that may run before the persist callback settles. -/
inductive BalanceOp where
  | applyBoost (minerId : MinerId) (now : Nat)
  | upgradeRig (minerId : MinerId)
  | applyUserBalanceDelta (u : UserId) (delta : ℚ)

variable (runtimeSet : Bool)

def balanceStep (e : Engine) : BalanceOp → Engine
  | .applyBoost id now => (e.applyBoost id now).1
  | .upgradeRig id => (e.upgradeRig id).1
  | .applyUserBalanceDelta u delta => applyUserBalanceDelta runtimeSet e u delta

def balanceOps (e : Engine) (ops : List BalanceOp) : Engine :=
  ops.foldl (balanceStep runtimeSet) e

/-- Run the rejection handler, if there is a callback to reject. -/
def reject (e : Engine) : Option PendingBlock → Engine
  | none => e
  | some p => e.rollbackBlock p

/-- A tick at `now`, then `ops`, then the rejection of its block. -/
def afterRejection (e : Engine) (now : Nat) (ops : List BalanceOp) : Engine :=
  ((e.tick now).1.balanceOps runtimeSet ops).reject (e.tick now).2

/-- The tick with the payment loop left out: the miners are those the loop
started from. -/
def tickUnpaid (e : Engine) (now : Nat) : Engine :=
  { (e.tick now).1 with
    store := (e.accumulateWork now).store
    totalMinted := e.totalMinted }

def withoutReward (e : Engine) (now : Nat) (ops : List BalanceOp) : Engine :=
  (e.tickUnpaid now).balanceOps runtimeSet ops

/-- The rejected block left no trace in the ledger. -/
structure Undone (e : Engine) (now : Nat) (ops : List BalanceOp) : Prop where
  ledger : ∀ id, (e.afterRejection runtimeSet now ops).ledger? id
    = (e.withoutReward runtimeSet now ops).ledger? id
  totalMinted : (e.afterRejection runtimeSet now ops).totalMinted
    = (e.withoutReward runtimeSet now ops).totalMinted
  /-- The next `persistMinerProfile` writes the interleaved changes. -/
  nextDelta : ∀ id, ((e.afterRejection runtimeSet now ops).miner? id).map persistDelta
    = ((e.withoutReward runtimeSet now ops).miner? id).map persistDelta

/-! ## Persisted marks -/

/-- The persisted mark of the miner loaded under `id`. -/
def mark? (e : Engine) (id : MinerId) : Option ℚ :=
  (e.miner? id).map (·.lastPersistedBalance)

theorem mark?_eq_ledger? (e : Engine) (id : MinerId) :
    e.mark? id = (e.ledger? id).map (·.lastPersistedBalance) := by
  rw [mark?, ledger?, Option.map_map]
  rfl

/-- `e'` has the miners of `e`, with each persisted mark larger by `a`. -/
structure MarksPlus (a : MinerId → ℚ) (e e' : Engine) : Prop where
  index : e'.store.minersByUserId = e.store.minersByUserId
  marks : ∀ id, e'.mark? id = (e.mark? id).map (· + a id)

theorem mark?_modifyMiner {e : Engine} {id : MinerId} {f : Miner → Miner} {c : ℚ}
    (hf : ∀ m, (f m).lastPersistedBalance = m.lastPersistedBalance + c) (x : MinerId) :
    (e.modifyMiner id f).mark? x
      = (e.mark? x).map (· + if x = id then c else 0) := by
  rw [mark?, mark?, miner?_modifyMiner, Option.map_map]
  split
  case isTrue =>
    rw [Option.map_map]
    exact congrArg (Option.map · _) (funext hf)
  case isFalse =>
    simp only [Function.comp_def, add_zero]

theorem MarksPlus.modify_left {a : MinerId → ℚ} {e e' : Engine} {id : MinerId}
    {f : Miner → Miner} (h : MarksPlus a e e')
    (hf : ∀ m, (f m).lastPersistedBalance = m.lastPersistedBalance) :
    MarksPlus a (e.modifyMiner id f) e' where
  index := h.index.trans (modifyMiner_minersByUserId ..).symm
  marks x := by
    rw [mark?_modifyMiner (c := 0) (fun m => (hf m).trans (add_zero _).symm), h.marks]
    simp

theorem MarksPlus.modify_right {a : MinerId → ℚ} {e e' : Engine} {id : MinerId}
    {f : Miner → Miner} (h : MarksPlus a e e')
    (hf : ∀ m, (f m).lastPersistedBalance = m.lastPersistedBalance) :
    MarksPlus a e (e'.modifyMiner id f) where
  index := (modifyMiner_minersByUserId ..).trans h.index
  marks x := by
    rw [mark?_modifyMiner (c := 0) (fun m => (hf m).trans (add_zero _).symm), h.marks]
    simp [Function.comp_def]

theorem MarksPlus.modify_both {a : MinerId → ℚ} {e e' : Engine} {id : MinerId}
    {f : Miner → Miner} {c : ℚ} (h : MarksPlus a e e')
    (hf : ∀ m, (f m).lastPersistedBalance = m.lastPersistedBalance + c) :
    MarksPlus a (e.modifyMiner id f) (e'.modifyMiner id f) where
  index := by
    rw [modifyMiner_minersByUserId, modifyMiner_minersByUserId, h.index]
  marks x := by
    rw [mark?_modifyMiner hf, mark?_modifyMiner hf, h.marks, Option.map_map, Option.map_map]
    exact congrArg (Option.map · _) (funext fun m => add_right_comm ..)

/-- Which user is loaded under which id is the same on both sides. -/
theorem MarksPlus.find_id {a : MinerId → ℚ} {e e' : Engine} (h : MarksPlus a e e') (u : UserId) :
    (e'.findMinerByUserId u).map (·.id) = (e.findMinerByUserId u).map (·.id) := by
  have key : ∀ e : Engine, (e.findMinerByUserId u).map (·.id)
      = if u = 0 then none else e.store.minersByUserId.get? u := by
    intro e
    unfold findMinerByUserId
    split
    case isTrue => rfl
    case isFalse =>
      cases hid : e.store.minersByUserId.get? u with
      | none => rfl
      | some id =>
          obtain ⟨m, hm, -⟩ := e.store.user_ok u id hid
          rw [Option.bind_some, hm, Option.map_some, (e.store.id_ok id m hm).1]
  rw [key, key, h.index]

/-- **Step lemma.** An operation does the same to the marks of both runs. -/
theorem MarksPlus.step {a : MinerId → ℚ} {e e' : Engine} (h : MarksPlus a e e')
    (op : BalanceOp) :
    MarksPlus a (e.balanceStep runtimeSet op) (e'.balanceStep runtimeSet op) := by
  cases op with
  | applyBoost id now =>
      -- each side may refuse the boost on its own; no mark moves either way
      have hleft : MarksPlus a (e.applyBoost id now).1 e' := by
        rcases applyBoost_cases e id now with ⟨heq, -⟩ | ⟨m, -, heq, -⟩
        · rwa [heq]
        · rw [heq]
          exact h.modify_left fun _ => rfl
      show MarksPlus a _ (e'.applyBoost id now).1
      rcases applyBoost_cases e' id now with ⟨heq, -⟩ | ⟨m, -, heq, -⟩
      · rwa [heq]
      · rw [heq]
        exact hleft.modify_right fun _ => rfl
  | upgradeRig id =>
      have hleft : MarksPlus a (e.upgradeRig id).1 e' := by
        rcases upgradeRig_cases e id with ⟨heq, -⟩ | ⟨m, -, heq, -⟩
        · rwa [heq]
        · rw [heq]
          exact h.modify_left fun _ => rfl
      show MarksPlus a _ (e'.upgradeRig id).1
      rcases upgradeRig_cases e' id with ⟨heq, -⟩ | ⟨m, -, heq, -⟩
      · rwa [heq]
      · rw [heq]
        exact hleft.modify_right fun _ => rfl
  | applyUserBalanceDelta u delta =>
      have hid := h.find_id u
      show MarksPlus a (applyUserBalanceDelta runtimeSet e u delta)
        (applyUserBalanceDelta runtimeSet e' u delta)
      unfold applyUserBalanceDelta
      cases runtimeSet with
      | false => exact h
      | true =>
          cases hm : e.findMinerByUserId u with
          | none =>
              rw [hm, Option.map_none, Option.map_eq_none_iff] at hid
              rw [hid]
              exact h
          | some m =>
              rw [hm, Option.map_some, Option.map_eq_some_iff] at hid
              obtain ⟨m', hm', heq⟩ := hid
              rw [hm']
              simp only [heq]
              exact h.modify_both fun _ => rfl

theorem MarksPlus.ops {a : MinerId → ℚ} :
    ∀ (ops : List BalanceOp) {e e' : Engine}, MarksPlus a e e' →
      MarksPlus a (e.balanceOps runtimeSet ops) (e'.balanceOps runtimeSet ops)
  | [], _, _, h => h
  | op :: ops, _, _, h => MarksPlus.ops ops (h.step runtimeSet op)

theorem rollbackMiner_cases (payload : BlockPayload) (e : Engine) (entry : MinerId × Snapshot) :
    rollbackMiner payload e entry = e
      ∨ ∃ minted, rollbackMiner payload e entry
        = { e.modifyMiner entry.1 (restoredTo entry.2) with totalMinted := minted } := by
  obtain ⟨id, snapshot⟩ := entry
  cases hm : e.miner? id with
  | none => exact Or.inl (by simp only [rollbackMiner, hm])
  | some m =>
      cases hr : payload.minerRewards.find? (·.minerId = id) with
      | none => exact Or.inl (by simp only [rollbackMiner, hm, hr])
      | some r => exact Or.inr ⟨_, by simp only [rollbackMiner, hm, hr]; rfl⟩

/-- The rejection handler moves no mark. -/
theorem MarksPlus.rollbackLoop {a : MinerId → ℚ} {e : Engine} {payload : BlockPayload} :
    ∀ (entries : List (MinerId × Snapshot)) {e' : Engine}, MarksPlus a e e' →
      MarksPlus a e (entries.foldl (rollbackMiner payload) e')
  | [], _, h => h
  | entry :: entries, e', h => by
      rw [List.foldl_cons]
      refine MarksPlus.rollbackLoop entries ?_
      rcases rollbackMiner_cases payload e' entry with heq | ⟨minted, heq⟩
      · rwa [heq]
      · rw [heq]
        have hrestored : MarksPlus a e (e'.modifyMiner entry.1 (restoredTo entry.2)) :=
          h.modify_right fun _ => rfl
        exact ⟨hrestored.index, hrestored.marks⟩

theorem MarksPlus.reject {a : MinerId → ℚ} {e e' : Engine} (h : MarksPlus a e e') :
    ∀ pending : Option PendingBlock, MarksPlus a e (e'.reject pending)
  | none => h
  | some p => h.rollbackLoop p.balanceSnapshot.entries

/-- A paying tick is ahead of the unpaid one by the rewards. -/
theorem tick_marksPlus (e : Engine) (now : Nat) :
    MarksPlus (paidTo (rewardsOf (e.tick now).2)) (e.tickUnpaid now) (e.tick now).1 where
  index := (tick_paid e now).index.trans (accumulateWork_paid e now).index.symm
  marks id := by
    have hbefore : (e.tickUnpaid now).mark? id = e.mark? id := by
      show (e.accumulateWork now).mark? id = e.mark? id
      rw [mark?_eq_ledger?, mark?_eq_ledger?, (accumulateWork_paid e now).rows, Option.map_map]
      simp [paidTo, Function.comp_def]
    rw [hbefore, mark?_eq_ledger?, mark?_eq_ledger?, (tick_paid e now).rows, Option.map_map,
      Option.map_map]
    rfl

/-! ## When the rejection is undone -/

/-- A loop over entries that are not payable leaves the miners alone. -/
theorem payLoop_store {e : Engine} {reward totalWork : ℚ} :
    ∀ (entries : List (MinerId × ℚ)) {acc : PayAcc}, acc.engine.store = e.store →
      (∀ entry ∈ entries, e.payable entry = false) →
      (entries.foldl (payMiner reward totalWork) acc).engine.store = e.store
  | [], _, h, _ => h
  | entry :: entries, acc, h, hnone => by
      have hpay : acc.engine.payable entry = false := by
        rw [payable, miner?, h]
        exact hnone entry (List.mem_cons_self ..)
      rw [List.foldl_cons, payMiner_of_not_payable hpay]
      exact payLoop_store entries h fun x hx => hnone x (List.mem_cons_of_mem _ hx)

theorem clearLoop_store :
    ∀ (entries : List (MinerId × ℚ)) (e : Engine),
      (entries.foldl (fun e entry => e.setWork entry.1 0) e).store = e.store
  | [], _ => rfl
  | _ :: entries, e => by
      rw [List.foldl_cons, clearLoop_store entries]
      rfl

theorem distributeRewards_store {e : Engine} {now : Nat}
    (h : (e.distributeRewards now).2 = none) : (e.distributeRewards now).1.store = e.store := by
  have hnobody := (distributeRewards_paid e now).2.mp h
  unfold distributeRewards
  by_cases hwork : e.totalWork ≤ 0
  · simp only [if_pos hwork]
    exact clearLoop_store e.roundWork.entries e
  · simp only [if_neg hwork]
    refine payLoop_store e.roundWork.entries rfl fun entry hentry => ?_
    rw [← Bool.not_eq_true]
    exact fun hp => hnobody ⟨not_le.mp hwork, entry, hentry, hp⟩

/-- A tick that pays nobody is the tick without the payment loop. -/
theorem tick_eq_unpaid {e : Engine} {now : Nat} (h : (e.tick now).2 = none) :
    (e.tick now).1 = e.tickUnpaid now := by
  have hminted : (e.tick now).1.totalMinted = e.totalMinted := by
    rw [(tick_paid e now).minted, h]
    exact add_zero _
  have hstore : (e.tick now).1.store = (e.accumulateWork now).store := by
    revert h
    unfold tick
    by_cases hdue : (e.accumulateWork now).nextBlockAt ≤ now
    · simp only [if_pos hdue]
      exact distributeRewards_store
    · simp only [if_neg hdue, implies_true]
  rw [tickUnpaid, ← hstore, ← hminted]

theorem tick_rewards_ne_nil {e : Engine} {now : Nat} {p : PendingBlock}
    (h : (e.tick now).2 = some p) : rewardsOf (e.tick now).2 ≠ [] := by
  rw [h]
  revert h
  unfold tick distributeRewards
  by_cases hdue : (e.accumulateWork now).nextBlockAt ≤ now
  · simp only [if_pos hdue]
    by_cases hwork : (e.accumulateWork now).totalWork ≤ 0
    · simp only [if_pos hwork]
      exact fun h => by cases h
    · simp only [if_neg hwork]
      split
      case isTrue => exact fun h => by cases h
      case isFalse hne =>
        intro h
        obtain rfl := Option.some.inj h
        exact hne
  · simp only [if_neg hdue]
    exact fun h => by cases h

/-- The rewards of a block are positive, so a rewarded miner shows them. -/
theorem paidTo_pos {e : Engine} {now : Nat} {r : MinerReward}
    (h : r ∈ rewardsOf (e.tick now).2) : 0 < paidTo (rewardsOf (e.tick now).2) r.minerId := by
  refine List.sum_pos _ (fun x hx => ?_) ?_
  · obtain ⟨r', hr', rfl⟩ := List.mem_map.mp hx
    exact (tick_paid e now).positive r' (List.mem_of_mem_filter hr')
  · exact List.ne_nil_of_mem (List.mem_map_of_mem (List.mem_filter.mpr ⟨h, by simp⟩))

theorem modifyMiner_isSome (e : Engine) (id x : MinerId) (f : Miner → Miner) :
    ((e.modifyMiner id f).miner? x).isSome = (e.miner? x).isSome := by
  rw [miner?_modifyMiner]
  split
  · exact Option.isSome_map
  · rfl

/-- No operation loads or unloads a miner. -/
theorem balanceOps_isSome (id : MinerId) :
    ∀ (ops : List BalanceOp) (e : Engine),
      ((e.balanceOps runtimeSet ops).miner? id).isSome = (e.miner? id).isSome
  | [], _ => rfl
  | op :: ops, e => by
      have hstep : ((e.balanceStep runtimeSet op).miner? id).isSome = (e.miner? id).isSome := by
        cases op with
        | applyBoost x now =>
            rcases applyBoost_cases e x now with ⟨heq, -⟩ | ⟨m, -, heq, -⟩ <;>
              simp only [balanceStep, heq, modifyMiner_isSome]
        | upgradeRig x =>
            rcases upgradeRig_cases e x with ⟨heq, -⟩ | ⟨m, -, heq, -⟩ <;>
              simp only [balanceStep, heq, modifyMiner_isSome]
        | applyUserBalanceDelta u delta =>
            rcases applyUserBalanceDelta_cases runtimeSet e u delta with
              ⟨heq, -⟩ | ⟨m, -, -, -, heq⟩ <;>
              simp only [balanceStep, heq, modifyMiner_isSome]
      rw [← hstep]
      exact balanceOps_isSome id ops _

/-- A rewarded miner is loaded in the run without the reward as well. -/
theorem withoutReward_loaded {e : Engine} {now : Nat} {r : MinerReward} (ops : List BalanceOp)
    (h : r ∈ rewardsOf (e.tick now).2) :
    ∃ x, (e.withoutReward runtimeSet now ops).mark? r.minerId = some x := by
  obtain ⟨m, hm, -⟩ := (tick_paid e now).loaded r h
  have hbefore : ((e.tickUnpaid now).miner? r.minerId).isSome = (e.miner? r.minerId).isSome :=
    miner?_isSome_of_rows (accumulateWork_paid e now) r.minerId
  have hloaded : ((e.withoutReward runtimeSet now ops).miner? r.minerId).isSome := by
    rw [withoutReward, balanceOps_isSome, hbefore, hm]
    rfl
  obtain ⟨m', hm'⟩ := Option.isSome_iff_exists.mp hloaded
  exact ⟨m'.lastPersistedBalance, by rw [mark?, hm', Option.map_some]⟩

/-- **Rollback.** Whatever runs before the rejection, the handler undoes the
block exactly when there was nothing to undo. -/
theorem undone_iff (e : Engine) (now : Nat) (ops : List BalanceOp) :
    Undone runtimeSet e now ops ↔ ¬ PaysSomeone e now := by
  rw [← tick_pending_iff]
  constructor
  · intro hundone
    by_contra hsome
    obtain ⟨p, hp⟩ := Option.ne_none_iff_exists'.mp hsome
    obtain ⟨r, hr⟩ := List.exists_mem_of_ne_nil _ (tick_rewards_ne_nil hp)
    have hmarks := ((tick_marksPlus e now).ops runtimeSet ops).reject (e.tick now).2
    have hledger := congrArg (Option.map (·.lastPersistedBalance)) (hundone.ledger r.minerId)
    rw [← mark?_eq_ledger?, ← mark?_eq_ledger?] at hledger
    obtain ⟨x, hx⟩ := withoutReward_loaded runtimeSet ops hr
    have hmark := (hmarks.marks r.minerId).symm.trans hledger
    rw [withoutReward] at hx hmark
    rw [hx, Option.map_some, Option.some.injEq, add_eq_left] at hmark
    exact absurd hmark (paidTo_pos hr).ne'
  · intro hnone
    have hsame : e.afterRejection runtimeSet now ops = e.withoutReward runtimeSet now ops := by
      rw [afterRejection, withoutReward, hnone, tick_eq_unpaid hnone]
      rfl
    exact ⟨fun id => by rw [hsame], by rw [hsame], fun id => by rw [hsame]⟩

/-- An engine with one miner, id 7, of hash rate 10. -/
def oneMiner : Engine :=
  ((Engine.new 0).createOrGetMiner 7
    { userId := 1, username := some "alice", walletAddress := none,
      profile := some { base_hash_rate := some 10 } }).getD (.new 0)

/-- The handler puts the balance back under a mark that has moved on: the
next persist would debit the reward that was rolled back. -/
theorem rollback_leaves_debit :
    ¬ ∀ (runtimeSet : Bool) (e : Engine) (now : Nat) (ops : List BalanceOp),
        Undone runtimeSet e now ops := by
  intro h
  have hdelta := (h false oneMiner blockDurationMs []).nextDelta 7
  revert hdelta
  decide +kernel

end Engine

end BlockMiner
