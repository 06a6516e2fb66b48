import BlockMiner.EngineFacts

/-!
# What a block pays

`Paid e e' rewards` is the closed form of the payment loop: the user
index is unchanged, the ledger row of every miner grew by the rewards
listed for it, and `totalMinted` grew by all of them. The loop, the
distribution and the whole tick are each described by it
(`payLoop_paid`, `distributeRewards_paid`, `tick_paid`), against the list
of rewards handed to the persist callback.

`PaysSomeone` says, of the state a tick starts from, that the callback
will be called at all: the block is due, and with the work the tick adds
(`dueWork`) the round has positive work, some of it a loaded miner's
(`tick_pending_iff`).
-/

namespace BlockMiner

namespace LedgerRow

/-- A row after a reward of `a` in all three amounts. -/
def plus (r : LedgerRow) (a : ℚ) : LedgerRow :=
  { r with
    balance := r.balance + a
    lastPersistedBalance := r.lastPersistedBalance + a
    lifetimeMined := r.lifetimeMined + a }

@[simp] theorem plus_zero (r : LedgerRow) : r.plus 0 = r := by simp [plus]

theorem plus_plus (r : LedgerRow) (a b : ℚ) : (r.plus a).plus b = r.plus (a + b) := by
  simp [plus, add_assoc]

end LedgerRow

namespace Engine

/-- The part of a reward list that goes to one miner. -/
def paidTo (rewards : List MinerReward) (id : MinerId) : ℚ :=
  ((rewards.filter (·.minerId = id)).map (·.rewardAmount)).sum

theorem paidTo_append (rs : List MinerReward) (r : MinerReward) (id : MinerId) :
    paidTo (rs ++ [r]) id = paidTo rs id + if r.minerId = id then r.rewardAmount else 0 := by
  by_cases h : r.minerId = id <;> simp [paidTo, List.filter_append, h]

/-- `e'` is `e` after paying `rewards`. -/
structure Paid (e e' : Engine) (rewards : List MinerReward) : Prop where
  index : e'.store.minersByUserId = e.store.minersByUserId
  rows : ∀ id, e'.ledger? id = (e.ledger? id).map (·.plus (paidTo rewards id))
  minted : e'.totalMinted = e.totalMinted + (rewards.map (·.rewardAmount)).sum
  positive : ∀ r ∈ rewards, 0 < r.rewardAmount
  loaded : ∀ r ∈ rewards, ∃ m, e.miner? r.minerId = some m ∧ m.userId = r.userId

theorem ledger?_modifyMiner (e : Engine) (id x : MinerId) (f : Miner → Miner) :
    (e.modifyMiner id f).ledger? x
      = if x = id then (e.miner? x).map fun m => { (f m).ledger with userId := m.userId }
        else e.ledger? x := by
  rw [ledger?, miner?_modifyMiner]
  split
  · rw [Option.map_map]
    rfl
  · rfl

/-- Two engines with the same ledger rows have the same loaded miners. -/
theorem miner?_isSome_of_rows {e e' : Engine} {rewards : List MinerReward}
    (h : Paid e e' rewards) (id : MinerId) : (e'.miner? id).isSome = (e.miner? id).isSome := by
  have hrow := congrArg Option.isSome (h.rows id)
  simpa [ledger?] using hrow

/-- The miner of a user, after the payment. -/
theorem Paid.find {e e' : Engine} {rewards : List MinerReward} (h : Paid e e' rewards)
    (u : UserId) :
    (e'.findMinerByUserId u).map Miner.ledger
      = (e.findMinerByUserId u).map fun m => m.ledger.plus (paidTo rewards m.id) := by
  unfold findMinerByUserId
  rw [h.index]
  split
  · rfl
  · cases e.store.minersByUserId.get? u with
    | none => rfl
    | some id =>
        refine (h.rows id).trans ?_
        show ((e.miner? id).map Miner.ledger).map _ = (e.miner? id).map _
        cases hm : e.miner? id with
        | none => rfl
        | some m => rw [Option.map_some, Option.map_some, Option.map_some, miner?_id hm]

theorem Paid.refl (e : Engine) : Paid e e [] where
  index := rfl
  rows id := by simp [paidTo]
  minted := by simp
  positive := by simp
  loaded := by simp

/-- Steps that leave the index, the rows and `totalMinted` alone do not
disturb what was paid. -/
theorem Paid.congr_right {e e' e'' : Engine} {rewards : List MinerReward}
    (h : Paid e e' rewards) (hby : e''.store.minersByUserId = e'.store.minersByUserId)
    (hrows : ∀ id, e''.ledger? id = e'.ledger? id)
    (hmint : e''.totalMinted = e'.totalMinted) : Paid e e'' rewards where
  index := hby.trans h.index
  rows id := (hrows id).trans (h.rows id)
  minted := hmint.trans h.minted
  positive := h.positive
  loaded := h.loaded

/-! ## Accumulation -/

@[simp] theorem expireBoost_ledger (now : Nat) (m : Miner) :
    (expireBoost now m).ledger = m.ledger := by
  unfold expireBoost
  split <;> rfl

/-- One accumulation step moves no money. -/
theorem accumulateMiner_paid {e : Engine} {now : Nat} {acc : TickAcc} {entry : MinerId × Miner}
    (h : Paid e acc.engine []) : Paid e (accumulateMiner now acc entry).engine [] := by
  have hmod : Paid e (acc.engine.modifyMiner entry.1 (expireBoost now)) [] := by
    refine h.congr_right (modifyMiner_minersByUserId ..) (fun id => ?_) rfl
    rw [ledger?_modifyMiner]
    split
    · simp only [expireBoost_ledger]
      rfl
    · rfl
  unfold accumulateMiner
  cases hmode : (expireBoost now entry.2).miningPayoutMode with
  | pol =>
      simp only [hmode]
      exact hmod.congr_right rfl (fun _ => rfl) rfl
  | blk =>
      simp only [hmode]
      exact hmod

theorem accumulateLoop_paid {e : Engine} {now : Nat} :
    ∀ {entries : List (MinerId × Miner)} (acc : TickAcc), Paid e acc.engine [] →
      Paid e (entries.foldl (accumulateMiner now) acc).engine []
  | [], _, h => h
  | entry :: entries, acc, h => by
      rw [List.foldl_cons]
      exact accumulateLoop_paid _ (accumulateMiner_paid h)

theorem accumulateWork_paid (e : Engine) (now : Nat) : Paid e (e.accumulateWork now) [] :=
  (accumulateLoop_paid ⟨e, 0, 0⟩ (Paid.refl e)).congr_right rfl (fun _ => rfl) rfl

theorem accumulateLoop_nextBlockAt {now : Nat} :
    ∀ {entries : List (MinerId × Miner)} {acc : TickAcc},
      (entries.foldl (accumulateMiner now) acc).engine.nextBlockAt = acc.engine.nextBlockAt
  | [], _ => rfl
  | entry :: entries, acc => by
      rw [List.foldl_cons, accumulateLoop_nextBlockAt]
      unfold accumulateMiner
      cases hmode : (expireBoost now entry.2).miningPayoutMode <;> simp only [hmode] <;> rfl

@[simp] theorem accumulateWork_nextBlockAt (e : Engine) (now : Nat) :
    (e.accumulateWork now).nextBlockAt = e.nextBlockAt := accumulateLoop_nextBlockAt

/-- The work a tick adds to the round for a miner. -/
def dueWork (now : Nat) (m : Miner) : ℚ :=
  match (expireBoost now m).miningPayoutMode with
  | .pol => getMinerHashRate (expireBoost now m)
  | .blk => 0

/-- The work of a miner in the round; none is 0. -/
def workOf (e : Engine) (minerId : MinerId) : ℚ := (e.roundWork.get? minerId).getD 0

theorem accumulateMiner_totalWork (now : Nat) (acc : TickAcc) (entry : MinerId × Miner) :
    (accumulateMiner now acc entry).engine.totalWork
      = acc.engine.totalWork + dueWork now entry.2 := by
  unfold accumulateMiner dueWork
  cases hmode : (expireBoost now entry.2).miningPayoutMode with
  | pol =>
      simp only [hmode]
      show ((OrdMap.set _ _ _).entries.map Prod.snd).sum = _
      rw [OrdMap.sum_set]
      simp only [modifyMiner_roundWork, totalWork]
      ring
  | blk =>
      simp only [hmode]
      exact (add_zero _).symm

theorem accumulateMiner_workOf (now : Nat) (acc : TickAcc) (entry : MinerId × Miner)
    (id : MinerId) :
    (accumulateMiner now acc entry).engine.workOf id
      = acc.engine.workOf id + if id = entry.1 then dueWork now entry.2 else 0 := by
  unfold accumulateMiner dueWork
  cases hmode : (expireBoost now entry.2).miningPayoutMode with
  | pol =>
      simp only [hmode]
      show ((OrdMap.set _ _ _).get? id).getD 0 = _
      rw [OrdMap.get?_set]
      by_cases hid : id = entry.1
      · rw [if_pos hid, if_pos hid, hid]
        rfl
      · rw [if_neg hid, if_neg hid, add_zero]
        rfl
  | blk =>
      simp only [hmode, ite_self, add_zero]
      rfl

theorem accumulateLoop_totalWork {now : Nat} :
    ∀ {entries : List (MinerId × Miner)} {acc : TickAcc},
      (entries.foldl (accumulateMiner now) acc).engine.totalWork
        = acc.engine.totalWork + (entries.map fun entry => dueWork now entry.2).sum
  | [], _ => (add_zero _).symm
  | entry :: entries, acc => by
      rw [List.foldl_cons, accumulateLoop_totalWork, accumulateMiner_totalWork, List.map_cons,
        List.sum_cons, add_assoc]

/-- Each miner is visited once. -/
theorem accumulateLoop_workOf {now : Nat} {id : MinerId} :
    ∀ {entries : List (MinerId × Miner)} {acc : TickAcc}, (entries.map Prod.fst).Nodup →
      (entries.foldl (accumulateMiner now) acc).engine.workOf id
        = acc.engine.workOf id + ((entries.lookup id).map (dueWork now)).getD 0
  | [], _, _ => (add_zero _).symm
  | entry :: entries, acc, hnd => by
      rw [List.map_cons, List.nodup_cons] at hnd
      rw [List.foldl_cons, accumulateLoop_workOf hnd.2, accumulateMiner_workOf,
        OrdMap.lookup_cons_ite]
      by_cases hid : id = entry.1
      · have hnone : entries.lookup id = none := OrdMap.lookup_of_not_mem (hid ▸ hnd.1)
        rw [if_pos hid, if_pos hid, hnone, Option.map_none, Option.getD_none, add_zero,
          Option.map_some, Option.getD_some]
      · rw [if_neg hid, if_neg hid, add_zero]

theorem accumulateWork_totalWork (e : Engine) (now : Nat) :
    (e.accumulateWork now).totalWork
      = e.totalWork + (e.store.miners.entries.map fun entry => dueWork now entry.2).sum :=
  accumulateLoop_totalWork

theorem accumulateWork_workOf (e : Engine) (now : Nat) (id : MinerId) :
    (e.accumulateWork now).workOf id
      = e.workOf id + ((e.miner? id).map (dueWork now)).getD 0 :=
  accumulateLoop_workOf e.store.miners.nodup

/-! ## Payment -/

/-- A `roundWork` entry that is paid: positive work of a loaded miner. -/
def payable (e : Engine) (entry : MinerId × ℚ) : Bool :=
  (e.miner? entry.1).isSome && decide (0 < entry.2)

theorem payMiner_of_not_payable {reward totalWork : ℚ} {acc : PayAcc} {entry : MinerId × ℚ}
    (h : acc.engine.payable entry = false) :
    payMiner reward totalWork acc entry
      = { acc with engine := acc.engine.setWork entry.1 0 } := by
  obtain ⟨id, work⟩ := entry
  simp only [payMiner]
  cases hm : acc.engine.miner? id with
  | none => rfl
  | some m =>
      simp only [payable, hm, Option.isSome_some, Bool.true_and, decide_eq_false_iff_not,
        not_lt] at h
      simp only [if_pos h]

theorem payMiner_of_payable {reward totalWork : ℚ} {acc : PayAcc} {entry : MinerId × ℚ}
    {m : Miner} (hm : acc.engine.miner? entry.1 = some m) (hw : 0 < entry.2) :
    payMiner reward totalWork acc entry
      = payReward acc entry.1 m entry.2 (entry.2 / totalWork)
          (reward * (entry.2 / totalWork)) := by
  obtain ⟨id, work⟩ := entry
  simp only at hm hw
  simp only [payMiner, hm, if_neg (not_le.mpr hw)]

/-- The paying branch pays one more reward, to the miner under its id. -/
theorem payReward_paid {e : Engine} {acc : PayAcc} {id : MinerId} {m : Miner}
    {work share reward : ℚ} (hm : acc.engine.miner? id = some m) (hreward : 0 < reward)
    (h : Paid e acc.engine acc.minerRewards) :
    Paid e (payReward acc id m work share reward).engine
      (payReward acc id m work share reward).minerRewards := by
  have hid : m.id = id := miner?_id hm
  have hrow := h.rows id
  rw [ledger?, hm, Option.map_some] at hrow
  obtain ⟨row, hrow', hplus⟩ := Option.map_eq_some_iff.mp hrow.symm
  refine ⟨?_, ?_, ?_, ?_, ?_⟩
  · exact (modifyMiner_minersByUserId ..).trans h.index
  · intro x
    show (acc.engine.modifyMiner id (rewarded reward)).ledger? x = _
    rw [ledger?_modifyMiner, payReward, paidTo_append]
    by_cases hx : x = id
    · subst hx
      rw [if_pos rfl, hm, hrow', Option.map_some, Option.map_some,
        if_pos (show (rewardEntry m work share reward).minerId = x from hid),
        ← LedgerRow.plus_plus, hplus]
      rfl
    · have hx' : (rewardEntry m work share reward).minerId ≠ x :=
        fun h' => hx (h'.symm.trans hid)
      rw [if_neg hx, h.rows x, if_neg hx', add_zero]
  · show acc.engine.totalMinted + reward = _
    simp [payReward, rewardEntry, h.minted, add_assoc]
  · intro r hr
    rcases List.mem_append.mp hr with hold | hnew
    · exact h.positive r hold
    · obtain rfl := List.mem_singleton.mp hnew
      exact hreward
  · intro r hr
    rcases List.mem_append.mp hr with hold | hnew
    · exact h.loaded r hold
    · obtain rfl := List.mem_singleton.mp hnew
      obtain ⟨m0, hm0, rfl⟩ := Option.map_eq_some_iff.mp hrow'
      exact ⟨m0, (congrArg e.miner? hid).trans hm0, congrArg LedgerRow.userId hplus⟩

/-- What a paid entry brings: the miner, and its part of the block reward. -/
def rewardShare (reward totalWork : ℚ) (entry : MinerId × ℚ) : MinerId × ℚ :=
  (entry.1, reward * (entry.2 / totalWork))

/-- One payment step: a skipped entry pays nothing, a payable one adds its
reward to the list and to the row of its miner. -/
theorem payMiner_paid {e : Engine} {reward totalWork : ℚ} (hreward : 0 < reward)
    (htotal : 0 < totalWork) {acc : PayAcc} (entry : MinerId × ℚ)
    (h : Paid e acc.engine acc.minerRewards) :
    Paid e (payMiner reward totalWork acc entry).engine
        (payMiner reward totalWork acc entry).minerRewards
      ∧ (payMiner reward totalWork acc entry).minerRewards.map
            (fun r => (r.minerId, r.rewardAmount))
          = acc.minerRewards.map (fun r => (r.minerId, r.rewardAmount))
            ++ if e.payable entry then [rewardShare reward totalWork entry] else [] := by
  have hpay : acc.engine.payable entry = e.payable entry := by
    rw [payable, payable, miner?_isSome_of_rows h]
  cases hp : e.payable entry with
  | false =>
      rw [payMiner_of_not_payable (hpay.trans hp)]
      exact ⟨h.congr_right rfl (fun _ => rfl) rfl, by simp⟩
  | true =>
      have hp' := hpay.trans hp
      simp only [payable, Bool.and_eq_true, decide_eq_true_eq] at hp'
      obtain ⟨m, hm⟩ := Option.isSome_iff_exists.mp hp'.1
      rw [payMiner_of_payable hm hp'.2]
      refine ⟨payReward_paid hm (mul_pos hreward (div_pos hp'.2 htotal)) h, ?_⟩
      simp [payReward, rewardEntry, rewardShare, miner?_id hm]

theorem payLoop_paid {e : Engine} {reward totalWork : ℚ} (hreward : 0 < reward)
    (htotal : 0 < totalWork) :
    ∀ (entries : List (MinerId × ℚ)) (acc : PayAcc), Paid e acc.engine acc.minerRewards →
      Paid e (entries.foldl (payMiner reward totalWork) acc).engine
          (entries.foldl (payMiner reward totalWork) acc).minerRewards
        ∧ (entries.foldl (payMiner reward totalWork) acc).minerRewards.map
              (fun r => (r.minerId, r.rewardAmount))
            = acc.minerRewards.map (fun r => (r.minerId, r.rewardAmount))
              ++ (entries.filter e.payable).map (rewardShare reward totalWork)
  | [], _, h => ⟨h, by simp⟩
  | entry :: entries, acc, h => by
      obtain ⟨hpaid, hids⟩ := payMiner_paid hreward htotal entry h
      obtain ⟨hpaid', hids'⟩ := payLoop_paid hreward htotal entries _ hpaid
      refine ⟨hpaid', ?_⟩
      rw [List.foldl_cons, hids', hids, List.filter_cons]
      cases e.payable entry <;> simp

/-! ## Distribution and tick -/

/-- The rewards handed to the persist callback; none when it is not called. -/
def rewardsOf : Option PendingBlock → List MinerReward
  | none => []
  | some p => p.payload.minerRewards

/-- The tick at `now` closes a block that pays at least one miner. -/
def PaysSomeone (e : Engine) (now : Nat) : Prop :=
  e.nextBlockAt ≤ now
    ∧ 0 < e.totalWork + (e.store.miners.entries.map fun entry => dueWork now entry.2).sum
    ∧ ∃ id m, e.miner? id = some m ∧ 0 < e.workOf id + dueWork now m

/-- The entries that will be paid, seen from the state before the tick. -/
theorem exists_payable_iff (e : Engine) (now : Nat) :
    (∃ entry ∈ (e.accumulateWork now).roundWork.entries,
        (e.accumulateWork now).payable entry = true)
      ↔ ∃ id m, e.miner? id = some m ∧ 0 < e.workOf id + dueWork now m := by
  have hloaded (id) : ((e.accumulateWork now).miner? id).isSome = (e.miner? id).isSome :=
    miner?_isSome_of_rows (accumulateWork_paid e now) id
  constructor
  · rintro ⟨⟨id, work⟩, hentry, hpay⟩
    obtain ⟨hsome, hpos⟩ := Bool.and_eq_true_iff.mp hpay
    rw [hloaded] at hsome
    obtain ⟨m, hm⟩ := Option.isSome_iff_exists.mp hsome
    have hwork := accumulateWork_workOf e now id
    rw [workOf, OrdMap.mem_entries.mp hentry, hm] at hwork
    exact ⟨id, m, hm, hwork ▸ of_decide_eq_true hpos⟩
  · rintro ⟨id, m, hm, hpos⟩
    have hwork := accumulateWork_workOf e now id
    rw [hm, Option.map_some, Option.getD_some] at hwork
    rw [← hwork, workOf] at hpos
    cases hget : (e.accumulateWork now).roundWork.get? id with
    | none =>
        rw [hget] at hpos
        exact absurd hpos (lt_irrefl 0)
    | some work =>
        rw [hget] at hpos
        refine ⟨(id, work), OrdMap.mem_entries.mpr hget, Bool.and_eq_true_iff.mpr ⟨?_, ?_⟩⟩
        · rw [hloaded, hm]
          rfl
        · exact decide_eq_true hpos

theorem clearLoop_paid {e : Engine} :
    ∀ {entries : List (MinerId × ℚ)} {e' : Engine}, Paid e e' [] →
      Paid e (entries.foldl (fun e entry => e.setWork entry.1 0) e') []
  | [], _, h => h
  | entry :: entries, e', h => by
      rw [List.foldl_cons]
      exact clearLoop_paid (h.congr_right rfl (fun _ => rfl) rfl)

theorem distributeRewards_paid (e : Engine) (now : Nat) :
    Paid e (e.distributeRewards now).1 (rewardsOf (e.distributeRewards now).2)
      ∧ ((e.distributeRewards now).2 = none ↔
          ¬ (0 < e.totalWork ∧ ∃ entry ∈ e.roundWork.entries, e.payable entry = true)) := by
  unfold distributeRewards
  by_cases hwork : e.totalWork ≤ 0
  · simp only [if_pos hwork]
    exact ⟨(clearLoop_paid (Paid.refl e)).congr_right rfl (fun _ => rfl) rfl,
      by simp [not_lt.mpr hwork]⟩
  · have hpos : 0 < e.totalWork := not_le.mp hwork
    have hbase : 0 < rewardBase := by
      norm_num [rewardBase]
    obtain ⟨hpaid, hids⟩ := payLoop_paid hbase hpos e.roundWork.entries ⟨e, [], .empty, .empty⟩
      (Paid.refl e)
    have hnil : (e.roundWork.entries.foldl (payMiner rewardBase e.totalWork)
          ⟨e, [], .empty, .empty⟩).minerRewards = []
        ↔ ¬ ∃ entry ∈ e.roundWork.entries, e.payable entry = true := by
      rw [← List.map_eq_nil_iff (f := fun r : MinerReward => (r.minerId, r.rewardAmount)), hids]
      simp
    simp only [if_neg hwork]
    split
    case isTrue hempty =>
      rw [hempty] at hpaid
      exact ⟨hpaid.congr_right rfl (fun _ => rfl) rfl, by simp [hpos, hnil.mp hempty]⟩
    case isFalse hne =>
      refine ⟨hpaid.congr_right rfl (fun _ => rfl) rfl, ?_⟩
      have hsome := not_not.mp (mt hnil.mpr hne)
      simp [hpos, hsome]

/-- Paying after a step that moved no money. -/
theorem Paid.after {e e' e'' : Engine} {rewards : List MinerReward}
    (h : Paid e e' []) (h' : Paid e' e'' rewards) : Paid e e'' rewards where
  index := h'.index.trans h.index
  rows id := by
    rw [h'.rows, h.rows, Option.map_map]
    congr 1
    funext row
    simp [paidTo]
  minted := by
    rw [h'.minted, h.minted]
    simp
  positive := h'.positive
  loaded r hr := by
    obtain ⟨m', hm', hu⟩ := h'.loaded r hr
    have hrow := h.rows r.minerId
    rw [ledger?, hm', Option.map_some] at hrow
    obtain ⟨row, hrow', hplus⟩ := Option.map_eq_some_iff.mp hrow.symm
    obtain ⟨m, hm, rfl⟩ := Option.map_eq_some_iff.mp hrow'
    exact ⟨m, hm, (congrArg LedgerRow.userId hplus).trans hu⟩

/-- A tick pays exactly the rewards it hands to the persist callback. -/
theorem tick_paid (e : Engine) (now : Nat) :
    Paid e (e.tick now).1 (rewardsOf (e.tick now).2) := by
  have hacc := accumulateWork_paid e now
  unfold tick
  by_cases hdue : (e.accumulateWork now).nextBlockAt ≤ now
  · simp only [if_pos hdue]
    exact (hacc.after (distributeRewards_paid _ now).1).congr_right rfl (fun _ => rfl) rfl
  · simp only [if_neg hdue]
    exact hacc.congr_right rfl (fun _ => rfl) rfl

/-- The persist callback is called exactly when the tick pays someone. -/
theorem tick_pending_iff (e : Engine) (now : Nat) :
    (e.tick now).2 = none ↔ ¬ PaysSomeone e now := by
  unfold tick PaysSomeone
  rw [← exists_payable_iff, ← accumulateWork_totalWork]
  by_cases hdue : (e.accumulateWork now).nextBlockAt ≤ now
  · simp only [if_pos hdue, (distributeRewards_paid _ now).2]
    rw [accumulateWork_nextBlockAt] at hdue
    simp [hdue]
  · simp only [if_neg hdue, true_iff]
    rw [accumulateWork_nextBlockAt] at hdue
    exact fun h => hdue h.1

end Engine

end BlockMiner
