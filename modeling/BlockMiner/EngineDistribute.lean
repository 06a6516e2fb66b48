import BlockMiner.Run
import BlockMiner.EngineBlock
import Mathlib.Algebra.BigOperators.Ring.List
import Mathlib.Algebra.Order.BigOperators.Group.List
import Mathlib.Tactic.FieldSimp

/-!
# The block reward is shared out, and only that

`distributeRewards` on an arbitrary engine. The payment loop is followed
through the list of rewards it hands to the persist callback: `payLoop_paid`
says which entries are on the list and with which amounts, and what each
miner and `totalMinted` receive is read off that list. Three facts are
followed through the loop on top of it: the sum of all balances, the round
work, and the entries of the block history.

The block numbers of the history are decreasing because the number of the
block being closed is above them. That is a fact about the state the loop
starts in, `HistorySound`, which the engine establishes when it is built and
every method keeps (`methods_historySound`).
-/

namespace BlockMiner

namespace OrdMap

variable {κ ν : Type*} [DecidableEq κ]

/-- Overwriting keys with one value, seen from one key. -/
theorem get?_foldl_set (v : ν) (k : κ) :
    ∀ (es : List (κ × ν)) (m : OrdMap κ ν),
      (es.foldl (fun m e => m.set e.1 v) m).get? k
        = if k ∈ es.map Prod.fst then some v else m.get? k
  | [], m => by simp
  | e :: es, m => by
      rw [List.foldl_cons, get?_foldl_set v k es, get?_set, List.map_cons]
      by_cases hk : k ∈ es.map Prod.fst
      · rw [if_pos hk, if_pos (List.mem_cons_of_mem _ hk)]
      · by_cases he : k = e.1
        · rw [if_neg hk, if_pos he, if_pos (he ▸ List.mem_cons_self ..)]
        · rw [if_neg hk, if_neg he, if_neg (by simpa [he] using hk)]

end OrdMap

namespace Engine

/-! ## The history -/

/-- At most 12 blocks, newest first, all before the block in progress. -/
structure HistorySound (e : Engine) : Prop where
  length_le : e.blockHistory.length ≤ 12
  decreasing : (e.blockNumber :: e.blockHistory.map (·.blockNumber)).Pairwise (· > ·)

theorem HistorySound.congr {e e' : Engine} (h : e.HistorySound)
    (hnum : e'.blockNumber = e.blockNumber) (hist : e'.blockHistory = e.blockHistory) :
    e'.HistorySound := by
  refine ⟨?_, ?_⟩
  · rw [hist]
    exact h.length_le
  · rw [hnum, hist]
    exact h.decreasing

/-- Closing the block in progress puts its number in front of the others. -/
theorem HistorySound.closed {e e' : Engine} {record : BlockRecord} (h : e.HistorySound)
    (hist : e'.blockHistory = (record :: e.blockHistory).take 12)
    (hrec : record.blockNumber = e.blockNumber) (hnum : e'.blockNumber = e.blockNumber + 1) :
    e'.HistorySound where
  length_le := by
    rw [hist, List.length_take]
    omega
  decreasing := by
    have hlong : ((record :: e.blockHistory).map (·.blockNumber)).Pairwise (· > ·) := by
      rw [List.map_cons, hrec]
      exact h.decreasing
    have hshort := hlong.sublist
      ((List.take_sublist 12 (record :: e.blockHistory)).map (·.blockNumber))
    rw [hist]
    refine List.pairwise_cons.mpr ⟨fun n hn => ?_, hshort⟩
    obtain ⟨r, hr, rfl⟩ := List.mem_map.mp hn
    rw [hnum]
    rcases List.mem_cons.mp (List.mem_of_mem_take hr) with rfl | hold
    · omega
    · have hbelow := (List.pairwise_cons.mp h.decreasing).1 _ (List.mem_map_of_mem hold)
      omega

/-! ## One entry of the payment loop -/

/-- The sum of the balances of all loaded miners. -/
def heldBalances (e : Engine) : ℚ := (e.store.miners.entries.map fun entry => entry.2.balance).sum

theorem heldBalances_modifyMiner {e : Engine} {id : MinerId} {m : Miner}
    (h : e.miner? id = some m) (f : Miner → Miner) :
    (e.modifyMiner id f).heldBalances = e.heldBalances - m.balance + (f m).balance := by
  have hget : e.store.miners.get? id = some m := h
  rw [heldBalances, modifyMiner, MinerStore.modify_of_some hget,
    OrdMap.sum_map_set (fun m : Miner => m.balance), hget]
  rfl

section Entry

variable (reward totalWork : ℚ) (acc : PayAcc) (entry : MinerId × ℚ)

/-- An entry is skipped, or pays the miner loaded under its key. -/
theorem payMiner_cases :
    payMiner reward totalWork acc entry = { acc with engine := acc.engine.setWork entry.1 0 }
      ∨ ∃ m, acc.engine.miner? entry.1 = some m
        ∧ payMiner reward totalWork acc entry
          = payReward acc entry.1 m entry.2 (entry.2 / totalWork)
              (reward * (entry.2 / totalWork)) := by
  cases hp : acc.engine.payable entry with
  | false => exact Or.inl (payMiner_of_not_payable hp)
  | true =>
      obtain ⟨hsome, hpos⟩ := Bool.and_eq_true_iff.mp hp
      obtain ⟨m, hm⟩ := Option.isSome_iff_exists.mp hsome
      exact Or.inr ⟨m, hm, payMiner_of_payable hm (of_decide_eq_true hpos)⟩

/-- Every visited entry of the round is set to zero. -/
theorem payMiner_roundWork :
    (payMiner reward totalWork acc entry).engine.roundWork
      = acc.engine.roundWork.set entry.1 0 := by
  rcases payMiner_cases reward totalWork acc entry with heq | ⟨m, -, heq⟩
  · rw [heq]
    rfl
  · rw [heq]
    rfl

theorem payMiner_history :
    (payMiner reward totalWork acc entry).engine.blockHistory = acc.engine.blockHistory
      ∧ (payMiner reward totalWork acc entry).engine.blockNumber = acc.engine.blockNumber := by
  rcases payMiner_cases reward totalWork acc entry with heq | ⟨m, -, heq⟩
  · rw [heq]
    exact ⟨rfl, rfl⟩
  · rw [heq]
    exact ⟨rfl, rfl⟩

/-- The balances grow by the reward that is put on the list. -/
theorem payMiner_heldBalances :
    (payMiner reward totalWork acc entry).engine.heldBalances
        - ((payMiner reward totalWork acc entry).minerRewards.map (·.rewardAmount)).sum
      = acc.engine.heldBalances - (acc.minerRewards.map (·.rewardAmount)).sum := by
  rcases payMiner_cases reward totalWork acc entry with heq | ⟨m, hm, heq⟩
  · rw [heq]
    rfl
  · have hheld := heldBalances_modifyMiner hm (rewarded (reward * (entry.2 / totalWork)))
    have hsame : (payReward acc entry.1 m entry.2 (entry.2 / totalWork)
          (reward * (entry.2 / totalWork))).engine.heldBalances
        = (acc.engine.modifyMiner entry.1
            (rewarded (reward * (entry.2 / totalWork)))).heldBalances := rfl
    rw [heq, hsame, hheld]
    simp only [payReward, rewarded, rewardEntry, List.map_append, List.map_cons, List.map_nil,
      List.sum_append, List.sum_singleton]
    ring

end Entry

/-! ## The loop -/

section Loop

variable (reward totalWork : ℚ)

theorem payLoop_roundWork :
    ∀ (entries : List (MinerId × ℚ)) (acc : PayAcc),
      (entries.foldl (payMiner reward totalWork) acc).engine.roundWork
        = entries.foldl (fun m entry => m.set entry.1 0) acc.engine.roundWork
  | [], _ => rfl
  | entry :: entries, acc => by
      rw [List.foldl_cons, List.foldl_cons, payLoop_roundWork entries, payMiner_roundWork]

theorem payLoop_history :
    ∀ (entries : List (MinerId × ℚ)) (acc : PayAcc),
      (entries.foldl (payMiner reward totalWork) acc).engine.blockHistory
          = acc.engine.blockHistory
        ∧ (entries.foldl (payMiner reward totalWork) acc).engine.blockNumber
          = acc.engine.blockNumber
  | [], _ => ⟨rfl, rfl⟩
  | entry :: entries, acc => by
      obtain ⟨hhist, hnum⟩ := payLoop_history entries (payMiner reward totalWork acc entry)
      obtain ⟨hhist', hnum'⟩ := payMiner_history reward totalWork acc entry
      exact ⟨hhist.trans hhist', hnum.trans hnum'⟩

theorem payLoop_heldBalances :
    ∀ (entries : List (MinerId × ℚ)) (acc : PayAcc),
      (entries.foldl (payMiner reward totalWork) acc).engine.heldBalances
          - ((entries.foldl (payMiner reward totalWork) acc).minerRewards.map
              (·.rewardAmount)).sum
        = acc.engine.heldBalances - (acc.minerRewards.map (·.rewardAmount)).sum
  | [], _ => rfl
  | entry :: entries, acc => by
      rw [List.foldl_cons, payLoop_heldBalances entries, payMiner_heldBalances]

end Loop

/-- The zero-work branch clears the round and touches nothing else. -/
theorem clearLoop_eq :
    ∀ (entries : List (MinerId × ℚ)) (e : Engine),
      entries.foldl (fun e entry => e.setWork entry.1 0) e
        = { e with roundWork := entries.foldl (fun m entry => m.set entry.1 0) e.roundWork }
  | [], _ => rfl
  | entry :: entries, e => by
      rw [List.foldl_cons, List.foldl_cons, clearLoop_eq entries]
      rfl

/-! ## What is on the list -/

theorem paidTo_eq_sumAt (id : MinerId) :
    ∀ rewards : List MinerReward,
      paidTo rewards id = sumAt (rewards.map fun r => (r.minerId, r.rewardAmount)) id
  | [] => rfl
  | r :: rewards => by
      have ih := paidTo_eq_sumAt id rewards
      unfold paidTo at ih ⊢
      rw [List.map_cons, List.filter_cons, sumAt_cons]
      by_cases h : r.minerId = id
      · rw [if_pos (decide_eq_true h), if_pos h, List.map_cons, List.sum_cons, ih]
      · rw [if_neg (by simpa using h), if_neg h, zero_add, ih]

/-- A miner has at most one entry, so its share is that of its entry. -/
theorem sumAt_payable (e : Engine) (reward totalWork : ℚ) (id : MinerId) :
    ∀ entries : List (MinerId × ℚ), (entries.map Prod.fst).Nodup →
      sumAt ((entries.filter e.payable).map (rewardShare reward totalWork)) id
        = if e.payable (id, (entries.lookup id).getD 0) = true then
            reward * ((entries.lookup id).getD 0 / totalWork)
          else 0
  | [], _ => by simp [payable]
  | entry :: entries, hnd => by
      rw [List.map_cons, List.nodup_cons] at hnd
      have ih := sumAt_payable e reward totalWork id entries hnd.2
      rw [OrdMap.lookup_cons_ite]
      by_cases hid : id = entry.1
      · have hnone : entries.lookup id = none := OrdMap.lookup_of_not_mem (hid ▸ hnd.1)
        have hrest : sumAt ((entries.filter e.payable).map (rewardShare reward totalWork)) id
            = 0 := by
          rw [ih, hnone]
          simp [payable]
        rw [if_pos hid, Option.getD_some, hid, List.filter_cons]
        rw [hid] at hrest
        cases hpay : e.payable entry with
        | false => rw [if_neg (by simp), hrest, if_neg (by simp)]
        | true =>
            rw [if_pos rfl, if_pos (by simp), List.map_cons, sumAt_cons, hrest, add_zero]
            exact if_pos rfl
      · rw [if_neg hid, List.filter_cons, ← ih]
        cases hpay : e.payable entry with
        | false => rw [if_neg (by simp)]
        | true =>
            have hne : (rewardShare reward totalWork entry).1 ≠ id := Ne.symm hid
            rw [if_pos rfl, List.map_cons, sumAt_cons, if_neg hne, zero_add]

/-- The shares of all paid entries. -/
theorem sum_rewardShare (reward totalWork : ℚ) :
    ∀ entries : List (MinerId × ℚ),
      ((entries.map (rewardShare reward totalWork)).map Prod.snd).sum
        = reward * ((entries.map Prod.snd).sum / totalWork)
  | [] => by simp
  | entry :: entries => by
      rw [List.map_cons, List.map_cons, List.sum_cons, sum_rewardShare reward totalWork entries,
        List.map_cons, List.sum_cons, rewardShare]
      ring

/-- The work that is paid is part of the round's work. -/
theorem sum_payable_le (e : Engine) :
    ∀ entries : List (MinerId × ℚ), (∀ entry ∈ entries, 0 ≤ entry.2) →
      ((entries.filter e.payable).map Prod.snd).sum ≤ (entries.map Prod.snd).sum
  | [], _ => le_refl _
  | entry :: entries, hpos => by
      have ih := sum_payable_le e entries fun x hx => hpos x (List.mem_cons_of_mem _ hx)
      have hentry := hpos entry (List.mem_cons_self ..)
      rw [List.filter_cons, List.map_cons, List.sum_cons]
      cases e.payable entry with
      | false =>
          rw [if_neg (by simp)]
          linarith
      | true =>
          rw [if_pos rfl, List.map_cons, List.sum_cons]
          linarith

/-- If all positive work belongs to loaded miners, all of it is paid. -/
theorem sum_payable_eq (e : Engine) :
    ∀ entries : List (MinerId × ℚ),
      (∀ entry ∈ entries, 0 ≤ entry.2 ∧ (0 < entry.2 → (e.miner? entry.1).isSome)) →
      ((entries.filter e.payable).map Prod.snd).sum = (entries.map Prod.snd).sum
  | [], _ => rfl
  | entry :: entries, hall => by
      have ih := sum_payable_eq e entries fun x hx => hall x (List.mem_cons_of_mem _ hx)
      obtain ⟨hnonneg, hloaded⟩ := hall entry (List.mem_cons_self ..)
      rw [List.filter_cons, List.map_cons, List.sum_cons]
      rcases hnonneg.eq_or_lt with hzero | hpos
      · have hpay : e.payable entry = false := by simp [payable, ← hzero]
        rw [hpay, if_neg (by simp), ih, ← hzero, zero_add]
      · have hpay : e.payable entry = true := by simp [payable, hloaded hpos, hpos]
        rw [hpay, if_pos rfl, List.map_cons, List.sum_cons, ih]

/-! ## Distribution -/

/-- Closing a block whose round has work, `rewards` being the list handed to
the persist callback. -/
structure SharedOut (e e' : Engine) (rewards : List MinerReward) : Prop where
  paid : ∀ id m, e.miner? id = some m → 0 < e.workOf id →
    e'.ledger? id = some (m.ledger.plus (rewardBase * e.workOf id / e.totalWork))
  unpaid : ∀ id m, e.miner? id = some m → ¬ 0 < e.workOf id → e'.ledger? id = some m.ledger
  balances : e'.heldBalances - e.heldBalances = e'.totalMinted - e.totalMinted
  handed : (rewards.map (·.rewardAmount)).sum = e'.totalMinted - e.totalMinted
  full : (∀ id, 0 < e.workOf id → (e.miner? id).isSome) →
    e'.totalMinted - e.totalMinted = rewardBase
  bounded : e'.totalMinted - e.totalMinted ≤ rewardBase

/-- What every distribution leaves behind. -/
structure Closed (e e' : Engine) : Prop where
  cleared : ∀ id work, e'.roundWork.get? id = some work → work = 0
  numbered : e'.blockNumber = e.blockNumber + 1
  history_le : e'.blockHistory.length ≤ 12
  history : e.HistorySound → e'.HistorySound

/-- After the loop over all entries, every entry of the round is zero. -/
theorem cleared_of_roundWork {e e' : Engine}
    (h : e'.roundWork = e.roundWork.entries.foldl (fun m entry => m.set entry.1 0) e.roundWork)
    {id : MinerId} {work : ℚ} (hget : e'.roundWork.get? id = some work) : work = 0 := by
  rw [h, OrdMap.get?_foldl_set] at hget
  split at hget
  case isTrue => exact (Option.some.inj hget).symm
  case isFalse hnot =>
    have hentry := OrdMap.mem_entries.mpr hget
    exact absurd (List.mem_map_of_mem (f := Prod.fst) hentry) hnot

theorem workOf_of_mem {e : Engine} {entry : MinerId × ℚ} (h : entry ∈ e.roundWork.entries) :
    e.workOf entry.1 = entry.2 := by
  rw [workOf, OrdMap.mem_entries.mp h, Option.getD_some]

section Distribute

variable (e : Engine) (now : Nat)

theorem distributeRewards_closed : Closed e (e.distributeRewards now).1 := by
  unfold distributeRewards
  by_cases hwork : e.totalWork ≤ 0
  · simp only [if_pos hwork, clearLoop_eq]
    refine ⟨fun id work hget => cleared_of_roundWork (e := e) rfl hget, rfl, ?_, fun h => ?_⟩
    · exact (List.length_take_le ..)
    · exact h.closed rfl rfl rfl
  · obtain ⟨hhist, hnum⟩ :=
      payLoop_history rewardBase e.totalWork e.roundWork.entries ⟨e, [], .empty, .empty⟩
    have hround :=
      payLoop_roundWork rewardBase e.totalWork e.roundWork.entries ⟨e, [], .empty, .empty⟩
    simp only [if_neg hwork]
    refine ⟨fun id work hget => cleared_of_roundWork hround hget, ?_, ?_, fun h => ?_⟩
    · exact congrArg (· + 1) hnum
    · exact (List.length_take_le ..)
    · exact h.closed (congrArg (fun hist => List.take 12 (_ :: hist)) hhist) rfl
        (congrArg (· + 1) hnum)

/-- The payment loop of a round with work, in the state it leaves behind. -/
theorem payLoop_sharedOut (hnonneg : ∀ entry ∈ e.roundWork.entries, 0 ≤ entry.2)
    (hwork : 0 < e.totalWork) {acc : PayAcc}
    (hacc : e.roundWork.entries.foldl (payMiner rewardBase e.totalWork)
      ⟨e, [], .empty, .empty⟩ = acc) :
    SharedOut e acc.engine acc.minerRewards := by
  have hbase : (0 : ℚ) < rewardBase := by norm_num [rewardBase]
  obtain ⟨hpaid, hlist⟩ := payLoop_paid hbase hwork e.roundWork.entries
    ⟨e, [], .empty, .empty⟩ (Paid.refl e)
  have hheld := payLoop_heldBalances rewardBase e.totalWork e.roundWork.entries
    ⟨e, [], .empty, .empty⟩
  rw [hacc] at hpaid hlist hheld
  simp only [List.map_nil, List.nil_append, List.sum_nil, sub_zero] at hlist hheld
  -- what a miner receives, read off the list
  have hshare : ∀ id, paidTo acc.minerRewards id
      = if e.payable (id, e.workOf id) = true then rewardBase * (e.workOf id / e.totalWork)
        else 0 := by
    intro id
    rw [paidTo_eq_sumAt, hlist, sumAt_payable _ _ _ _ _ e.roundWork.nodup]
    rfl
  -- what all of them receive
  have hsum : (acc.minerRewards.map (·.rewardAmount)).sum
      = rewardBase * (((e.roundWork.entries.filter e.payable).map Prod.snd).sum / e.totalWork) := by
    rw [← sum_rewardShare, ← hlist, List.map_map]
    rfl
  have hminted : acc.engine.totalMinted - e.totalMinted
      = (acc.minerRewards.map (·.rewardAmount)).sum := by
    rw [hpaid.minted]
    ring
  refine ⟨fun id m hm hpos => ?_, fun id m hm hnot => ?_, ?_, hminted.symm, fun hloaded => ?_, ?_⟩
  · have hpay : e.payable (id, e.workOf id) = true := by simp [payable, hm, hpos]
    rw [hpaid.rows, ledger?, hm, hshare, if_pos hpay, mul_div_assoc]
    rfl
  · have hpay : ¬ e.payable (id, e.workOf id) = true := by simpa [payable, hm] using hnot
    rw [hpaid.rows, ledger?, hm, hshare, if_neg hpay]
    simp
  · rw [hminted]
    linarith
  · rw [hminted, hsum, sum_payable_eq e _ fun entry hentry => ⟨hnonneg entry hentry, fun hpos =>
      hloaded entry.1 (workOf_of_mem hentry ▸ hpos)⟩]
    show rewardBase * (e.totalWork / e.totalWork) = rewardBase
    rw [div_self hwork.ne', mul_one]
  · rw [hminted, hsum]
    have hle := sum_payable_le e _ hnonneg
    have hfrac := div_le_one_of_le₀ hle hwork.le
    calc rewardBase * (((e.roundWork.entries.filter e.payable).map Prod.snd).sum / e.totalWork)
        ≤ rewardBase * 1 := mul_le_mul_of_nonneg_left hfrac hbase.le
      _ = rewardBase := mul_one _

theorem distributeRewards_sharedOut (hnonneg : ∀ entry ∈ e.roundWork.entries, 0 ≤ entry.2)
    (hwork : 0 < e.totalWork) :
    SharedOut e (e.distributeRewards now).1 (rewardsOf (e.distributeRewards now).2) := by
  obtain ⟨acc, hacc⟩ : ∃ acc, e.roundWork.entries.foldl (payMiner rewardBase e.totalWork)
    ⟨e, [], .empty, .empty⟩ = acc := ⟨_, rfl⟩
  have hshared := payLoop_sharedOut e hnonneg hwork hacc
  have hrewards : rewardsOf (e.distributeRewards now).2 = acc.minerRewards := by
    unfold distributeRewards
    simp only [if_neg (not_le.mpr hwork), hacc]
    split
    case isTrue hnil => exact hnil.symm
    case isFalse => rfl
  have hengine : ∀ id, (e.distributeRewards now).1.ledger? id = acc.engine.ledger? id := by
    intro id
    unfold distributeRewards
    simp only [if_neg (not_le.mpr hwork), hacc]
    rfl
  have hheld : (e.distributeRewards now).1.heldBalances = acc.engine.heldBalances := by
    unfold distributeRewards
    simp only [if_neg (not_le.mpr hwork), hacc]
    rfl
  have hminted : (e.distributeRewards now).1.totalMinted = acc.engine.totalMinted := by
    unfold distributeRewards
    simp only [if_neg (not_le.mpr hwork), hacc]
    rfl
  rw [hrewards]
  refine ⟨fun id m hm hpos => ?_, fun id m hm hnot => ?_, ?_, ?_, fun h => ?_, ?_⟩
  · rw [hengine]
    exact hshared.paid id m hm hpos
  · rw [hengine]
    exact hshared.unpaid id m hm hnot
  · rw [hheld, hminted]
    exact hshared.balances
  · rw [hminted]
    exact hshared.handed
  · rw [hminted]
    exact hshared.full h
  · rw [hminted]
    exact hshared.bounded

/-- Without work nothing is paid and nothing is minted. -/
theorem distributeRewards_idle (hwork : ¬ 0 < e.totalWork) :
    (∀ id, (e.distributeRewards now).1.miner? id = e.miner? id)
      ∧ (e.distributeRewards now).1.totalMinted = e.totalMinted
      ∧ rewardsOf (e.distributeRewards now).2 = [] := by
  unfold distributeRewards
  simp only [if_pos (not_lt.mp hwork), clearLoop_eq]
  exact ⟨fun _ => rfl, rfl, rfl⟩

end Distribute

/-! ## The methods of the engine -/

/-- The methods that change an engine, and the handler of a rejected persist
callback. -/
inductive Method where
  | createOrGetMiner (uuid : MinerId) (req : JoinRequest)
  | reloadMinerProfile (userId : UserId) (profile : Option Profile)
  | setConnected (minerId : MinerId) (connected : Bool)
  | setActive (minerId : MinerId) (active : Bool)
  | setWallet (minerId : MinerId) (walletAddress : Option String)
  | applyBoost (minerId : MinerId) (now : Nat)
  | upgradeRig (minerId : MinerId)
  | applyUserBalanceDelta (runtimeSet : Bool) (userId : UserId) (delta : ℚ)
  | markPersisted (minerId : MinerId)
  | distributeRewards (now : Nat)
  | tick (now : Nat)
  | rollbackBlock (pending : PendingBlock)

def callMethod (e : Engine) : Method → Option Engine
  | .createOrGetMiner uuid req => e.createOrGetMiner uuid req
  | .reloadMinerProfile userId profile => some (e.reloadMinerProfile userId profile)
  | .setConnected minerId connected => some (e.setConnected minerId connected)
  | .setActive minerId active => some (e.setActive minerId active)
  | .setWallet minerId walletAddress => some (e.setWallet minerId walletAddress)
  | .applyBoost minerId now => some (e.applyBoost minerId now).1
  | .upgradeRig minerId => some (e.upgradeRig minerId).1
  | .applyUserBalanceDelta runtimeSet userId delta =>
      some (Engine.applyUserBalanceDelta runtimeSet e userId delta)
  | .markPersisted minerId => some (e.markPersisted minerId)
  | .distributeRewards now => some (e.distributeRewards now).1
  | .tick now => some (e.tick now).1
  | .rollbackBlock pending => some (e.rollbackBlock pending)

def methods : System Engine Method := ⟨callMethod⟩

theorem new_historySound (now : Nat) : (new now).HistorySound where
  length_le := Nat.zero_le _
  decreasing := List.pairwise_singleton ..

theorem accumulateLoop_history (now : Nat) :
    ∀ (entries : List (MinerId × Miner)) (acc : TickAcc),
      (entries.foldl (accumulateMiner now) acc).engine.blockNumber = acc.engine.blockNumber
        ∧ (entries.foldl (accumulateMiner now) acc).engine.blockHistory
          = acc.engine.blockHistory
  | [], _ => ⟨rfl, rfl⟩
  | entry :: entries, acc => by
      obtain ⟨hnum, hist⟩ := accumulateLoop_history now entries (accumulateMiner now acc entry)
      refine ⟨hnum.trans ?_, hist.trans ?_⟩
      · unfold accumulateMiner
        cases hmode : (expireBoost now entry.2).miningPayoutMode <;> simp only [hmode] <;> rfl
      · unfold accumulateMiner
        cases hmode : (expireBoost now entry.2).miningPayoutMode <;> simp only [hmode] <;> rfl

theorem tick_historySound {e : Engine} (h : e.HistorySound) (now : Nat) :
    (e.tick now).1.HistorySound := by
  obtain ⟨hnum, hist⟩ := accumulateLoop_history now e.store.miners.entries ⟨e, 0, 0⟩
  have hacc : (e.accumulateWork now).HistorySound := h.congr hnum hist
  unfold tick
  by_cases hdue : (e.accumulateWork now).nextBlockAt ≤ now
  · simp only [if_pos hdue]
    exact ((distributeRewards_closed _ now).history hacc).congr rfl rfl
  · simp only [if_neg hdue]
    exact hacc.congr rfl rfl

theorem rollbackLoop_history (payload : BlockPayload) :
    ∀ (entries : List (MinerId × Snapshot)) (e : Engine), e.HistorySound →
      (entries.foldl (rollbackMiner payload) e).HistorySound
  | [], _, h => h
  | entry :: entries, e, h => by
      refine rollbackLoop_history payload entries _ ?_
      obtain ⟨minerId, snapshot⟩ := entry
      simp only [rollbackMiner]
      split
      case h_1 => exact h.congr rfl rfl
      case h_2 => exact h

theorem callMethod_historySound (e : Engine) (m : Method) (e' : Engine) (h : e.HistorySound)
    (hstep : callMethod e m = some e') : e'.HistorySound := by
  cases m with
  | createOrGetMiner uuid req =>
      unfold callMethod createOrGetMiner at hstep
      cases hfind : e.findMinerByUserId req.userId with
      | some existing =>
          simp only [hfind] at hstep
          obtain rfl := Option.some.inj hstep
          exact h.congr rfl rfl
      | none =>
          simp only [hfind] at hstep
          split at hstep
          case isTrue =>
            obtain rfl := Option.some.inj hstep
            exact h.congr rfl rfl
          case isFalse => cases hstep
  | reloadMinerProfile userId profile =>
      obtain rfl := Option.some.inj hstep
      rcases reloadMinerProfile_cases e userId profile with heq | ⟨p, m, -, -, heq⟩
      · rwa [heq]
      · rw [heq]
        exact h.congr rfl rfl
  | setConnected | setActive | setWallet | markPersisted =>
      obtain rfl := Option.some.inj hstep
      exact h.congr rfl rfl
  | applyBoost minerId now =>
      obtain rfl := Option.some.inj hstep
      rcases applyBoost_cases e minerId now with ⟨heq, -⟩ | ⟨m, -, heq, -⟩
      · rwa [heq]
      · rw [heq]
        exact h.congr rfl rfl
  | upgradeRig minerId =>
      obtain rfl := Option.some.inj hstep
      rcases upgradeRig_cases e minerId with ⟨heq, -⟩ | ⟨m, -, heq, -⟩
      · rwa [heq]
      · rw [heq]
        exact h.congr rfl rfl
  | applyUserBalanceDelta runtimeSet userId delta =>
      obtain rfl := Option.some.inj hstep
      rcases applyUserBalanceDelta_cases runtimeSet e userId delta with
        ⟨heq, -⟩ | ⟨m, -, -, -, heq⟩
      · rwa [heq]
      · rw [heq]
        exact h.congr rfl rfl
  | distributeRewards now =>
      obtain rfl := Option.some.inj hstep
      exact (distributeRewards_closed e now).history h
  | tick now =>
      obtain rfl := Option.some.inj hstep
      exact tick_historySound h now
  | rollbackBlock pending =>
      obtain rfl := Option.some.inj hstep
      exact rollbackLoop_history pending.payload pending.balanceSnapshot.entries e h

/-- Every state an engine can get into has a sound history. -/
theorem methods_historySound {start : Nat} {calls : List Method} {e : Engine}
    (hrun : methods.run (new start) calls = some e) : e.HistorySound :=
  methods.run_kept callMethod_historySound (new_historySound start) hrun

/-- **A block shares out its reward.** From any state, with any non-negative
round work: a round with work pays every loaded miner in proportion and mints
exactly what it pays, a round without work pays nothing, and both close the
block. The history, which every reachable state has in order, stays in order. -/
theorem distributeRewards_conserves :
    (∀ (start : Nat) (calls : List Method) (e : Engine),
        methods.run (new start) calls = some e → e.HistorySound)
      ∧ ∀ (e : Engine) (now : Nat), (∀ entry ∈ e.roundWork.entries, 0 ≤ entry.2) →
        (0 < e.totalWork →
            SharedOut e (e.distributeRewards now).1 (rewardsOf (e.distributeRewards now).2))
          ∧ (e.totalWork = 0 →
            (∀ id, (e.distributeRewards now).1.miner? id = e.miner? id)
              ∧ (e.distributeRewards now).1.totalMinted = e.totalMinted)
          ∧ Closed e (e.distributeRewards now).1 := by
  refine ⟨fun start calls e hrun => methods_historySound hrun, fun e now hnonneg => ?_⟩
  refine ⟨fun hwork => ?_, fun hidle => ?_, distributeRewards_closed e now⟩
  · exact distributeRewards_sharedOut e now hnonneg hwork
  · obtain ⟨hminers, hminted, -⟩ := distributeRewards_idle e now (by rw [hidle]; exact lt_irrefl 0)
    exact ⟨hminers, hminted⟩

/-- Two joined miners with 100 and 300 units of work. -/
theorem distributeRewards_conserves_twoMiners :
    ∃ e : Engine,
      methods.run (new 0)
          [.createOrGetMiner 1 ⟨101, some "alpha", none, some { baseHashRate := some 10 }⟩,
            .createOrGetMiner 2 ⟨202, some "beta", none, some { baseHashRate := some 20 }⟩]
          = some e
        ∧ SharedOut ((e.setWork 1 100).setWork 2 300)
            (((e.setWork 1 100).setWork 2 300).distributeRewards 0).1
            (rewardsOf (((e.setWork 1 100).setWork 2 300).distributeRewards 0).2) := by
  have hrun : (methods.run (new 0)
      [.createOrGetMiner 1 ⟨101, some "alpha", none, some { baseHashRate := some 10 }⟩,
        .createOrGetMiner 2 ⟨202, some "beta", none,
          some { baseHashRate := some 20 }⟩]).isSome := by decide +kernel
  exact ⟨_, (Option.some_get hrun).symm,
    (distributeRewards_conserves.2 _ 0 (by decide +kernel +revert)).1 (by decide +kernel +revert)⟩

end Engine

end BlockMiner
