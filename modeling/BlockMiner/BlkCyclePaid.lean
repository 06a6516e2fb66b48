import BlockMiner.BlkCycle
import BlockMiner.Units
import Mathlib.Algebra.Order.BigOperators.Group.List
import Mathlib.Tactic.FieldSimp

/-!
# A window is paid once, and in full

The planning loop works on multiples of 10⁻⁸, so it is followed in whole
units. Each share is floored after a tolerance of 10⁻¹² of a unit is added,
so `i` shares take at most `i` tolerances more than their users are entitled
to, and what is left for the others is at least their entitlement less that
(`rest_bound`). With fewer than 10¹² entries this is more than -1, and being
a whole number it is not negative: the remainder the loop carries is never
cut off at zero, and the last entry gets exactly what is missing.

The second half is about runs: cycles are only created under the unique
window start, with all their payments, so each keeps the credits it was
planned with (`Balanced`).
-/

namespace BlockMiner.BlkCycle

/-! ## Whole units -/

/-- Whole units are not changed by `floor8`. -/
theorem floor8_units {m : ℤ} (hm : 0 ≤ m) : floor8 (units m) = units m := by
  rcases hm.eq_or_lt with rfl | hpos
  · simp [floor8, units]
  · have hfloor : ⌊units m * 10 ^ 8 + FLOOR_EPS⌋ = m := by
      rw [Int.floor_eq_iff]
      unfold units FLOOR_EPS
      constructor
      · linarith
      · linarith
    rw [floor8, if_pos (units_pos.mpr hpos), hfloor]
    rfl

/-- The number of units in a floored share. -/
def shareUnits (k : ℤ) (total : ℚ) (e : Entry) : ℤ := ⌊k * (e.hashrate / total) + FLOOR_EPS⌋

theorem idealShare_units {k : ℤ} {total : ℚ} {e : Entry} (hk : 0 < k) (htotal : 0 < total)
    (he : 0 < e.hashrate) : idealShare (units k) total e = units (shareUnits k total e) := by
  have hpos : 0 < units k * (e.hashrate / total) :=
    mul_pos (units_pos.mpr hk) (div_pos he htotal)
  have hscale : units k * (e.hashrate / total) * 10 ^ 8 = k * (e.hashrate / total) := by
    unfold units
    field_simp
  rw [idealShare, floor8, if_pos hpos, hscale]
  rfl

/-- What is left after a share covers the other entries up to one more
tolerance. -/
theorem rest_bound {k m : ℤ} {total rest i : ℚ} {e : Entry}
    (h : k * ((e.hashrate + rest) / total) - i * FLOOR_EPS ≤ m) :
    k * (rest / total) - (i + 1) * FLOOR_EPS ≤ (m - shareUnits k total e : ℤ) := by
  have hfloor : (shareUnits k total e : ℚ) ≤ k * (e.hashrate / total) + FLOOR_EPS :=
    Int.floor_le _
  rw [add_div, mul_add] at h
  push_cast
  linarith

/-- A whole number that falls short of a share by less than a unit. -/
theorem rest_nonneg {k m : ℤ} {total rest i : ℚ} (hk : 0 < k) (htotal : 0 < total)
    (hrest : 0 < rest) (hi : i * FLOOR_EPS ≤ 1) (h : k * (rest / total) - i * FLOOR_EPS ≤ m) :
    0 ≤ m := by
  have hpos : (0 : ℚ) < k * (rest / total) :=
    mul_pos (by exact_mod_cast hk) (div_pos hrest htotal)
  have hgt : (-1 : ℚ) < m := by linarith
  have hgt' : (-1 : ℤ) < m := by exact_mod_cast hgt
  omega

/-! ## The planning loop -/

/-- A payment as user and amount. -/
def Planned.credit (p : Planned) : ℕ × ℚ := (p.userId, p.amount)

def BlkRewardLog.credit (l : BlkRewardLog) : ℕ × ℚ := (l.userId, l.amount)

/-- The values of `remaining - amount` the loop passes through, as they are
before `floor8` could cut them off. -/
def runningRemainders (totalReward total : ℚ) : List Entry → ℚ → List ℚ
  | e :: e' :: entries, remaining =>
      let left := remaining - idealShare totalReward total e
      left :: runningRemainders totalReward total (e' :: entries) (floor8 left)
  | _, _ => []

/-- Skipping an amount of zero does not change what anyone is paid. -/
theorem pushPlanned_sum {total amount : ℚ} {e : Entry} (h : 0 ≤ amount) (planned : List Planned) :
    ((pushPlanned total e amount planned).map (·.amount)).sum
      = amount + (planned.map (·.amount)).sum := by
  unfold pushPlanned
  split
  case isTrue hle => rw [le_antisymm hle h, zero_add]
  case isFalse => rw [List.map_cons, List.sum_cons]

theorem pushPlanned_sumAt {total amount : ℚ} {e : Entry} (h : 0 ≤ amount)
    (planned : List Planned) (userId : ℕ) :
    sumAt ((pushPlanned total e amount planned).map Planned.credit) userId
      = (if e.userId = userId then amount else 0)
        + sumAt (planned.map Planned.credit) userId := by
  unfold pushPlanned
  split
  case isTrue hle => rw [le_antisymm hle h, ite_self, zero_add]
  case isFalse =>
    rw [List.map_cons, sumAt_cons]
    rfl

/-- What a planned payment says about its entry. -/
theorem mem_pushPlanned {total amount : ℚ} {e : Entry} {planned : List Planned} {p : Planned}
    (h : p ∈ pushPlanned total e amount planned) :
    (p.userId = e.userId ∧ p.hashrate = e.hashrate ∧ 0 < p.amount) ∨ p ∈ planned := by
  unfold pushPlanned at h
  split at h
  case isTrue => exact Or.inr h
  case isFalse hpos =>
    rcases List.mem_cons.mp h with rfl | hold
    · exact Or.inl ⟨rfl, rfl, not_le.mp hpos⟩
    · exact Or.inr hold

theorem pushPlanned_userIds (total amount : ℚ) (e : Entry) (planned : List Planned) :
    ((pushPlanned total e amount planned).map (·.userId)).Sublist
      (e.userId :: planned.map (·.userId)) := by
  unfold pushPlanned
  split
  · exact List.sublist_cons_self ..
  · exact List.Sublist.refl _

section Loop

variable (totalReward total : ℚ)

/-- Payments are positive, and go to entries. -/
theorem mem_planLoop :
    ∀ (entries : List Entry) (remaining : ℚ), ∀ p ∈ planLoop totalReward total entries remaining,
      0 < p.amount ∧ ∃ e ∈ entries, p.userId = e.userId ∧ p.hashrate = e.hashrate
  | [], _, p, hp => by cases hp
  | [e], remaining, p, hp => by
      rcases mem_pushPlanned hp with ⟨hu, hh, hpos⟩ | hnil
      · exact ⟨hpos, e, List.mem_singleton_self e, hu, hh⟩
      · cases hnil
  | e :: e' :: entries, remaining, p, hp => by
      rcases mem_pushPlanned hp with ⟨hu, hh, hpos⟩ | hrest
      · exact ⟨hpos, e, List.mem_cons_self .., hu, hh⟩
      · obtain ⟨hpos, x, hx, hxp⟩ := mem_planLoop (e' :: entries) _ p hrest
        exact ⟨hpos, x, List.mem_cons_of_mem e hx, hxp⟩

/-- At most one payment for each entry, in the order of the entries. -/
theorem planLoop_userIds :
    ∀ (entries : List Entry) (remaining : ℚ),
      ((planLoop totalReward total entries remaining).map (·.userId)).Sublist
        (entries.map (·.userId))
  | [], _ => List.Sublist.refl _
  | [_], _ => pushPlanned_userIds ..
  | e :: e' :: entries, _ =>
      (pushPlanned_userIds ..).trans ((planLoop_userIds (e' :: entries) _).cons_cons e.userId)

end Loop

theorem sumAt_planLoop_of_not_mem {totalReward total remaining : ℚ} {entries : List Entry}
    {userId : ℕ} (h : userId ∉ entries.map (·.userId)) :
    sumAt ((planLoop totalReward total entries remaining).map Planned.credit) userId = 0 := by
  refine sumAt_of_not_mem fun hmem => h ?_
  rw [List.map_map] at hmem
  exact (planLoop_userIds totalReward total entries remaining).subset hmem

theorem idealShare_nonneg (totalReward total : ℚ) (e : Entry) :
    0 ≤ idealShare totalReward total e := by
  unfold idealShare floor8
  split
  case isTrue hpos =>
    have hfloor : (0 : ℤ) ≤ ⌊totalReward * (e.hashrate / total) * 10 ^ 8 + FLOOR_EPS⌋ := by
      refine Int.floor_nonneg.mpr ?_
      unfold FLOOR_EPS
      positivity
    have hcast : (0 : ℚ) ≤ (⌊totalReward * (e.hashrate / total) * 10 ^ 8 + FLOOR_EPS⌋ : ℤ) := by
      exact_mod_cast hfloor
    positivity
  case isFalse => exact le_refl 0

/-- Everyone but the last is paid the floored share. -/
theorem planLoop_share (totalReward total : ℚ) :
    ∀ (entries : List Entry) (remaining : ℚ), (entries.map (·.userId)).Nodup →
      ∀ e ∈ entries.dropLast,
        sumAt ((planLoop totalReward total entries remaining).map Planned.credit) e.userId
          = idealShare totalReward total e
  | [], _, _, e, he => by cases he
  | [x], _, _, e, he => by cases he
  | x :: x' :: entries, remaining, hnd, e, he => by
      rw [List.map_cons, List.nodup_cons] at hnd
      rw [List.dropLast_cons_of_ne_nil (List.cons_ne_nil x' entries)] at he
      rw [planLoop, pushPlanned_sumAt (idealShare_nonneg ..)]
      rcases List.mem_cons.mp he with rfl | hrest
      · rw [if_pos rfl, sumAt_planLoop_of_not_mem hnd.1, add_zero]
      · have hmem : e.userId ∈ (x' :: entries).map (·.userId) :=
          List.mem_map_of_mem (List.mem_of_mem_dropLast hrest)
        have hne : x.userId ≠ e.userId := fun heq => hnd.1 (heq ▸ hmem)
        rw [if_neg hne, zero_add]
        exact planLoop_share totalReward total (x' :: entries) _ hnd.2 e hrest

/-- The loop from an entry on, with `i` shares already handed out and `m`
units left: everything left is handed out, and no remainder is negative. -/
theorem planLoop_total {k : ℤ} {total : ℚ} (hk : 0 < k) (htotal : 0 < total) :
    ∀ (entries : List Entry) (i : ℕ) (m : ℤ), entries ≠ [] → (∀ e ∈ entries, 0 < e.hashrate) →
      i + entries.length ≤ 10 ^ 12 → 0 ≤ m →
      k * (totalHr entries / total) - i * FLOOR_EPS ≤ m →
      ((planLoop (units k) total entries (units m)).map (·.amount)).sum = units m
        ∧ ∀ r ∈ runningRemainders (units k) total entries (units m), 0 ≤ r
  | [], _, _, hne, _, _, _, _ => absurd rfl hne
  | [e], _, m, _, _, _, hm, _ => by
      refine ⟨?_, fun r hr => by cases hr⟩
      rw [planLoop, floor8_units hm, pushPlanned_sum (units_nonneg hm)]
      simp
  | e :: e' :: entries, i, m, _, hpos, hlen, hm, hbound => by
      have he := hpos e (List.mem_cons_self ..)
      have hpos' : ∀ x ∈ e' :: entries, 0 < x.hashrate :=
        fun x hx => hpos x (List.mem_cons_of_mem e hx)
      have hrest : 0 < totalHr (e' :: entries) := by
        refine List.sum_pos _ (fun h hh => ?_) (by simp)
        obtain ⟨x, hx, rfl⟩ := List.mem_map.mp hh
        exact hpos' x hx
      have hsplit : totalHr (e :: e' :: entries) = e.hashrate + totalHr (e' :: entries) := rfl
      have hleft := rest_bound (hsplit ▸ hbound)
      have hi : ((i : ℚ) + 1) * FLOOR_EPS ≤ 1 := by
        have hle : i + 1 ≤ 10 ^ 12 := by
          rw [List.length_cons, List.length_cons] at hlen
          omega
        have hcast : ((i : ℚ) + 1) ≤ 10 ^ 12 := by exact_mod_cast hle
        unfold FLOOR_EPS
        linarith
      have hm' : 0 ≤ m - shareUnits k total e := rest_nonneg hk htotal hrest hi hleft
      obtain ⟨hsum, hrem⟩ := planLoop_total hk htotal (e' :: entries) (i + 1)
        (m - shareUnits k total e) (List.cons_ne_nil e' entries) hpos' (by
          rw [List.length_cons] at hlen
          omega) hm' (by
          push_cast
          exact_mod_cast hleft)
      have hshare := idealShare_units hk htotal he
      have hdiff : units m - idealShare (units k) total e = units (m - shareUnits k total e) := by
        rw [hshare, units_sub]
      refine ⟨?_, fun r hr => ?_⟩
      · rw [planLoop, pushPlanned_sum (idealShare_nonneg ..), hdiff, floor8_units hm', hsum,
          hshare, units_add]
        congr 1
        omega
      · rw [runningRemainders, hdiff, floor8_units hm'] at hr
        rcases List.mem_cons.mp hr with rfl | hlater
        · exact units_nonneg hm'
        · exact hrem r hlater

/-! ## The entries of a window -/

/-- The users in order, each once, with a positive hash rate. -/
structure GoodEntries (entries : List Entry) : Prop where
  sorted : entries.Pairwise (·.userId < ·.userId)
  positive : ∀ e ∈ entries, 0 < e.hashrate

theorem GoodEntries.nodup {entries : List Entry} (h : GoodEntries entries) :
    (entries.map (·.userId)).Nodup :=
  List.pairwise_map.mpr (h.sorted.imp fun hlt => hlt.ne)

instance : Std.Total fun a b : Entry => a.userId ≤ b.userId :=
  ⟨fun a b => Nat.le_total a.userId b.userId⟩

instance : IsTrans Entry fun a b => a.userId ≤ b.userId :=
  ⟨fun _ _ _ => Nat.le_trans⟩

theorem sortedEntries_good {userIds : List ℕ} (hnd : userIds.Nodup) (hashrate : ℕ → ℚ) {minHr : ℚ}
    (hmin : 0 ≤ minHr) : GoodEntries (sortedEntries userIds hashrate minHr) := by
  have hperm := List.perm_insertionSort (fun a b : Entry => a.userId ≤ b.userId)
    ((userIds.map fun userId => (⟨userId, hashrate userId⟩ : Entry)).filter
      fun e => minHr < e.hashrate)
  have hnodup : ((sortedEntries userIds hashrate minHr).map (·.userId)).Nodup := by
    refine (hperm.map _).nodup_iff.mpr ?_
    refine List.Nodup.sublist ((List.filter_sublist ..).map _) ?_
    rw [List.map_map]
    show (userIds.map fun userId => userId).Nodup
    rwa [List.map_id']
  refine ⟨?_, fun e he => ?_⟩
  · have hle := List.pairwise_insertionSort (fun a b : Entry => a.userId ≤ b.userId)
      ((userIds.map fun userId => (⟨userId, hashrate userId⟩ : Entry)).filter
        fun e => minHr < e.hashrate)
    exact (hle.and (List.pairwise_map.mp hnodup)).imp fun h => lt_of_le_of_ne h.1 h.2
  · have hmem := hperm.mem_iff.mp he
    exact hmin.trans_lt (of_decide_eq_true (List.mem_filter.mp hmem).2)

/-! ## What a cycle has paid -/

def creditsOf (db : Db) (cycleId : ℕ) : List BlkRewardLog :=
  db.logs.filter (·.cycleId = cycleId)

/-- A committed cycle and its rows in the log. -/
structure AsPlanned (cycleId : ℕ) (c : BlkRewardCycle) (credits : List BlkRewardLog) : Prop where
  reward : ∃ k, 0 < k ∧ c.totalReward = units k
  entries : GoodEntries c.entries
  nobody : c.entries = [] → credits = [] ∧ c.distributed = 0
  paid : c.entries ≠ [] → c.totalHashrate = totalHr c.entries
    ∧ credits = (plan c.totalReward c.entries).map (Planned.log cycleId)
    ∧ c.distributed = floor8 ((plan c.totalReward c.entries).map (·.amount)).sum

/-- Against the users the run started with. -/
structure Balanced (users : Table User) (db : Db) : Prop where
  unique : ∀ i j c d, db.cycles.row i = some c → db.cycles.row j = some d →
    c.windowStart = d.windowStart → i = j
  logged : ∀ l ∈ db.logs, ∃ c, db.cycles.row l.cycleId = some c
  planned : ∀ i c, db.cycles.row i = some c → AsPlanned i c (creditsOf db i)
  balances : ∀ u, (db.users.row u).map (·.blkBalance)
    = (users.row u).map fun r => r.blkBalance + sumAt (db.logs.map BlkRewardLog.credit) u

/-- The payment loop of the transaction, when it does not throw. -/
theorem payAll_eq_some {cycleId : ℕ} :
    ∀ (planned : List Planned) {db db' : Db}, payAll cycleId planned db = some db' →
      db'.cycles = db.cycles ∧ db'.logs = db.logs ++ planned.map (Planned.log cycleId)
        ∧ ∀ u, (db'.users.row u).map (·.blkBalance)
          = (db.users.row u).map fun r => r.blkBalance + sumAt (planned.map Planned.credit) u
  | [], db, db', h => by
      obtain rfl := Option.some.inj h
      simp
  | p :: planned, db, db', h => by
      obtain ⟨mid, hmid, hrest⟩ := Option.bind_eq_some_iff.mp h
      obtain ⟨hcycles, hlogs, husers⟩ := payAll_eq_some planned hrest
      obtain ⟨_, -, rfl⟩ := Option.map_eq_some_iff.mp hmid
      refine ⟨hcycles, by simp [hlogs], fun u => ?_⟩
      rw [husers, Table.modify_row, List.map_cons, sumAt_cons]
      by_cases hu : u = p.userId
      · rw [if_pos hu, if_pos (show p.credit.1 = u from hu.symm), Option.map_map]
        congr 1
        funext r
        exact add_assoc ..
      · rw [if_neg hu, if_neg (show p.credit.1 ≠ u from Ne.symm hu), zero_add]

theorem createCycle_eq_some {db db' : Db} {c : BlkRewardCycle} (h : createCycle db c = some db') :
    (∀ i d, db.cycles.row i = some d → d.windowStart ≠ c.windowStart)
      ∧ db' = { db with cycles := db.cycles.insert c } := by
  unfold createCycle at h
  split at h
  case isTrue => cases h
  case isFalse hnone =>
    refine ⟨fun i d hd heq => hnone ?_, (Option.some.inj h).symm⟩
    exact List.any_eq_true.mpr ⟨(i, d), Table.mem_rows.mpr hd, decide_eq_true heq⟩

/-- A new cycle with its payments: what `Balanced` asks of it is that it was
paid as planned. -/
theorem Balanced.pay {users : Table User} {db db' : Db} {c : BlkRewardCycle}
    (h : Balanced users db) (planned : List Planned)
    (hfree : ∀ i d, db.cycles.row i = some d → d.windowStart ≠ c.windowStart)
    (hcycles : db'.cycles = db.cycles.insert c)
    (hlogs : db'.logs = db.logs ++ planned.map (Planned.log db.cycles.nextId))
    (husers : ∀ u, (db'.users.row u).map (·.blkBalance)
      = (db.users.row u).map fun r => r.blkBalance + sumAt (planned.map Planned.credit) u)
    (hplanned : AsPlanned db.cycles.nextId c (planned.map (Planned.log db.cycles.nextId))) :
    Balanced users db' where
  unique i j a b ha hb hab := by
    rw [hcycles] at ha hb
    rcases Table.insert_row_eq_some.mp ha with ⟨hi, rfl⟩ | hold
    · rcases Table.insert_row_eq_some.mp hb with ⟨hj, -⟩ | hold'
      · rw [hi, hj]
      · exact absurd hab.symm (hfree j b hold')
    · rcases Table.insert_row_eq_some.mp hb with ⟨-, rfl⟩ | hold'
      · exact absurd hab (hfree i a hold)
      · exact h.unique i j a b hold hold' hab
  logged l hl := by
    rw [hcycles]
    rw [hlogs] at hl
    rcases List.mem_append.mp hl with hold | hnew
    · obtain ⟨d, hd⟩ := h.logged l hold
      exact ⟨d, Table.insert_row_of_some hd _⟩
    · obtain ⟨p, -, rfl⟩ := List.mem_map.mp hnew
      exact ⟨c, Table.insert_row_self ..⟩
  planned i d hd := by
    have hsplit : creditsOf db' i = creditsOf db i
        ++ (planned.map (Planned.log db.cycles.nextId)).filter (·.cycleId = i) := by
      rw [creditsOf, hlogs, List.filter_append, creditsOf]
    rw [hsplit]
    rw [hcycles] at hd
    rcases Table.insert_row_eq_some.mp hd with ⟨rfl, rfl⟩ | hold
    · have hnone : creditsOf db db.cycles.nextId = [] :=
        List.filter_eq_nil_iff.mpr fun l hl heq => by
          obtain ⟨d, hd⟩ := h.logged l hl
          exact Table.row_ne_nextId hd (of_decide_eq_true heq)
      have hall : (planned.map (Planned.log db.cycles.nextId)).filter
          (·.cycleId = db.cycles.nextId) = planned.map (Planned.log db.cycles.nextId) := by
        refine List.filter_eq_self.mpr fun l hl => ?_
        obtain ⟨p, -, rfl⟩ := List.mem_map.mp hl
        exact decide_eq_true rfl
      rwa [hnone, hall, List.nil_append]
    · have hnone : (planned.map (Planned.log db.cycles.nextId)).filter (·.cycleId = i) = [] := by
        refine List.filter_eq_nil_iff.mpr fun l hl heq => ?_
        obtain ⟨p, -, rfl⟩ := List.mem_map.mp hl
        exact Table.row_ne_nextId hold (of_decide_eq_true heq).symm
      rw [hnone, List.append_nil]
      exact h.planned i d hold
  balances u := by
    have hsum : sumAt (db'.logs.map BlkRewardLog.credit) u
        = sumAt (db.logs.map BlkRewardLog.credit) u + sumAt (planned.map Planned.credit) u := by
      rw [hlogs, List.map_append, sumAt_append, List.map_map]
      rfl
    have hbefore := h.balances u
    rw [husers, hsum]
    cases hrow : db.users.row u with
    | none =>
        rw [hrow, Option.map_none] at hbefore
        have hstart := Option.map_eq_none_iff.mp hbefore.symm
        rw [hstart]
        rfl
    | some r =>
        rw [hrow, Option.map_some] at hbefore
        obtain ⟨r0, hr0, heq⟩ := Option.map_eq_some_iff.mp hbefore.symm
        rw [hr0, Option.map_some, Option.map_some, ← heq, add_assoc]

theorem Balanced.payWindow {users : Table User} {db db' : Db} (h : Balanced users db)
    {windowStart : ℤ} {totalReward : ℚ} {entries : List Entry}
    (hreward : ∃ k, 0 < k ∧ totalReward = units k) (hgood : GoodEntries entries)
    (hpay : payWindow windowStart totalReward entries db = some db') : Balanced users db' := by
  unfold BlkCycle.payWindow at hpay
  by_cases hnobody : totalHr entries ≤ 0 ∨ entries = []
  · have hnil : entries = [] := by
      rcases hnobody with hle | hnil
      · by_contra hne
        refine absurd hle (not_le.mpr (List.sum_pos _ (fun x hx => ?_) (by simpa using hne)))
        obtain ⟨e, he, rfl⟩ := List.mem_map.mp hx
        exact hgood.positive e he
      · exact hnil
    simp only [if_pos hnobody] at hpay
    obtain ⟨hfree, rfl⟩ := createCycle_eq_some hpay
    refine h.pay [] hfree rfl (by simp) (fun u => by simp) ?_
    exact ⟨hreward, hgood, fun _ => ⟨rfl, rfl⟩, fun hne => absurd hnil hne⟩
  · have hne : entries ≠ [] := fun hnil => hnobody (Or.inr hnil)
    simp only [if_neg hnobody] at hpay
    by_cases hplan : plan totalReward entries = []
    · simp only [if_pos hplan] at hpay
      obtain ⟨hfree, rfl⟩ := createCycle_eq_some hpay
      refine h.pay [] hfree rfl (by simp) (fun u => by simp) ?_
      exact ⟨hreward, hgood, fun hnil => absurd hnil hne, fun _ => ⟨rfl, by simp [hplan],
        by simp [hplan, floor8]⟩⟩
    · simp only [if_neg hplan] at hpay
      obtain ⟨mid, hmid, hall⟩ := Option.bind_eq_some_iff.mp hpay
      obtain ⟨hfree, rfl⟩ := createCycle_eq_some hmid
      obtain ⟨hcycles, hlogs, husers⟩ := payAll_eq_some _ hall
      refine h.pay _ hfree hcycles hlogs husers ?_
      exact ⟨hreward, hgood, fun hnil => absurd hnil hne, fun _ => ⟨rfl, rfl, rfl⟩⟩

/-! ## Runs -/

/-- What a call remembers. -/
def Remembers : Call → Prop
  | .existing job | .eligible job =>
      (∃ k, 0 < k ∧ job.totalReward = units k) ∧ 0 ≤ job.minHr
  | .hashrates job userIds =>
      (∃ k, 0 < k ∧ job.totalReward = units k) ∧ 0 ≤ job.minHr ∧ userIds.Nodup
  | .pay job entries => (∃ k, 0 < k ∧ job.totalReward = units k) ∧ GoodEntries entries

/-- A positive reward is a number of whole units. -/
theorem floor8_eq_units {x : ℚ} (h : 0 < floor8 x) : ∃ k, 0 < k ∧ floor8 x = units k := by
  unfold floor8 at h ⊢
  split at h
  case isTrue hx =>
    rw [if_pos hx]
    exact ⟨_, units_pos.mp h, rfl⟩
  case isFalse => exact absurd h (lt_irrefl 0)

theorem start_balanced {users : Table User} {db db' : Db} {request : Request} {calls : List Call}
    (h : Balanced users db) (hstart : start db request = some (db', calls)) :
    Balanced users db' ∧ ∀ c ∈ calls, Remembers c := by
  cases request with
  | runBlkRewardCycle config now windowStart =>
      obtain ⟨rfl, rfl⟩ := Prod.mk.inj (Option.some.inj hstart)
      refine ⟨h, fun c hc => ?_⟩
      split at hc
      case isTrue => cases hc
      case isFalse hgo =>
        obtain rfl := List.mem_singleton.mp hc
        simp only [Bool.or_eq_true, decide_eq_true_eq, not_or, not_le] at hgo
        exact ⟨floor8_eq_units hgo.2, le_max_left ..⟩
  | updateUser userId isBanned miningPayoutMode lastHeartbeatAt lastLoginAt =>
      obtain ⟨rfl, rfl⟩ := Prod.mk.inj (Option.some.inj hstart)
      refine ⟨⟨h.unique, h.logged, h.planned, fun u => ?_⟩, fun c hc => by cases hc⟩
      rw [← h.balances u, Table.modify_row]
      split
      · rw [Option.map_map]
        rfl
      · rfl

theorem resume_balanced {users : Table User} {db db' : Db} {c : Call} {answer : Answer}
    {next : Option Call} (h : Balanced users db) (hc : Remembers c)
    (hresume : resume db c answer = some (db', next)) :
    Balanced users db' ∧ ∀ c' ∈ next, Remembers c' := by
  cases answer with
  | error =>
      have hend : resume db c .error = some (db, none) := by cases c <;> rfl
      obtain ⟨rfl, rfl⟩ := Prod.mk.inj (Option.some.inj (hend.symm.trans hresume))
      exact ⟨h, fun _ hc' => by cases hc'⟩
  | found =>
      cases c with
      | existing job =>
          simp only [resume] at hresume
          split at hresume
          · obtain ⟨rfl, rfl⟩ := Prod.mk.inj (Option.some.inj hresume)
            exact ⟨h, fun _ hc' => by cases hc'⟩
          · obtain ⟨rfl, rfl⟩ := Prod.mk.inj (Option.some.inj hresume)
            exact ⟨h, fun c' hc' => by obtain rfl := Option.some.inj hc'; exact hc⟩
      | eligible | hashrates | pay => cases hresume
  | users now userIds =>
      cases c with
      | eligible job =>
          simp only [resume] at hresume
          split at hresume
          case isTrue hperm =>
            obtain ⟨rfl, rfl⟩ := Prod.mk.inj (Option.some.inj hresume)
            refine ⟨h, fun c' hc' => ?_⟩
            obtain rfl := Option.some.inj hc'
            exact ⟨hc.1, hc.2, hperm.nodup_iff.mpr (Table.nodup_findMany ..)⟩
          case isFalse => cases hresume
      | existing | hashrates | pay => cases hresume
  | hashrates hashrate =>
      cases c with
      | hashrates job userIds =>
          obtain ⟨rfl, rfl⟩ := Prod.mk.inj (Option.some.inj hresume)
          refine ⟨h, fun c' hc' => ?_⟩
          obtain rfl := Option.some.inj hc'
          exact ⟨hc.1, sortedEntries_good hc.2.2 hashrate hc.2.1⟩
      | existing | eligible | pay => cases hresume
  | committed =>
      cases c with
      | pay job entries =>
          obtain ⟨rfl, rfl⟩ := Prod.mk.inj (Option.some.inj hresume)
          refine ⟨?_, fun _ hc' => by cases hc'⟩
          cases hpay : payWindow job.windowStart job.totalReward entries db with
          | none => exact h
          | some db' => exact h.payWindow hc.1 hc.2 hpay
      | existing | eligible | hashrates => cases hresume

/-- The state a run starts from: users, and no cycle yet. -/
def fresh (users : Table User) : InFlight Db Call := ⟨⟨users, .empty, []⟩, .empty⟩

theorem fresh_balanced (users : Table User) : Balanced users (fresh users).db where
  unique i j c d h := by cases h
  logged l h := by cases h
  planned i c h := by cases h
  balances u := by simp [fresh]

theorem run_balanced {users : Table User} {events : List (Event Request Answer)}
    {s : InFlight Db Call} (hrun : service.sys.run (fresh users) events = some s) :
    Balanced users s.db := by
  have hholds := service.invariant (C := fun _ _ _ => True) (I := Balanced users)
    (J := fun _ c => Remembers c)
    (fun db r db' cs hI hstart => by
      obtain ⟨hI', hnew⟩ := start_balanced hI hstart
      exact ⟨hI', fun _ hd => hd, hnew⟩)
    (fun db c a db' next hI hJ _ hresume => by
      obtain ⟨hI', hnew⟩ := resume_balanced hI hJ hresume
      exact ⟨hI', fun _ hd => hd, hnew⟩)
    (s := fresh users) (t := s) ⟨fresh_balanced users, fun i c hc => by cases hc⟩
    (service.sys.meets_of_forall (fun _ e => by cases e <;> simp [Service.Guard]) _ _) hrun
  exact hholds.1

/-- What the credits of a cycle add up to; `c.entries` are the eligible users
the cycle found. -/
structure PaidOut (c : BlkRewardCycle) (credits : List BlkRewardLog) : Prop where
  positive : ∀ l ∈ credits, 0 < l.amount
  one_log : (credits.map (·.userId)).Nodup
  eligible : ∀ l ∈ credits, ∃ e ∈ c.entries, l.userId = e.userId ∧ l.hashrate = e.hashrate
  /-- Everyone but the last in user order. -/
  share : ∀ e ∈ c.entries.dropLast, sumAt (credits.map BlkRewardLog.credit) e.userId
    = ⌊c.totalReward * (e.hashrate / c.totalHashrate) * 10 ^ 8 + FLOOR_EPS⌋ / 10 ^ 8
  remainder : ∀ r ∈ runningRemainders c.totalReward c.totalHashrate c.entries c.totalReward, 0 ≤ r
  total : c.entries ≠ [] → (credits.map (·.amount)).sum = c.totalReward
  stored : c.distributed = (credits.map (·.amount)).sum

theorem AsPlanned.paidOut {cycleId : ℕ} {c : BlkRewardCycle} {credits : List BlkRewardLog}
    (h : AsPlanned cycleId c credits) (hlen : c.entries.length < 10 ^ 12) : PaidOut c credits := by
  by_cases hne : c.entries = []
  · obtain ⟨rfl, hzero⟩ := h.nobody hne
    refine ⟨?_, List.nodup_nil, ?_, ?_, ?_, fun h' => absurd hne h', hzero⟩
    · intro l hl
      cases hl
    · intro l hl
      cases hl
    · rw [hne]
      intro e he
      cases he
    · rw [hne]
      intro r hr
      cases hr
  · obtain ⟨k, hk, hreward⟩ := h.reward
    obtain ⟨htotal, rfl, hstored⟩ := h.paid hne
    have hpos : 0 < totalHr c.entries := by
      refine List.sum_pos _ (fun x hx => ?_) (by simpa using hne)
      obtain ⟨e, he, rfl⟩ := List.mem_map.mp hx
      exact h.entries.positive e he
    -- the loop starts with everything left and nobody served
    obtain ⟨hsum, hrem⟩ := planLoop_total hk hpos c.entries 0 k hne h.entries.positive
      (by omega) hk.le (by rw [div_self hpos.ne']; simp)
    rw [← hreward] at hsum hrem
    have hamount : ((plan c.totalReward c.entries).map (Planned.log cycleId)).map (·.amount)
        = (plan c.totalReward c.entries).map (·.amount) := by
      rw [List.map_map]
      rfl
    have hcredit : ((plan c.totalReward c.entries).map (Planned.log cycleId)).map
        BlkRewardLog.credit = (plan c.totalReward c.entries).map Planned.credit := by
      rw [List.map_map]
      rfl
    refine ⟨?_, ?_, ?_, fun e he => ?_, ?_, fun _ => ?_, ?_⟩
    · intro l hl
      obtain ⟨p, hp, rfl⟩ := List.mem_map.mp hl
      exact (mem_planLoop _ _ _ _ p hp).1
    · rw [List.map_map]
      exact h.entries.nodup.sublist (planLoop_userIds ..)
    · intro l hl
      obtain ⟨p, hp, rfl⟩ := List.mem_map.mp hl
      exact (mem_planLoop _ _ _ _ p hp).2
    · have hshare : 0 < c.totalReward * (e.hashrate / totalHr c.entries) := by
        rw [hreward]
        exact mul_pos (units_pos.mpr hk)
          (div_pos (h.entries.positive e (List.mem_of_mem_dropLast he)) hpos)
      rw [hcredit, plan, planLoop_share _ _ _ _ h.entries.nodup e he, idealShare, floor8, htotal,
        if_pos hshare]
    · rw [htotal]
      exact hrem
    · rw [hamount]
      exact hsum
    · rw [hstored, hamount, plan, hsum, hreward, floor8_units hk.le]

/-- **The BLK cycle pays a window once and pays it out fully.** In every state
that overlapping calls for any windows lead to: one cycle for a window start;
a cycle with fewer than 10¹² eligible users has paid them as `PaidOut` says;
and a balance has grown by exactly what the log lists for its user. -/
theorem window_paid_once (users : Table User) (events : List (Event Request Answer))
    (s : InFlight Db Call) (hrun : service.sys.run (fresh users) events = some s) :
    (∀ i j c d, s.db.cycles.row i = some c → s.db.cycles.row j = some d →
        c.windowStart = d.windowStart → i = j)
      ∧ (∀ i c, s.db.cycles.row i = some c →
        c.entries.Pairwise (·.userId < ·.userId) ∧ (∀ e ∈ c.entries, 0 < e.hashrate)
          ∧ (c.entries.length < 10 ^ 12 → PaidOut c (creditsOf s.db i)))
      ∧ (∀ l ∈ s.db.logs, ∃ c, s.db.cycles.row l.cycleId = some c)
      ∧ ∀ u, (s.db.users.row u).map (·.blkBalance)
        = (users.row u).map fun r =>
            r.blkBalance + sumAt (s.db.logs.map BlkRewardLog.credit) u := by
  have h := run_balanced hrun
  refine ⟨h.unique, fun i c hc => ?_, h.logged, h.balances⟩
  have hplanned := h.planned i c hc
  exact ⟨hplanned.entries.sorted, hplanned.entries.positive, hplanned.paidOut⟩

/-- Three users who mine for BLK. -/
def threeMiners : Table User :=
  [⟨false, .blk, some 0, none, 0⟩, ⟨false, .blk, some 0, none, 0⟩,
    ⟨false, .blk, none, some 0, 1⟩].foldl Table.insert .empty

/-- Two overlapping calls for one window: one of them pays. -/
theorem window_paid_once_overlap :
    ∃ s, service.sys.run (fresh threeMiners)
        [.start (.runBlkRewardCycle ⟨3 / 100, 600, 900, 1 / 10 ^ 8, false, 1⟩ 0 none),
          .start (.runBlkRewardCycle ⟨3 / 100, 600, 900, 1 / 10 ^ 8, false, 1⟩ 0 none),
          .resume 1 .found, .resume 2 .found, .resume 1 (.users 0 [1, 2, 3]),
          .resume 2 (.users 0 [3, 1, 2]), .resume 1 (.hashrates fun u => u),
          .resume 2 (.hashrates fun u => 2 * u), .resume 2 .committed, .resume 1 .committed]
        = some s
      ∧ s.db.logs.length = 3
      ∧ ∀ i j c d, s.db.cycles.row i = some c → s.db.cycles.row j = some d →
        c.windowStart = d.windowStart → i = j := by
  have hrun : (service.sys.run (fresh threeMiners)
      [.start (.runBlkRewardCycle ⟨3 / 100, 600, 900, 1 / 10 ^ 8, false, 1⟩ 0 none),
        .start (.runBlkRewardCycle ⟨3 / 100, 600, 900, 1 / 10 ^ 8, false, 1⟩ 0 none),
        .resume 1 .found, .resume 2 .found, .resume 1 (.users 0 [1, 2, 3]),
        .resume 2 (.users 0 [3, 1, 2]), .resume 1 (.hashrates fun u => u),
        .resume 2 (.hashrates fun u => 2 * u), .resume 2 .committed,
        .resume 1 .committed]).isSome := by decide +kernel
  exact ⟨_, (Option.some_get hrun).symm, by decide +kernel +revert,
    (window_paid_once threeMiners _ _ (Option.some_get hrun).symm).1⟩

end BlockMiner.BlkCycle
