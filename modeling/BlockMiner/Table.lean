import Mathlib.Algebra.BigOperators.Group.Finset.Basic
import Mathlib.Data.List.Basic
import Mathlib.Tactic.Abel

/-!
# Tables with autoincremented ids

A relational table as a partial function from ids to rows together with
the next id its sequence hands out. `fresh` says that no row sits at or
above the sequence, so an insert never overwrites and a table cannot be
built otherwise. Rows are enumerated in id order (`rows`), which gives
the `findMany`/`findFirst` queries; `sum` adds up a weight over all rows
and is moved by one term per insert or update.
-/

namespace BlockMiner

structure Table (α : Type*) where
  row : Nat → Option α
  nextId : Nat
  fresh : ∀ i, nextId ≤ i → row i = none

namespace Table

variable {α : Type*}

/-- The empty table; sequences start at 1. -/
def empty : Table α := ⟨fun _ => none, 1, fun _ _ => rfl⟩

/-- `INSERT`: the row is stored under `t.nextId`. -/
def insert (t : Table α) (a : α) : Table α where
  row i := if i = t.nextId then some a else t.row i
  nextId := t.nextId + 1
  fresh i hi := by
    rw [if_neg (by omega)]
    exact t.fresh i (by omega)

/-- `nextval`: the sequence moves on, whatever becomes of the row. -/
def reserve (t : Table α) : Table α where
  row := t.row
  nextId := t.nextId + 1
  fresh i hi := t.fresh i (by omega)

/-- The row for an id that the sequence has handed out. -/
def place (t : Table α) (id₀ : Nat) (a : α) : Table α where
  row i := if i = id₀ ∧ i < t.nextId then some a else t.row i
  nextId := t.nextId
  fresh i hi := by
    rw [if_neg (by omega)]
    exact t.fresh i hi

/-- `UPDATE … WHERE id = id₀`: nothing happens when the row is missing. -/
def modify (t : Table α) (id₀ : Nat) (f : α → α) : Table α where
  row i := if i = id₀ then (t.row i).map f else t.row i
  nextId := t.nextId
  fresh i hi := by simp [t.fresh i hi]

/-- `UPDATE … WHERE p`. -/
def updateMany (t : Table α) (p : α → Bool) (f : α → α) : Table α where
  row i := (t.row i).map fun a => if p a then f a else a
  nextId := t.nextId
  fresh i hi := by simp [t.fresh i hi]

/-- `DELETE … WHERE id = id₀`. -/
def delete (t : Table α) (id₀ : Nat) : Table α where
  row i := if i = id₀ then none else t.row i
  nextId := t.nextId
  fresh i hi := by simp [t.fresh i hi]

/-- `DELETE … WHERE p`. -/
def deleteMany (t : Table α) (p : α → Bool) : Table α where
  row i := (t.row i).filter fun a => !p a
  nextId := t.nextId
  fresh i hi := by simp [t.fresh i hi]

/-- All rows with their ids, in id order. -/
def rows (t : Table α) : List (Nat × α) :=
  (List.range t.nextId).filterMap fun i => (t.row i).map fun a => (i, a)

def findMany (t : Table α) (p : Nat → α → Bool) : List (Nat × α) :=
  t.rows.filter fun r => p r.1 r.2

def findFirst (t : Table α) (p : Nat → α → Bool) : Option (Nat × α) :=
  (t.findMany p).head?

/-! ## Lookups after a write -/

@[simp] theorem empty_row (i : Nat) : (empty : Table α).row i = none := rfl

@[simp] theorem insert_nextId (t : Table α) (a : α) :
    (t.insert a).nextId = t.nextId + 1 := rfl

@[simp] theorem reserve_row (t : Table α) (i : Nat) : t.reserve.row i = t.row i := rfl

@[simp] theorem reserve_nextId (t : Table α) : t.reserve.nextId = t.nextId + 1 := rfl

@[simp] theorem place_nextId (t : Table α) (j : Nat) (a : α) :
    (t.place j a).nextId = t.nextId := rfl

theorem place_row (t : Table α) (j : Nat) (a : α) (i : Nat) :
    (t.place j a).row i = if i = j ∧ i < t.nextId then some a else t.row i := rfl

@[simp] theorem modify_nextId (t : Table α) (j : Nat) (f : α → α) :
    (t.modify j f).nextId = t.nextId := rfl

@[simp] theorem delete_nextId (t : Table α) (j : Nat) :
    (t.delete j).nextId = t.nextId := rfl

@[simp] theorem updateMany_nextId (t : Table α) (p : α → Bool) (f : α → α) :
    (t.updateMany p f).nextId = t.nextId := rfl

@[simp] theorem deleteMany_nextId (t : Table α) (p : α → Bool) :
    (t.deleteMany p).nextId = t.nextId := rfl

theorem insert_row (t : Table α) (a : α) (i : Nat) :
    (t.insert a).row i = if i = t.nextId then some a else t.row i := rfl

theorem modify_row (t : Table α) (j : Nat) (f : α → α) (i : Nat) :
    (t.modify j f).row i = if i = j then (t.row i).map f else t.row i := rfl

theorem updateMany_row (t : Table α) (p : α → Bool) (f : α → α) (i : Nat) :
    (t.updateMany p f).row i = (t.row i).map fun a => if p a then f a else a := rfl

theorem delete_row (t : Table α) (j i : Nat) :
    (t.delete j).row i = if i = j then none else t.row i := rfl

theorem deleteMany_row (t : Table α) (p : α → Bool) (i : Nat) :
    (t.deleteMany p).row i = (t.row i).filter fun a => !p a := rfl

theorem insert_row_update (t : Table α) (a : α) :
    (t.insert a).row = Function.update t.row t.nextId (some a) := by
  funext i
  rw [insert_row, Function.update_apply]

/-- Rows inserted one after the other, numbered from the first free id. -/
theorem foldl_insert_range (f : Nat → α) (t : Table α) (n : Nat) :
    let t' := (List.range n).foldl (fun t i => t.insert (f i)) t
    t'.nextId = t.nextId + n ∧ ∀ i, t'.row i =
      if t.nextId ≤ i ∧ i < t.nextId + n then some (f (i - t.nextId)) else t.row i := by
  induction n with
  | zero =>
      refine ⟨rfl, fun i => ?_⟩
      rw [if_neg (by omega)]
      rfl
  | succ n ih =>
      obtain ⟨hnext, hrow⟩ := ih
      rw [List.range_succ, List.foldl_append]
      refine ⟨congrArg (· + 1) hnext, fun i => ?_⟩
      rw [List.foldl_cons, List.foldl_nil, insert_row, hnext, hrow]
      by_cases hi : i = t.nextId + n
      · subst hi
        rw [if_pos rfl, if_pos (by omega), Nat.add_sub_cancel_left]
      · rw [if_neg hi]
        have hiff : (t.nextId ≤ i ∧ i < t.nextId + n)
            ↔ (t.nextId ≤ i ∧ i < t.nextId + (n + 1)) := by
          omega
        exact if_congr hiff rfl rfl

@[simp] theorem insert_row_self (t : Table α) (a : α) :
    (t.insert a).row t.nextId = some a := if_pos rfl

theorem row_lt {t : Table α} {i : Nat} {a : α} (h : t.row i = some a) : i < t.nextId := by
  by_contra hlt
  rw [t.fresh i (Nat.le_of_not_lt hlt)] at h
  cases h

theorem row_ne_nextId {t : Table α} {i : Nat} {a : α} (h : t.row i = some a) :
    i ≠ t.nextId := (row_lt h).ne

/-- An old row is still there after an insert. -/
theorem insert_row_of_some {t : Table α} {i : Nat} {a : α} (h : t.row i = some a) (b : α) :
    (t.insert b).row i = some a := by
  rw [insert_row, if_neg (row_ne_nextId h), h]

/-- Every row of the table after an insert is the new one or an old one. -/
theorem insert_row_eq_some {t : Table α} {a b : α} {i : Nat} :
    (t.insert a).row i = some b ↔ (i = t.nextId ∧ b = a) ∨ t.row i = some b := by
  rw [insert_row]
  split
  case isTrue h =>
    subst h
    simp [t.fresh t.nextId (Nat.le_refl _), eq_comm]
  case isFalse h => simp [h]

theorem delete_row_eq_some {t : Table α} {j i : Nat} {b : α} :
    (t.delete j).row i = some b ↔ i ≠ j ∧ t.row i = some b := by
  rw [delete_row]
  split
  case isTrue h => simp [h]
  case isFalse h => simp [h]

theorem modify_row_eq_some {t : Table α} {j i : Nat} {f : α → α} {b : α} :
    (t.modify j f).row i = some b ↔
      (i = j ∧ ∃ a, t.row i = some a ∧ f a = b) ∨ (i ≠ j ∧ t.row i = some b) := by
  rw [modify_row]
  split
  case isTrue h => simp [h, Option.map_eq_some_iff]
  case isFalse h => simp [h]

/-- What holds of all rows holds after a change of one row that keeps it. -/
theorem forall_modify {t : Table α} {j : Nat} {f : α → α} {P : Nat → α → Prop}
    (h : ∀ i a, t.row i = some a → P i a) (hf : ∀ a, t.row j = some a → P j (f a)) :
    ∀ i a, (t.modify j f).row i = some a → P i a := by
  intro i a hrow
  rcases modify_row_eq_some.mp hrow with ⟨rfl, b, hb, rfl⟩ | ⟨-, hold⟩
  · exact hf b hb
  · exact h i a hold

theorem forall_insert {t : Table α} {b : α} {P : Nat → α → Prop}
    (h : ∀ i a, t.row i = some a → P i a) (hb : P t.nextId b) :
    ∀ i a, (t.insert b).row i = some a → P i a := by
  intro i a hrow
  rcases insert_row_eq_some.mp hrow with ⟨rfl, rfl⟩ | hold
  · exact hb
  · exact h i a hold

/-- A changed row is still there. -/
theorem modify_keeps {t : Table α} {j i : Nat} {f : α → α} {a : α} {P : α → Prop}
    (h : t.row i = some a) (ha : P a) (hf : ∀ a, P a → P (f a)) :
    ∃ b, (t.modify j f).row i = some b ∧ P b := by
  rw [modify_row, h]
  split
  · exact ⟨f a, rfl, hf a ha⟩
  · exact ⟨a, rfl, ha⟩

/-- Ids are handed out once: a row that is gone does not come back. -/
structure Ages (t t' : Table α) : Prop where
  nextId : t.nextId ≤ t'.nextId
  gone : ∀ {i}, i < t.nextId → t.row i = none → t'.row i = none

theorem Ages.refl (t : Table α) : t.Ages t := ⟨le_rfl, fun _ h => h⟩

theorem Ages.trans {t t' t'' : Table α} (h : t.Ages t') (h' : t'.Ages t'') : t.Ages t'' :=
  ⟨h.nextId.trans h'.nextId, fun hi hnone => h'.gone (hi.trans_le h.nextId) (h.gone hi hnone)⟩

theorem ages_insert (t : Table α) (a : α) : t.Ages (t.insert a) :=
  ⟨Nat.le_succ _, fun hi hnone => (if_neg hi.ne).trans hnone⟩

theorem ages_modify (t : Table α) (j : Nat) (f : α → α) : t.Ages (t.modify j f) := by
  refine ⟨le_rfl, fun _ hnone => ?_⟩
  rw [modify_row, hnone, Option.map_none, ite_self]

theorem ages_delete (t : Table α) (j : Nat) : t.Ages (t.delete j) := by
  refine ⟨le_rfl, fun _ hnone => ?_⟩
  rw [delete_row, hnone, ite_self]

/-! ## Queries -/

theorem mem_rows {t : Table α} {i : Nat} {a : α} : (i, a) ∈ t.rows ↔ t.row i = some a := by
  simp only [rows, List.mem_filterMap, List.mem_range, Option.map_eq_some_iff, Prod.mk.injEq]
  constructor
  · rintro ⟨j, -, b, hb, rfl, rfl⟩
    exact hb
  · exact fun h => ⟨i, row_lt h, a, h, rfl, rfl⟩

/-- Every id is listed once. -/
theorem nodup_rows (t : Table α) : (t.rows.map Prod.fst).Nodup := by
  rw [rows, List.map_filterMap]
  refine List.Nodup.filterMap (fun i j k hi hj => ?_) List.nodup_range
  simp only [Option.map_map, Option.mem_map] at hi hj
  obtain ⟨_, -, rfl⟩ := hi
  obtain ⟨_, -, hj⟩ := hj
  exact hj.symm

theorem rows_modify (t : Table α) (j : Nat) (f : α → α) :
    (t.modify j f).rows = t.rows.map fun r => if r.1 = j then (r.1, f r.2) else r := by
  rw [rows, rows, List.map_filterMap]
  refine List.filterMap_congr fun i _ => ?_
  rw [modify_row]
  by_cases hij : i = j
  · cases t.row i <;> simp [hij]
  · cases t.row i <;> simp [hij]

/-- One row among the others, and a change of it. -/
theorem rows_split {t : Table α} {j : Nat} {a : α} (h : t.row j = some a) :
    ∃ before after, t.rows = before ++ (j, a) :: after
      ∧ ∀ f : α → α, (t.modify j f).rows = before ++ (j, f a) :: after := by
  obtain ⟨before, after, hrows⟩ := List.append_of_mem (mem_rows.mpr h)
  refine ⟨before, after, hrows, fun f => ?_⟩
  have hnodup := nodup_rows t
  rw [hrows, List.map_append, List.map_cons, List.nodup_append] at hnodup
  obtain ⟨-, hafter, hbefore⟩ := hnodup
  have hothers : ∀ l : List (Nat × α), (∀ r ∈ l, r.1 ≠ j) →
      (l.map fun r => if r.1 = j then (r.1, f r.2) else r) = l := by
    intro l hl
    conv_rhs => rw [← List.map_id l]
    exact List.map_congr_left fun r hr => if_neg (hl r hr)
  have hne : ∀ r ∈ before, r.1 ≠ j := by
    intro r hr
    exact hbefore r.1 (List.mem_map_of_mem hr) j (List.mem_cons_self ..)
  have hne' : ∀ r ∈ after, r.1 ≠ j := by
    intro r hr heq
    have hmem : r.1 ∈ after.map Prod.fst := List.mem_map_of_mem hr
    exact (List.nodup_cons.mp hafter).1 (heq ▸ hmem)
  rw [rows_modify, hrows, List.map_append, List.map_cons, if_pos rfl, hothers before hne,
    hothers after hne']

theorem rows_reserve (t : Table α) : t.reserve.rows = t.rows := by
  rw [rows, rows, reserve_nextId, List.range_succ, List.filterMap_append]
  simp [t.fresh t.nextId le_rfl]

/-- A row placed above all others comes last. -/
theorem rows_place {t : Table α} {j : Nat} (hj : j < t.nextId)
    (habove : ∀ i a, t.row i = some a → i < j) (a : α) :
    (t.place j a).rows = t.rows ++ [(j, a)] := by
  obtain ⟨k, hk⟩ := Nat.exists_eq_add_of_lt hj
  -- up to `j` the tables agree, and above it they are empty
  have hrange : List.range t.nextId =
      List.range j ++ j :: (List.range k).map fun i => j + (i + 1) := by
    rw [hk, Nat.add_assoc, List.range_add, List.range_succ_eq_map, List.map_cons, List.map_map]
    rfl
  have hrest : ∀ i, j ≤ i → t.row i = none := by
    intro i hi
    by_contra hsome
    obtain ⟨b, hb⟩ := Option.ne_none_iff_exists'.mp hsome
    have := habove i b hb
    omega
  have hbelow : ∀ i ∈ List.range j, (t.place j a).row i = t.row i := by
    intro i hi
    rw [place_row, if_neg]
    have := List.mem_range.mp hi
    omega
  rw [rows, rows, place_nextId, hrange, List.filterMap_append, List.filterMap_append,
    List.filterMap_congr fun i hi => by rw [hbelow i hi], List.append_assoc]
  congr 1
  have hself : (t.place j a).row j = some a := if_pos ⟨rfl, hj⟩
  have hnone : ∀ i ∈ (List.range k).map fun i => j + (i + 1),
      (t.place j a).row i = none ∧ t.row i = none := by
    intro i hi
    obtain ⟨l, -, rfl⟩ := List.mem_map.mp hi
    refine ⟨?_, hrest _ (by omega)⟩
    rw [place_row, if_neg (by omega), hrest _ (by omega)]
  have hnil : ∀ t' : Table α, (∀ i ∈ (List.range k).map fun i => j + (i + 1), t'.row i = none) →
      ((List.range k).map fun i => j + (i + 1)).filterMap
        (fun i => (t'.row i).map fun b => (i, b)) = [] := by
    intro t' h
    refine List.filterMap_eq_nil_iff.mpr fun i hi => ?_
    rw [h i hi, Option.map_none]
  rw [List.filterMap_cons, List.filterMap_cons, hself, hrest j le_rfl,
    hnil _ fun i hi => (hnone i hi).1, hnil _ fun i hi => (hnone i hi).2]
  rfl

theorem nodup_findMany (t : Table α) (p : Nat → α → Bool) :
    ((t.findMany p).map Prod.fst).Nodup :=
  (nodup_rows t).sublist ((List.filter_sublist ..).map Prod.fst)

theorem mem_findMany {t : Table α} {p : Nat → α → Bool} {i : Nat} {a : α} :
    (i, a) ∈ t.findMany p ↔ t.row i = some a ∧ p i a = true := by
  simp [findMany, mem_rows]

theorem findFirst_eq_some {t : Table α} {p : Nat → α → Bool} {i : Nat} {a : α}
    (h : t.findFirst p = some (i, a)) : t.row i = some a ∧ p i a = true :=
  mem_findMany.mp (List.mem_of_mem_head? h)

theorem findFirst_eq_none {t : Table α} {p : Nat → α → Bool} :
    t.findFirst p = none ↔ ∀ i a, t.row i = some a → p i a = false := by
  rw [findFirst, List.head?_eq_none_iff, List.eq_nil_iff_forall_not_mem]
  constructor
  · intro h i a hrow
    by_contra hp
    exact h (i, a) (mem_findMany.mpr ⟨hrow, by simpa using hp⟩)
  · rintro h ⟨i, a⟩ hm
    obtain ⟨hrow, hp⟩ := mem_findMany.mp hm
    rw [h i a hrow] at hp
    cases hp

/-- The only row that the query can find is found. -/
theorem findFirst_of_unique {t : Table α} {p : Nat → α → Bool} {i : Nat} {a : α}
    (h : t.row i = some a) (hp : p i a = true)
    (honly : ∀ j b, t.row j = some b → p j b = true → j = i) : t.findFirst p = some (i, a) := by
  cases hfind : t.findFirst p with
  | none =>
      rw [findFirst_eq_none.mp hfind i a h] at hp
      cases hp
  | some r =>
      obtain ⟨j, b⟩ := r
      obtain ⟨hrow, hpj⟩ := findFirst_eq_some hfind
      obtain rfl := honly j b hrow hpj
      rw [Option.some.inj (hrow.symm.trans h)]

/-! ## Sums over all rows -/

section Sum

variable {M : Type*} [AddCommGroup M]

/-- The weights of all rows, added up. -/
def sum (t : Table α) (w : Nat → α → M) : M :=
  ∑ i ∈ Finset.range t.nextId, (t.row i).elim 0 (w i)

theorem sum_insert (t : Table α) (a : α) (w : Nat → α → M) :
    (t.insert a).sum w = t.sum w + w t.nextId a := by
  rw [sum, insert_nextId, Finset.sum_range_succ, sum]
  congr 1
  · refine Finset.sum_congr rfl fun i hi => ?_
    rw [insert_row, if_neg (by have := Finset.mem_range.mp hi; omega)]
  · simp

/-- A table that differs in row `j` only has a sum that differs by its weight. -/
theorem sum_of_row {t t' : Table α} {j : Nat} {a : α} (hnext : t'.nextId = t.nextId)
    (hj : t.row j = some a) (hrest : ∀ i, i ≠ j → t'.row i = t.row i) (w : Nat → α → M) :
    t'.sum w = t.sum w - w j a + (t'.row j).elim 0 (w j) := by
  have hmem : j ∈ Finset.range t.nextId := Finset.mem_range.mpr (row_lt hj)
  have hothers : ∑ i ∈ (Finset.range t.nextId).erase j, (t'.row i).elim 0 (w i)
      = ∑ i ∈ (Finset.range t.nextId).erase j, (t.row i).elim 0 (w i) :=
    Finset.sum_congr rfl fun i hi => by rw [hrest i (Finset.ne_of_mem_erase hi)]
  rw [sum, sum, hnext, ← Finset.add_sum_erase _ _ hmem, ← Finset.add_sum_erase _ _ hmem, hothers,
    hj, Option.elim_some]
  abel

/-- Changing one row changes the sum by the new weight minus the old one. -/
theorem sum_modify {t : Table α} {j : Nat} {a : α} (h : t.row j = some a) (f : α → α)
    (w : Nat → α → M) : (t.modify j f).sum w = t.sum w - w j a + w j (f a) := by
  rw [sum_of_row (modify_nextId t j f) h fun i hi => (modify_row t j f i).trans (if_neg hi),
    modify_row, if_pos rfl, h]
  rfl

/-- A change that keeps the weight of its row keeps the sum. -/
theorem sum_modify_of_eq {t : Table α} {j : Nat} {f : α → α} {w : Nat → α → M}
    (h : ∀ a, t.row j = some a → w j (f a) = w j a) : (t.modify j f).sum w = t.sum w := by
  cases hj : t.row j with
  | some a => rw [sum_modify hj, h a hj, sub_add_cancel]
  | none =>
      refine Finset.sum_congr rfl fun i _ => ?_
      rw [modify_row]
      split
      case isTrue hij => rw [hij, hj, Option.map_none]
      case isFalse => rfl

theorem sum_delete {t : Table α} {j : Nat} {a : α} (h : t.row j = some a)
    (w : Nat → α → M) : (t.delete j).sum w = t.sum w - w j a := by
  rw [sum_of_row (delete_nextId t j) h fun i hi => (delete_row t j i).trans (if_neg hi),
    delete_row, if_pos rfl]
  exact add_zero _

theorem sum_add (t : Table α) (w w' : Nat → α → M) :
    t.sum (fun i a => w i a + w' i a) = t.sum w + t.sum w' := by
  rw [sum, sum, sum, ← Finset.sum_add_distrib]
  refine Finset.sum_congr rfl fun i _ => ?_
  cases t.row i with
  | none => exact (add_zero 0).symm
  | some a => rfl

/-- A sum only reads the weights of the rows that are there. -/
theorem sum_congr {t : Table α} {w w' : Nat → α → M}
    (h : ∀ i a, t.row i = some a → w i a = w' i a) : t.sum w = t.sum w' := by
  refine Finset.sum_congr rfl fun i _ => ?_
  cases hrow : t.row i with
  | none => rfl
  | some a => simpa using h i a hrow

/-- A sum whose weights vanish on every row is zero. -/
theorem sum_eq_zero {t : Table α} {w : Nat → α → M}
    (h : ∀ i a, t.row i = some a → w i a = 0) : t.sum w = 0 := by
  refine Finset.sum_eq_zero fun i _ => ?_
  cases hrow : t.row i with
  | none => rfl
  | some a => simpa using h i a hrow

end Sum

/-! ## What the rows contribute

As `sum`, for contributions that have no differences (multisets). -/

section Contents

variable {M : Type*} [AddCommMonoid M]

def contents (t : Table α) (w : α → M) : M :=
  ∑ i ∈ Finset.range t.nextId, (t.row i).elim 0 w

theorem contents_insert (t : Table α) (a : α) (w : α → M) :
    (t.insert a).contents w = t.contents w + w a := by
  rw [contents, insert_nextId, Finset.sum_range_succ, contents]
  congr 1
  · refine Finset.sum_congr rfl fun i hi => ?_
    rw [insert_row, if_neg (Finset.mem_range.mp hi).ne]
  · rw [insert_row_self, Option.elim_some]

/-- A table that differs in row `j` only. -/
theorem contents_of_row {t t' : Table α} {j : Nat} {a : α} (hnext : t'.nextId = t.nextId)
    (hj : t.row j = some a) (hrest : ∀ i, i ≠ j → t'.row i = t.row i) (w : α → M) :
    t'.contents w + w a = t.contents w + (t'.row j).elim 0 w := by
  have hmem : j ∈ Finset.range t.nextId := Finset.mem_range.mpr (row_lt hj)
  have hothers : ∑ i ∈ (Finset.range t.nextId).erase j, (t'.row i).elim 0 w
      = ∑ i ∈ (Finset.range t.nextId).erase j, (t.row i).elim 0 w :=
    Finset.sum_congr rfl fun i hi => by rw [hrest i (Finset.ne_of_mem_erase hi)]
  rw [contents, contents, hnext, ← Finset.add_sum_erase _ _ hmem, ← Finset.add_sum_erase _ _ hmem,
    hothers, hj, Option.elim_some]
  ac_rfl

theorem contents_delete {t : Table α} {j : Nat} {a : α} (h : t.row j = some a) (w : α → M) :
    (t.delete j).contents w + w a = t.contents w := by
  rw [contents_of_row (delete_nextId t j) h fun i hi => (delete_row t j i).trans (if_neg hi),
    delete_row, if_pos rfl]
  exact add_zero _

/-- A change that keeps what its row contributes. -/
theorem contents_modify_of_eq {t : Table α} {j : Nat} {f : α → α} {w : α → M}
    (h : ∀ a, t.row j = some a → w (f a) = w a) : (t.modify j f).contents w = t.contents w := by
  refine Finset.sum_congr rfl fun i _ => ?_
  rw [modify_row]
  split
  case isTrue hi =>
    subst hi
    cases hrow : t.row i with
    | none => rfl
    | some a => exact h a hrow
  case isFalse => rfl

end Contents

end Table

end BlockMiner
