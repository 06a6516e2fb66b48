import Mathlib.Algebra.BigOperators.Group.List.Basic
import Mathlib.Data.List.Nodup
import Mathlib.Tactic.Abel

/-!
# Insertion-ordered maps

Keyed maps iterated in the order in which keys were first set, the order
of a JavaScript `Map`: setting a key that is present changes its value in
place, a new key goes to the end. Keys are distinct by construction
(`nodup`).
-/

namespace BlockMiner

structure OrdMap (κ ν : Type*) where
  entries : List (κ × ν)
  nodup : (entries.map Prod.fst).Nodup

namespace OrdMap

variable {κ ν : Type*} [DecidableEq κ]

def empty : OrdMap κ ν := ⟨[], List.nodup_nil⟩

/-- The value of the entry under `k`. -/
def get? (m : OrdMap κ ν) (k : κ) : Option ν := m.entries.lookup k

/-- Overwrite the entry under `k`, or append one. -/
def upsert (k : κ) (v : ν) : List (κ × ν) → List (κ × ν)
  | [] => [(k, v)]
  | (k', v') :: es => if k' = k then (k, v) :: es else (k', v') :: upsert k v es

theorem mem_keys_upsert {k x : κ} {v : ν} : ∀ {es : List (κ × ν)},
    x ∈ (upsert k v es).map Prod.fst ↔ x = k ∨ x ∈ es.map Prod.fst
  | [] => by simp [upsert]
  | (k', v') :: es => by
      by_cases h : k' = k
      · subst h
        simp [upsert]
      · simp only [upsert, if_neg h, List.map_cons, List.mem_cons, mem_keys_upsert]
        tauto

theorem nodup_upsert {k : κ} {v : ν} : ∀ {es : List (κ × ν)},
    (es.map Prod.fst).Nodup → ((upsert k v es).map Prod.fst).Nodup
  | [], _ => by simp [upsert]
  | (k', v') :: es, hnd => by
      rw [List.map_cons, List.nodup_cons] at hnd
      by_cases h : k' = k
      · subst h
        simpa [upsert] using hnd
      · rw [upsert, if_neg h, List.map_cons, List.nodup_cons]
        refine ⟨fun hmem => ?_, nodup_upsert hnd.2⟩
        rcases mem_keys_upsert.mp hmem with heq | hold
        · exact h heq
        · exact hnd.1 hold

def set (m : OrdMap κ ν) (k : κ) (v : ν) : OrdMap κ ν :=
  ⟨upsert k v m.entries, nodup_upsert m.nodup⟩

theorem lookup_cons_ite {k k' : κ} {v : ν} {es : List (κ × ν)} :
    ((k', v) :: es).lookup k = if k = k' then some v else es.lookup k := by
  rw [List.lookup_cons]
  by_cases h : k = k'
  · subst h
    simp
  · rw [if_neg h, beq_false_of_ne h]

theorem lookup_of_not_mem {k : κ} {es : List (κ × ν)} (h : k ∉ es.map Prod.fst) :
    es.lookup k = none := by
  refine List.lookup_eq_none_iff.mpr fun p hp => bne_iff_ne.mpr ?_
  rintro rfl
  exact h (List.mem_map_of_mem hp)

theorem lookup_upsert {k x : κ} {v : ν} : ∀ {es : List (κ × ν)},
    (upsert k v es).lookup x = if x = k then some v else es.lookup x
  | [] => by rw [upsert, lookup_cons_ite]
  | (k', v') :: es => by
      by_cases h : k' = k
      · subst h
        rw [upsert, if_pos rfl, lookup_cons_ite, lookup_cons_ite]
        split <;> rfl
      · rw [upsert, if_neg h, lookup_cons_ite, lookup_cons_ite, lookup_upsert]
        by_cases hx : x = k'
        · rw [if_pos hx, if_pos hx, if_neg (hx ▸ h)]
        · rw [if_neg hx, if_neg hx]

@[simp] theorem get?_empty (k : κ) : (empty : OrdMap κ ν).get? k = none := rfl

theorem get?_set (m : OrdMap κ ν) (k x : κ) (v : ν) :
    (m.set k v).get? x = if x = k then some v else m.get? x := lookup_upsert

@[simp] theorem get?_set_self (m : OrdMap κ ν) (k : κ) (v : ν) :
    (m.set k v).get? k = some v := by rw [get?_set, if_pos rfl]

theorem get?_set_of_ne (m : OrdMap κ ν) {k x : κ} (h : x ≠ k) (v : ν) :
    (m.set k v).get? x = m.get? x := by rw [get?_set, if_neg h]

theorem lookup_eq_some_iff_mem {k : κ} {v : ν} : ∀ {es : List (κ × ν)},
    (es.map Prod.fst).Nodup → (es.lookup k = some v ↔ (k, v) ∈ es)
  | [], _ => by simp
  | (k', v') :: es, hnd => by
      rw [List.map_cons, List.nodup_cons] at hnd
      have ih := lookup_eq_some_iff_mem (k := k) (v := v) hnd.2
      rw [lookup_cons_ite, List.mem_cons, Prod.mk.injEq]
      by_cases hk : k = k'
      · have hnot : (k, v) ∉ es := fun hm => hnd.1 (List.mem_map.mpr ⟨(k, v), hm, hk⟩)
        simp [hk, eq_comm, hk ▸ hnot]
      · simp [hk, ih]

/-- The entries of a map are exactly its lookups. -/
theorem mem_entries {m : OrdMap κ ν} {k : κ} {v : ν} :
    (k, v) ∈ m.entries ↔ m.get? k = some v :=
  (lookup_eq_some_iff_mem m.nodup).symm

/-! ## Sums over the values -/

section Sum

variable {M : Type*} [AddCommGroup M]

theorem sum_map_upsert (f : ν → M) {k : κ} {v : ν} : ∀ {es : List (κ × ν)},
    ((upsert k v es).map fun e => f e.2).sum
      = (es.map fun e => f e.2).sum - ((es.lookup k).map f).getD 0 + f v
  | [] => by simp [upsert]
  | (k', v') :: es => by
      rw [lookup_cons_ite]
      by_cases h : k' = k
      · rw [upsert, if_pos h, if_pos h.symm, List.map_cons, List.map_cons, List.sum_cons,
          List.sum_cons, Option.map_some, Option.getD_some]
        abel
      · rw [upsert, if_neg h, if_neg (Ne.symm h), List.map_cons, List.map_cons, List.sum_cons,
          List.sum_cons, sum_map_upsert f]
        abel

/-- Setting a key changes a sum over the values by the new term minus the
old one. -/
theorem sum_map_set (f : ν → M) (m : OrdMap κ ν) (k : κ) (v : ν) :
    ((m.set k v).entries.map fun e => f e.2).sum
      = (m.entries.map fun e => f e.2).sum - ((m.get? k).map f).getD 0 + f v :=
  sum_map_upsert f

theorem sum_set (m : OrdMap κ M) (k : κ) (v : M) :
    ((m.set k v).entries.map Prod.snd).sum
      = (m.entries.map Prod.snd).sum - (m.get? k).getD 0 + v := by
  simpa using sum_map_set id m k v

end Sum

end OrdMap

/-! ## Amounts listed under keys that may repeat -/

section SumAt

variable {κ M : Type*} [DecidableEq κ] [AddCommMonoid M]

/-- All that is listed under one key, added up. -/
def sumAt (l : List (κ × M)) (k : κ) : M := ((l.filter (·.1 = k)).map Prod.snd).sum

@[simp] theorem sumAt_nil (k : κ) : sumAt ([] : List (κ × M)) k = 0 := rfl

theorem sumAt_cons (p : κ × M) (l : List (κ × M)) (k : κ) :
    sumAt (p :: l) k = (if p.1 = k then p.2 else 0) + sumAt l k := by
  unfold sumAt
  rw [List.filter_cons]
  by_cases h : p.1 = k
  · rw [if_pos (decide_eq_true h), if_pos h, List.map_cons, List.sum_cons]
  · rw [if_neg (by simpa using h), if_neg h, zero_add]

theorem sumAt_append (l l' : List (κ × M)) (k : κ) :
    sumAt (l ++ l') k = sumAt l k + sumAt l' k := by
  unfold sumAt
  rw [List.filter_append, List.map_append, List.sum_append]

theorem sumAt_of_not_mem {l : List (κ × M)} {k : κ} (h : k ∉ l.map Prod.fst) :
    sumAt l k = 0 := by
  have hnil : l.filter (·.1 = k) = [] := by
    refine List.filter_eq_nil_iff.mpr fun p hp hk => h ?_
    exact List.mem_map.mpr ⟨p, hp, of_decide_eq_true hk⟩
  rw [sumAt, hnil]
  rfl

end SumAt

end BlockMiner
