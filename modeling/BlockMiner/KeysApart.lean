import BlockMiner.Table

/-!
# Rows with several keys

A row may be found by any of several keys. `KeysApart` says that no two rows share
one, so that a key finds one row at most, whatever order the rows are searched in. An
insert and a change of a row keep it exactly if the new keys of the row are none of
another row's.
-/

namespace BlockMiner

variable {α κ : Type*}

/-- Where one row at most will do, it is found in any order. -/
theorem find?_of_unique {l : List α} {p : α → Bool} {a : α} (ha : a ∈ l) (hp : p a = true)
    (honly : ∀ b ∈ l, p b = true → b = a) : l.find? p = some a := by
  cases hfind : l.find? p with
  | none => exact absurd hp (by simpa using List.find?_eq_none.mp hfind a ha)
  | some b =>
      exact congrArg some (honly b (List.mem_of_find?_eq_some hfind) (List.find?_some hfind))

namespace Table

variable (keys : α → List κ) {t : Table α} {a : α} {i : Nat}

/-- No key of a row is one of another row. -/
def KeysApart (t : Table α) : Prop :=
  ∀ i j a b, i ≠ j → t.row i = some a → t.row j = some b → ∀ k ∈ keys a, k ∉ keys b

/-- No key of `a` is one of a row other than the row `i`. -/
def Fresh (t : Table α) (i : Nat) (a : α) : Prop :=
  ∀ j b, j ≠ i → t.row j = some b → ∀ k ∈ keys a, k ∉ keys b

variable {keys}

theorem keysApart_empty : (empty : Table α).KeysApart keys := by
  intro i j a b _ ha
  cases ha

theorem KeysApart.insert (h : t.KeysApart keys) (hfresh : t.Fresh keys t.nextId a) :
    (t.insert a).KeysApart keys := by
  intro i j b c hij hb hc k hkb hkc
  rcases insert_row_eq_some.mp hb with ⟨hi, rfl⟩ | holdb
  · rcases insert_row_eq_some.mp hc with ⟨hj, -⟩ | holdc
    · exact hij (hi.trans hj.symm)
    · exact hfresh j c (fun hj => hij (hi.trans hj.symm)) holdc k hkb hkc
  · rcases insert_row_eq_some.mp hc with ⟨hj, rfl⟩ | holdc
    · exact hfresh i b (fun hi => hij (hi.trans hj.symm)) holdb k hkc hkb
    · exact h i j b c hij holdb holdc k hkb hkc

theorem KeysApart.modify (h : t.KeysApart keys) {f : α → α} (ha : t.row i = some a)
    (hfresh : t.Fresh keys i (f a)) : (t.modify i f).KeysApart keys := by
  intro j l b c hjl hb hc k hkb hkc
  rcases modify_row_eq_some.mp hb with ⟨rfl, a₀, ha₀, rfl⟩ | ⟨hj, holdb⟩
  · obtain rfl := Option.some.inj (ha.symm.trans ha₀)
    rcases modify_row_eq_some.mp hc with ⟨rfl, -⟩ | ⟨hl, holdc⟩
    · exact hjl rfl
    · exact hfresh l c hl holdc k hkb hkc
  · rcases modify_row_eq_some.mp hc with ⟨rfl, a₀, ha₀, rfl⟩ | ⟨-, holdc⟩
    · obtain rfl := Option.some.inj (ha.symm.trans ha₀)
      exact hfresh j b hj holdb k hkc hkb
    · exact h j l b c hjl holdb holdc k hkb hkc

/-- A row that a key finds is the one found in any order of the rows. -/
theorem KeysApart.find? (h : t.KeysApart keys) {p : α → Bool} {k : κ}
    (hp : ∀ b, p b = true ↔ k ∈ keys b) (ha : t.row i = some a) (hk : k ∈ keys a)
    {rows : List (Nat × α)} (hrows : rows.Perm t.rows) :
    rows.find? (fun r => p r.2) = some (i, a) := by
  refine find?_of_unique (hrows.mem_iff.mpr (mem_rows.mpr ha)) ((hp a).mpr hk) ?_
  rintro ⟨j, b⟩ hmem hb
  have hrow := mem_rows.mp (hrows.mem_iff.mp hmem)
  by_cases hij : i = j
  · subst hij
    rw [Option.some.inj (ha.symm.trans hrow)]
  · exact absurd ((hp b).mp hb) (h i j a b hij ha hrow k hk)

/-- Two rows with a key in common are found in one order each. -/
theorem find?_first {p : α → Bool} (ha : t.row i = some a) (hp : p a = true) :
    ∃ rows : List (Nat × α), rows.Perm t.rows ∧ rows.find? (fun r => p r.2) = some (i, a) := by
  obtain ⟨before, after, hsplit⟩ := List.append_of_mem (mem_rows.mpr ha)
  refine ⟨(i, a) :: (before ++ after), ?_, List.find?_cons_of_pos hp⟩
  rw [hsplit]
  exact List.perm_middle.symm

end Table

end BlockMiner
