import Mathlib

/-!
# Rows in the order of their keys

Rows with different keys, from the highest key down or from the lowest up, and
the rows on either side of one of them. A page that starts behind a row needs
its key only.
-/

namespace BlockMiner.Keyset

variable {α κ : Type*} [LinearOrder κ] (key : α → κ)

def newestFirst (rows : List α) : List α := rows.mergeSort fun a b => key b ≤ key a

def oldestFirst (rows : List α) : List α := rows.mergeSort fun a b => key a ≤ key b

variable {key}

theorem newestFirst_perm (rows : List α) : (newestFirst key rows).Perm rows :=
  List.mergeSort_perm ..

theorem oldestFirst_perm (rows : List α) : (oldestFirst key rows).Perm rows :=
  List.mergeSort_perm ..

/-- From the highest key down, without ties. -/
def Descending (key : α → κ) (rows : List α) : Prop := rows.Pairwise fun a b => key b < key a

theorem descending_of_le {rows : List α} (hle : rows.Pairwise fun a b => key b ≤ key a)
    (hnodup : (rows.map key).Nodup) : Descending key rows := by
  have hne : rows.Pairwise fun a b => key a ≠ key b := List.pairwise_map.1 hnodup
  exact hle.imp₂ (fun a b hab hn => lt_of_le_of_ne hab hn.symm) hne

theorem newestFirst_descending {rows : List α} (hnodup : (rows.map key).Nodup) :
    Descending key (newestFirst key rows) := by
  have hle : (newestFirst key rows).Pairwise fun a b => decide (key b ≤ key a) = true :=
    List.pairwise_mergeSort
      (fun a b c hab hbc => by simp only [decide_eq_true_eq] at *; exact hbc.trans hab)
      (fun a b => by simpa using le_total (key b) (key a)) rows
  refine descending_of_le (hle.imp fun h => of_decide_eq_true h) ?_
  exact ((newestFirst_perm rows).map key).nodup_iff.2 hnodup

theorem oldestFirst_descending {rows : List α} (hnodup : (rows.map key).Nodup) :
    Descending key (oldestFirst key rows).reverse := by
  have hle : (oldestFirst key rows).Pairwise fun a b => decide (key a ≤ key b) = true :=
    List.pairwise_mergeSort
      (fun a b c hab hbc => by simp only [decide_eq_true_eq] at *; exact hab.trans hbc)
      (fun a b => by simpa using le_total (key a) (key b)) rows
  refine descending_of_le (List.pairwise_reverse.2 (hle.imp fun h => of_decide_eq_true h)) ?_
  rw [List.map_reverse, List.nodup_reverse]
  exact ((oldestFirst_perm rows).map key).nodup_iff.2 hnodup

theorem Descending.eq_of_perm {l₁ l₂ : List α} (h₁ : Descending key l₁) (h₂ : Descending key l₂)
    (h : l₁.Perm l₂) : l₁ = l₂ :=
  h.eq_of_pairwise (fun _ _ _ _ hab hba => absurd hab (lt_asymm hba)) h₁ h₂

omit [LinearOrder κ] in
theorem nodup_filter {rows : List α} (hnodup : (rows.map key).Nodup) (p : α → Bool) :
    ((rows.filter p).map key).Nodup :=
  hnodup.sublist (List.filter_sublist.map key)

theorem newestFirst_filter {rows : List α} (hnodup : (rows.map key).Nodup) (p : α → Bool) :
    newestFirst key (rows.filter p) = (newestFirst key rows).filter p :=
  (newestFirst_descending (nodup_filter hnodup p)).eq_of_perm
    ((newestFirst_descending hnodup).filter p)
    ((newestFirst_perm _).trans ((newestFirst_perm rows).filter p).symm)

theorem newestFirst_of_perm {rows rows' : List α} (hnodup : (rows.map key).Nodup)
    (h : rows'.Perm rows) : newestFirst key rows' = newestFirst key rows :=
  (newestFirst_descending ((h.map key).nodup_iff.2 hnodup)).eq_of_perm
    (newestFirst_descending hnodup) ((newestFirst_perm _).trans (h.trans (newestFirst_perm _).symm))

/-- Upwards is downwards, read from the end. -/
theorem oldestFirst_eq_reverse {rows : List α} (hnodup : (rows.map key).Nodup) :
    oldestFirst key rows = (newestFirst key rows).reverse := by
  have h : (oldestFirst key rows).reverse = newestFirst key rows :=
    (oldestFirst_descending hnodup).eq_of_perm (newestFirst_descending hnodup)
      ((List.reverse_perm _).trans ((oldestFirst_perm rows).trans (newestFirst_perm rows).symm))
  rw [← h, List.reverse_reverse]

/-- The rows below the last one of a page are the rest. -/
theorem Descending.filter_below {l rest : List α} {x : α}
    (h : Descending key (l ++ x :: rest)) :
    (l ++ x :: rest).filter (fun a => key a < key x) = rest := by
  obtain ⟨-, hrest, hcross⟩ := List.pairwise_append.1 h
  have hbelow := (List.pairwise_cons.1 hrest).1
  rw [List.filter_append, List.filter_cons_of_neg (by simp)]
  rw [List.filter_eq_nil_iff.2 fun a ha => by simpa using (hcross a ha x (by simp)).le]
  rw [List.nil_append, List.filter_eq_self]
  intro a ha
  exact decide_eq_true (hbelow a ha)

/-! ## Both sides of a page

A query takes the rows from some key down, and a page is the first of them.
-/

section Page

variable {rows : List α} (hnodup : (rows.map key).Nodup) {taken : α → Bool}
  (hdown : ∀ {a b}, taken b = true → key a < key b → taken a = true) {n : ℕ}
include hnodup hdown

/-- There are more than the page holds if and only if a row is below its last. -/
theorem more_iff {last : α}
    (hlast : last ∈ ((newestFirst key (rows.filter taken)).take n).getLast?) :
    n < (rows.filter taken).length ↔ ∃ e ∈ rows, key e < key last := by
  have hperm : (newestFirst key (rows.filter taken)).Perm _ := newestFirst_perm _
  have hdesc := newestFirst_descending (nodup_filter hnodup taken)
  rw [← hperm.length_eq]
  have hmem : ∀ {e}, e ∈ newestFirst key (rows.filter taken) ↔ e ∈ rows ∧ taken e = true :=
    hperm.mem_iff.trans List.mem_filter
  generalize newestFirst key (rows.filter taken) = l at hlast hdesc hmem
  obtain ⟨init, hinit⟩ := List.getLast?_eq_some_iff.1 hlast
  have hsplit : l = init ++ last :: l.drop n := by
    conv_lhs => rw [← List.take_append_drop n l, hinit]
    simp
  have htaken := (hmem.1 (hsplit ▸ List.mem_append_right init List.mem_cons_self)).2
  rw [hsplit, Descending, List.pairwise_append, List.pairwise_cons] at hdesc
  obtain ⟨-, ⟨hbelow, -⟩, habove⟩ := hdesc
  constructor
  · intro hlt
    obtain ⟨e, rest, hrest⟩ := List.exists_cons_of_ne_nil
      (List.ne_nil_of_length_pos (by rw [List.length_drop]; omega : 0 < (l.drop n).length))
    have he : e ∈ l.drop n := hrest ▸ List.mem_cons_self
    exact ⟨e, (hmem.1 (List.mem_of_mem_drop he)).1, hbelow e he⟩
  · rintro ⟨e, he, hlt⟩
    -- it is taken as well, and behind the page
    have hl : e ∈ init ++ last :: l.drop n := hsplit ▸ hmem.2 ⟨he, hdown htaken hlt⟩
    rcases List.mem_append.1 hl with hin | hin
    · exact absurd hlt (habove e hin last List.mem_cons_self).asymm
    · rcases List.mem_cons.1 hin with rfl | hin
      · exact absurd hlt (lt_irrefl _)
      · have hpos := List.length_pos_of_mem hin
        rw [List.length_drop] at hpos
        omega

/-- A row is left out if and only if one is above the first. -/
theorem untaken_iff {first : α}
    (hfirst : first ∈ ((newestFirst key (rows.filter taken)).take n).head?) :
    (∃ e ∈ rows, taken e = false) ↔ ∃ e ∈ rows, key first < key e := by
  have hperm : (newestFirst key (rows.filter taken)).Perm _ := newestFirst_perm _
  have hdesc := newestFirst_descending (nodup_filter hnodup taken)
  have hmem : ∀ {e}, e ∈ newestFirst key (rows.filter taken) ↔ e ∈ rows ∧ taken e = true :=
    hperm.mem_iff.trans List.mem_filter
  generalize newestFirst key (rows.filter taken) = l at hfirst hdesc hmem
  obtain ⟨rest, rfl⟩ : ∃ rest, l = first :: rest := by
    rw [List.head?_take] at hfirst
    split at hfirst
    · cases hfirst
    · exact List.head?_eq_some_iff.1 hfirst
  obtain ⟨hrows, htaken⟩ := hmem.1 List.mem_cons_self
  constructor
  · rintro ⟨e, he, hout⟩
    refine ⟨e, he, ?_⟩
    by_contra hnot
    have hin : taken e = true := by
      rcases (not_lt.1 hnot).lt_or_eq with hlt | heq
      · exact hdown htaken hlt
      · exact (List.inj_on_of_nodup_map hnodup he hrows heq) ▸ htaken
    rw [hin] at hout
    cases hout
  · rintro ⟨e, he, hlt⟩
    refine ⟨e, he, Bool.eq_false_iff.2 fun hin => ?_⟩
    rcases List.mem_cons.1 (hmem.2 ⟨he, hin⟩) with rfl | hin
    · exact lt_irrefl _ hlt
    · exact hlt.asymm ((List.pairwise_cons.1 hdesc).1 e hin)

end Page

end BlockMiner.Keyset
