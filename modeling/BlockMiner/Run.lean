import Mathlib.Algebra.Group.Basic
import Mathlib.Data.List.Basic

/-!
# Runs of a guarded step function

A component is modelled by one executable step function: `step s i` is
`some s'` when label `i` is enabled in state `s`, and `none` otherwise.
Everything the environment decides (which call moves next, what a remote
service answers, what the clock shows) is part of the label, so a run is
determined by its start and its labels and can be evaluated.

Four rules carry the run-level results built on this file:

- `run_invariant`: what every step preserves under a condition `C` holds
  wherever a run whose steps all meet `C` can end (so, a run being any
  list of labels, in every state such a run passes through), and `run_kept`
  is the rule without a condition;
- `run_potential`: if every step moves a potential by exactly the flow
  charged to it, a run moves it by the sum of its flows;
- `run_change`: what a run has brought about was brought about by one step;
- `run_unwinding`: what relates a run to the run of some of its labels, step
  by step, relates their ends.
-/

namespace BlockMiner

/-- A guarded step function over states `σ` and labels `ι`. -/
structure System (σ ι : Type*) where
  step : σ → ι → Option σ

namespace System

variable {σ ι : Type*} (S : System σ ι)

/-- Take the labels in order; `none` as soon as one of them is not enabled. -/
def run : σ → List ι → Option σ
  | s, [] => some s
  | s, i :: is => (S.step s i).bind fun s' => run s' is

@[simp] theorem run_nil (s : σ) : S.run s [] = some s := rfl

theorem run_cons_eq_some {s t : σ} {i : ι} {is : List ι} :
    S.run s (i :: is) = some t ↔ ∃ s', S.step s i = some s' ∧ S.run s' is = some t := by
  simp [run, Option.bind_eq_some_iff]

/-- Every step of the run meets `C` in the state it is taken from. -/
def Meets (C : σ → ι → Prop) : σ → List ι → Prop
  | _, [] => True
  | s, i :: is => C s i ∧ ∀ s', S.step s i = some s' → Meets C s' is

/-- A condition that these labels meet in every state. -/
theorem meets_of_labels {C : σ → ι → Prop} :
    ∀ (s : σ) (is : List ι), (∀ i ∈ is, ∀ s, C s i) → S.Meets C s is
  | _, [], _ => trivial
  | s, i :: is, h =>
      ⟨h i List.mem_cons_self s,
        fun s' _ => meets_of_labels s' is fun j hj => h j (List.mem_cons_of_mem i hj)⟩

theorem meets_of_forall {C : σ → ι → Prop} (h : ∀ s i, C s i) (s : σ) (is : List ι) :
    S.Meets C s is :=
  S.meets_of_labels s is fun i _ s => h s i

instance decidableMeets {C : σ → ι → Prop} [∀ s i, Decidable (C s i)] :
    ∀ s is, Decidable (S.Meets C s is)
  | _, [] => inferInstanceAs (Decidable True)
  | s, i :: is =>
    have : DecidablePred fun s' => S.Meets C s' is := fun s' => decidableMeets s' is
    inferInstanceAs (Decidable (C s i ∧ ∀ s' ∈ S.step s i, S.Meets C s' is))

/-- The flows of the steps of a run, added up. -/
def total {M : Type*} [AddMonoid M] (flow : σ → ι → M) : σ → List ι → M
  | _, [] => 0
  | s, i :: is => flow s i + ((S.step s i).map fun s' => total flow s' is).getD 0

/-- **Invariant rule.** Induction on the labels: a step that meets `C` keeps
`I`, hence so does a run whose steps all meet `C`. -/
theorem run_invariant {C : σ → ι → Prop} {I : σ → Prop}
    (hstep : ∀ s i s', I s → C s i → S.step s i = some s' → I s') :
    ∀ {is : List ι} {s t : σ}, I s → S.Meets C s is → S.run s is = some t → I t
  | [], s, t, hs, _, hrun => by
      obtain rfl := Option.some.inj hrun
      exact hs
  | i :: is, s, t, hs, hC, hrun => by
      obtain ⟨s', hs', hrun'⟩ := (S.run_cons_eq_some).mp hrun
      exact run_invariant hstep (hstep s i s' hs hC.1 hs') (hC.2 s' hs') hrun'

/-- What every step keeps, whatever its label. -/
theorem run_kept {I : σ → Prop} (hstep : ∀ s i s', I s → S.step s i = some s' → I s')
    {is : List ι} {s t : σ} (hs : I s) (hrun : S.run s is = some t) : I t :=
  S.run_invariant (C := fun _ _ => True) (fun s i s' hs _ h => hstep s i s' hs h) hs
    (S.meets_of_forall (fun _ _ => trivial) s is) hrun

/-- What holds at the end of a run and not at its start was brought about by
one of its steps. -/
theorem run_change {Q : σ → Prop} {t : σ} (ht : Q t) :
    ∀ {is : List ι} {s : σ}, ¬Q s → S.run s is = some t →
      ∃ is₁ i is₂ s₁ s₂, is = is₁ ++ i :: is₂ ∧ S.run s is₁ = some s₁ ∧ S.step s₁ i = some s₂
        ∧ ¬Q s₁ ∧ Q s₂
  | [], s, hs, hrun => by
      obtain rfl := Option.some.inj hrun
      exact absurd ht hs
  | i :: is, s, hs, hrun => by
      obtain ⟨s', hstep, hrest⟩ := (S.run_cons_eq_some).mp hrun
      by_cases hs' : Q s'
      · exact ⟨[], i, is, s, s', rfl, rfl, hstep, hs, hs'⟩
      · obtain ⟨is₁, j, is₂, s₁, s₂, rfl, hbefore, hj, hnot, hQ⟩ := run_change ht hs' hrest
        exact ⟨i :: is₁, j, is₂, s₁, s₂, rfl, (S.run_cons_eq_some).mpr ⟨s', hstep, hbefore⟩,
          hj, hnot, hQ⟩

/-- A condition on the steps of a run is one on each of them. -/
theorem meets_at {C : σ → ι → Prop} {i : ι} {is₂ : List ι} {s₁ : σ} :
    ∀ {is₁ : List ι} {s : σ}, S.Meets C s (is₁ ++ i :: is₂) → S.run s is₁ = some s₁ → C s₁ i
  | [], s, hC, hrun => by
      obtain rfl := Option.some.inj hrun
      exact hC.1
  | _ :: _, s, hC, hrun => by
      obtain ⟨s', hstep, hrest⟩ := (S.run_cons_eq_some).mp hrun
      exact meets_at (hC.2 s' hstep) hrest

/-- **Potential rule.** If every step that meets `C` from an `I`-state keeps
`I` and moves `φ` by its flow, a run moves `φ` by the sum of its flows. -/
theorem run_potential {M : Type*} [AddMonoid M] {C : σ → ι → Prop} {I : σ → Prop}
    {φ : σ → M} {flow : σ → ι → M}
    (hstep : ∀ s i s', I s → C s i → S.step s i = some s' →
      I s' ∧ φ s' = φ s + flow s i) :
    ∀ {is : List ι} {s t : σ}, I s → S.Meets C s is → S.run s is = some t →
      φ t = φ s + S.total flow s is
  | [], s, t, _, _, hrun => by
      obtain rfl := Option.some.inj hrun
      simp [total]
  | i :: is, s, t, hs, hC, hrun => by
      obtain ⟨s', hs', hrun'⟩ := (S.run_cons_eq_some).mp hrun
      obtain ⟨hI, hφ⟩ := hstep s i s' hs hC.1 hs'
      have ih := run_potential hstep hI (hC.2 s' hs') hrun'
      rw [ih, hφ, total, hs', add_assoc]
      rfl

/-- Two conditions that agree in the states of a run agree on the run. -/
theorem meets_iff {C P Q : σ → ι → Prop} {I : σ → Prop}
    (hstep : ∀ s i s', I s → C s i → S.step s i = some s' → I s')
    (h : ∀ s i, I s → C s i → (P s i ↔ Q s i)) :
    ∀ {is : List ι} {s : σ}, I s → S.Meets C s is → (S.Meets P s is ↔ S.Meets Q s is)
  | [], _, _, _ => Iff.rfl
  | i :: _, s, hs, hC => and_congr (h s i hs hC.1) <| forall_congr' fun s' =>
      imp_congr_right fun hs' => meets_iff hstep h (hstep s i s' hs hC.1 hs') (hC.2 s' hs')

/-- Two conditions agree on a run if they agree in the states that the steps
meeting the first lead to. -/
theorem meets_iff_of_kept {P Q : σ → ι → Prop} {I : σ → Prop}
    (hstep : ∀ s i s', I s → P s i → S.step s i = some s' → I s')
    (h : ∀ s i, I s → (P s i ↔ Q s i)) {is : List ι} :
    ∀ {s : σ}, I s → (S.Meets P s is ↔ S.Meets Q s is) := by
  induction is with
  | nil => exact fun _ => Iff.rfl
  | cons i is ih =>
      intro s hs
      rw [Meets, Meets, ← h s i hs, and_congr_right_iff]
      intro hP
      exact forall_congr' fun s' => imp_congr_right fun hs' => ih (hstep s i s' hs hP hs')

/-- **Unwinding rule.** `R` relates a state to one that another run has
reached by the labels that are `mine` alone. If the other labels leave the
relation alone, and each of mine that meets `C` is enabled on both sides and
keeps it, then so does a run against the run of my labels. -/
theorem run_unwinding {C : σ → ι → Prop} {R : σ → σ → Prop} (mine : ι → Bool)
    (hother : ∀ s s' i t, R s s' → mine i = false → S.step s i = some t → R t s')
    (hmine : ∀ s s' i t, R s s' → mine i = true → C s i → S.step s i = some t →
      ∃ t', S.step s' i = some t' ∧ R t t') :
    ∀ {is : List ι} {s s' t : σ}, R s s' → S.Meets C s is → S.run s is = some t →
      ∃ t', S.run s' (is.filter mine) = some t' ∧ R t t'
  | [], s, s', t, hR, _, hrun => by
      obtain rfl := Option.some.inj hrun
      exact ⟨s', rfl, hR⟩
  | i :: is, s, s', t, hR, hC, hrun => by
      obtain ⟨s₁, hs₁, hrest⟩ := (S.run_cons_eq_some).mp hrun
      cases hi : mine i with
      | false =>
          rw [List.filter_cons_of_neg (by simp [hi])]
          exact run_unwinding mine hother hmine (hother s s' i s₁ hR hi hs₁) (hC.2 s₁ hs₁) hrest
      | true =>
          obtain ⟨s₁', hs₁', hR₁⟩ := hmine s s' i s₁ hR hi hC.1 hs₁
          obtain ⟨t', ht', hRt⟩ := run_unwinding mine hother hmine hR₁ (hC.2 s₁ hs₁) hrest
          rw [List.filter_cons_of_pos hi]
          exact ⟨t', (S.run_cons_eq_some).mpr ⟨s₁', hs₁', ht'⟩, hRt⟩

/-! ### Two systems side by side -/

section Both

variable {τ κ : Type*} (T : System τ κ)

/-- Two systems that share nothing. A label moves one of them. -/
def both : System (σ × τ) (ι ⊕ κ) where
  step s
    | .inl i => (S.step s.1 i).map fun s' => (s', s.2)
    | .inr k => (T.step s.2 k).map fun t' => (s.1, t')

/-- However their labels are mixed, each runs by its own. -/
theorem run_both {t' : τ} {s' : σ} :
    ∀ {is : List (ι ⊕ κ)} {s : σ} {t : τ},
      (S.both T).run (s, t) is = some (s', t') ↔
        S.run s (is.filterMap Sum.getLeft?) = some s'
          ∧ T.run t (is.filterMap Sum.getRight?) = some t'
  | [], s, t => by simp
  | .inl i :: is, s, t => by
      simp only [run_cons_eq_some, both, Option.map_eq_some_iff, List.filterMap_cons,
        Sum.getLeft?_inl, Sum.getRight?_inl]
      constructor
      · rintro ⟨_, ⟨s₁, hs₁, rfl⟩, hrest⟩
        obtain ⟨hS, hT⟩ := run_both.mp hrest
        exact ⟨⟨s₁, hs₁, hS⟩, hT⟩
      · rintro ⟨⟨s₁, hs₁, hS⟩, hT⟩
        exact ⟨_, ⟨s₁, hs₁, rfl⟩, run_both.mpr ⟨hS, hT⟩⟩
  | .inr k :: is, s, t => by
      simp only [run_cons_eq_some, both, Option.map_eq_some_iff, List.filterMap_cons,
        Sum.getLeft?_inr, Sum.getRight?_inr]
      constructor
      · rintro ⟨_, ⟨t₁, ht₁, rfl⟩, hrest⟩
        obtain ⟨hS, hT⟩ := run_both.mp hrest
        exact ⟨hS, ⟨t₁, ht₁, hT⟩⟩
      · rintro ⟨hS, ⟨t₁, ht₁, hT⟩⟩
        exact ⟨_, ⟨t₁, ht₁, rfl⟩, run_both.mpr ⟨hS, hT⟩⟩

end Both

end System

/-! ## Operations that may be refused -/

section Refusals

variable {ε α β : Type*}

/-- A refused operation is not a step. -/
theorem toOption_eq_some {x : Except ε α} {a : α} : x.toOption = some a ↔ x = .ok a := by
  cases x <;> simp [Except.toOption]

/-- A check that was passed. -/
theorem ite_error_eq_ok {p : Prop} [Decidable p] {e : ε} {x : Except ε α} {a : α} :
    (if p then .error e else x) = .ok a ↔ ¬p ∧ x = .ok a := by
  split
  case isTrue hp => simp [hp]
  case isFalse hp => simp [hp]

/-- A last check that was passed. -/
theorem ite_ok_eq_ok {p : Prop} [Decidable p] {e : ε} {a b : α} :
    (if p then Except.ok a else .error e) = .ok b ↔ p ∧ a = b := by
  split
  case isTrue hp => simp [hp]
  case isFalse hp => simp [hp]

theorem bind_eq_ok {x : Except ε α} {f : α → Except ε β} {b : β} (h : x.bind f = .ok b) :
    ∃ a, x = .ok a ∧ f a = .ok b := by
  cases x with
  | error e => cases h
  | ok a => exact ⟨a, rfl, h⟩

theorem map_some_eq_ok {x : Except ε α} {a : α} (h : x.map some = .ok (some a)) : x = .ok a := by
  cases x with
  | error e => cases h
  | ok b => exact congrArg _ (Option.some.inj (Except.ok.inj h))

end Refusals

end BlockMiner
