import BlockMiner.Service
import Mathlib.Data.List.Forall2

/-!
# Two services side by side

Two services that get requests and answers which correspond. Where each start
and each answer keeps a relation of the databases and one of the calls, the
runs correspond, too: each event can happen in both or in neither, and the
relation holds wherever they get to. With one service against another that says
what it is for this is a simulation; with a service against itself it is what
the run does not depend on.
-/

namespace BlockMiner

/-! ## Options -/

section Options

variable {α β γ δ : Type*} {R : α → β → Prop} {R' : γ → δ → Prop} {x : Option α} {y : Option β}

theorem rel_refl {R : α → α → Prop} (hR : ∀ a, R a a) : ∀ {x : Option α}, Option.Rel R x x
  | none => .none
  | some a => .some (hR a)

theorem rel_map (h : Option.Rel R x y) {f : α → γ} {g : β → δ}
    (hfg : ∀ a b, R a b → R' (f a) (g b)) : Option.Rel R' (x.map f) (y.map g) := by
  cases h with
  | none => exact .none
  | some hab => exact .some (hfg _ _ hab)

theorem map_eq_map_of_rel (h : Option.Rel R x y) {f : α → γ} {g : β → γ}
    (hfg : ∀ a b, R a b → f a = g b) : x.map f = y.map g := by
  cases h with
  | none => rfl
  | some hab => exact congrArg some (hfg _ _ hab)

theorem rel_bind (h : Option.Rel R x y) {f : α → Option γ} {g : β → Option δ}
    (hfg : ∀ a b, R a b → Option.Rel R' (f a) (g b)) : Option.Rel R' (x.bind f) (y.bind g) := by
  cases h with
  | none => exact .none
  | some hab => exact hfg _ _ hab

theorem rel_join {x : Option (Option α)} {y : Option (Option β)}
    (h : Option.Rel (Option.Rel R) x y) : Option.Rel R x.join y.join := by
  cases h with
  | none => exact .none
  | some hab => exact hab

theorem rel_filter (h : Option.Rel R x y) {p : α → Bool} {q : β → Bool}
    (hpq : ∀ a b, R a b → p a = q b) : Option.Rel R (x.filter p) (y.filter q) := by
  cases h with
  | none => exact .none
  | some hab =>
    rw [Option.filter_some, Option.filter_some, hpq _ _ hab]
    split_ifs
    · exact .some hab
    · exact .none

theorem rel_getD (h : Option.Rel R x y) {a : α} {b : β} (hab : R a b) :
    R (x.getD a) (y.getD b) := by
  cases h with
  | none => exact hab
  | some h => exact h

theorem rel_any (h : Option.Rel R x y) {p : α → Bool} {q : β → Bool}
    (hpq : ∀ a b, R a b → p a = q b) : x.any p = y.any q := by
  cases h with
  | none => rfl
  | some hab => exact hpq _ _ hab

theorem rel_toList (h : Option.Rel R x y) : List.Forall₂ R x.toList y.toList := by
  cases h with
  | none => exact .nil
  | some hab => exact .cons hab .nil

end Options

/-! ## Tables -/

namespace Table

variable {α β : Type*}

/-- Two tables with the same ids, whose rows correspond. -/
structure Pairs (R : α → β → Prop) (t : Table α) (t' : Table β) : Prop where
  nextId : t.nextId = t'.nextId
  row : ∀ i, Option.Rel R (t.row i) (t'.row i)

section Writes

variable {R : α → β → Prop} {t : Table α} {t' : Table β}

theorem pairs_empty : Pairs R (empty : Table α) (empty : Table β) := ⟨rfl, fun _ => .none⟩

theorem Pairs.insert (h : Pairs R t t') {a : α} {b : β} (hab : R a b) :
    Pairs R (t.insert a) (t'.insert b) where
  nextId := congrArg (· + 1) h.nextId
  row i := by
    rw [insert_row, insert_row, ← h.nextId]
    split_ifs with hi
    · exact .some hab
    · exact h.row i

theorem Pairs.modify (h : Pairs R t t') {f : α → α} {g : β → β}
    (hfg : ∀ a b, R a b → R (f a) (g b)) (j : ℕ) : Pairs R (t.modify j f) (t'.modify j g) where
  nextId := h.nextId
  row i := by
    rw [modify_row, modify_row]
    split_ifs with hi
    · exact rel_map (h.row i) hfg
    · exact h.row i

theorem Pairs.delete (h : Pairs R t t') (j : ℕ) : Pairs R (t.delete j) (t'.delete j) where
  nextId := h.nextId
  row i := by
    rw [delete_row, delete_row]
    split_ifs with hi
    · exact .none
    · exact h.row i

/-- All rows correspond, in order. -/
theorem Pairs.rows (h : Pairs R t t') :
    List.Forall₂ (fun p q => p.1 = q.1 ∧ R p.2 q.2) t.rows t'.rows := by
  unfold Table.rows
  rw [← h.nextId]
  have hids : List.Forall₂ Eq (List.range t.nextId) (List.range t.nextId) := List.forall₂_refl _
  refine List.rel_filterMap (fun i j hij => ?_) hids
  rw [← hij]
  exact rel_map (h.row i) fun _ _ hab => ⟨rfl, hab⟩

end Writes

end Table

/-! ## Services -/

/-- The same thing happens to two services. -/
def Event.Pairs {ρ ρ' α α' : Type*} (Q : ρ → ρ' → Prop) (A : α → α' → Prop) :
    Event ρ α → Event ρ' α' → Prop
  | .start r, .start r' => Q r r'
  | .resume call a, .resume call' a' => call = call' ∧ A a a'
  | .start _, .resume _ _ | .resume _ _, .start _ => False

theorem Event.pairs_refl {ρ α : Type*} {Q : ρ → ρ → Prop} {A : α → α → Prop} (hQ : ∀ r, Q r r)
    (hA : ∀ a, A a a) : ∀ e : Event ρ α, Event.Pairs Q A e e
  | .start r => hQ r
  | .resume _ a => ⟨rfl, hA a⟩

theorem Event.pairs_mono {ρ ρ' α α' : Type*} {Q Q' : ρ → ρ' → Prop} {A A' : α → α' → Prop}
    (hQ : ∀ r r', Q r r' → Q' r r') (hA : ∀ a a', A a a' → A' a a') {e : Event ρ α}
    {e' : Event ρ' α'} (h : Event.Pairs Q A e e') : Event.Pairs Q' A' e e' := by
  cases e with
  | start r =>
    cases e' with
    | start r' => exact hQ r r' h
    | resume _ _ => exact h.elim
  | resume call a =>
    cases e' with
    | start _ => exact h.elim
    | resume call' a' => exact ⟨h.1, hA a a' h.2⟩

namespace Service

variable {δ δ' κ κ' ρ ρ' α α' : Type*} {S : Service δ κ ρ α} {S' : Service δ' κ' ρ' α'}
  {I : δ → δ' → Prop} {J : κ → κ' → Prop} {Q : ρ → ρ' → Prop} {A : α → α' → Prop}

structure Paired (I : δ → δ' → Prop) (J : κ → κ' → Prop) (s : InFlight δ κ)
    (s' : InFlight δ' κ') : Prop where
  db : I s.db s'.db
  calls : s.calls.Pairs J s'.calls

theorem pairs_advance {calls : Table κ} {calls' : Table κ'} (h : calls.Pairs J calls')
    {next : Option κ} {next' : Option κ'} (hnext : Option.Rel J next next') (call : ℕ) :
    (advance calls call next).Pairs J (advance calls' call next') := by
  cases hnext with
  | none => exact h.delete call
  | some hc => exact h.modify (fun _ _ _ => hc) call

theorem pairs_insert_all {calls : Table κ} {calls' : Table κ'} (h : calls.Pairs J calls')
    {cs : List κ} {cs' : List κ'} (hcs : List.Forall₂ J cs cs') :
    (cs.foldl Table.insert calls).Pairs J (cs'.foldl Table.insert calls') :=
  List.rel_foldl (fun _ _ h _ _ hc => h.insert hc) h hcs

section Rule

variable
  (hstart : ∀ db db' r r', I db db' → Q r r' →
    Option.Rel (fun out out' => I out.1 out'.1 ∧ List.Forall₂ J out.2 out'.2)
      (S.start db r) (S'.start db' r'))
  (hresume : ∀ db db' c c' a a', I db db' → J c c' → A a a' →
    Option.Rel (fun out out' => I out.1 out'.1 ∧ Option.Rel J out.2 out'.2)
      (S.resume db c a) (S'.resume db' c' a'))

include hstart hresume

theorem paired_step {s : InFlight δ κ} {s' : InFlight δ' κ'} (hs : Paired I J s s')
    {e : Event ρ α} {e' : Event ρ' α'} (he : Event.Pairs Q A e e') :
    Option.Rel (Paired I J) (S.step s e) (S'.step s' e') := by
  cases e with
  | start r =>
    cases e' with
    | resume _ _ => exact he.elim
    | start r' =>
      exact rel_map (hstart s.db s'.db r r' hs.db he) fun _ _ hout =>
        ⟨hout.1, pairs_insert_all hs.calls hout.2⟩
  | resume call a =>
    cases e' with
    | start _ => exact he.elim
    | resume call' a' =>
      obtain ⟨rfl, ha⟩ := he
      refine rel_bind (hs.calls.row call) fun c c' hc => ?_
      exact rel_map (hresume s.db s'.db c c' a a' hs.db hc ha) fun _ _ hout =>
        ⟨hout.1, pairs_advance hs.calls hout.2 call⟩

/-- **The rule for pairs.** Runs over events that correspond are both possible or neither. -/
theorem paired_run {es : List (Event ρ α)} {es' : List (Event ρ' α')}
    (hes : List.Forall₂ (Event.Pairs Q A) es es') :
    ∀ {s : InFlight δ κ} {s' : InFlight δ' κ'}, Paired I J s s' →
      Option.Rel (Paired I J) (S.sys.run s es) (S'.sys.run s' es') := by
  induction hes with
  | nil => exact fun hs => .some hs
  | cons he _ ih =>
    exact fun hs => rel_bind (paired_step hstart hresume hs he) fun _ _ => ih

end Rule

end Service

end BlockMiner
