import BlockMiner.Transactions
import Mathlib.Algebra.BigOperators.Group.List.Basic
import Mathlib.Tactic.Abel

/-!
# Unique indexes and accounts

Rules for transactions under row locks, each with its obligations for the
steps of the programs.

- `kept_run`: the invariant rule, where the property needs no condition on the
  steps.
- `UniqueIndex`: if a write locks the keys it enters in an index, and only
  enters keys that its transaction does not see, no key is in the index twice,
  in any interleaving. What a transaction does not see may be pending in
  another one; the locks exclude that.
- `Account`: if the writes a transaction has pending add up to what its point
  says it still owes, and it owes nothing when it commits, a value that each
  write changes by a fixed amount is the same in every committed state.
- `Alone.run`: a call that meets no other one runs from its start to its end.
-/

namespace BlockMiner.Transactions

variable {δ ω κ ρ π α : Type*} (T : Transactions δ ω κ ρ π α)

/-! ## The invariant rule without a condition -/

section Kept

variable [DecidableEq κ] {I : δ → Prop} {J : δ → Tx ω π → Prop}
variable
  (hstart : ∀ db r p, I db → T.start r = some p → J db ⟨p, []⟩)
  (hresume : ∀ db tx a next, I db → J db tx →
    T.step tx.point (T.view db tx) a = some next →
      I (T.dbAfter db tx next) ∧ ∀ tx' ∈ tx.after next, J (T.dbAfter db tx next) tx')
  (hstable : ∀ db tx a next tx', I db → J db tx →
    T.step tx.point (T.view db tx) a = some next → J db tx' →
    (∀ k, k ∈ T.held tx ∨ k ∈ T.needs tx.point a → k ∉ T.held tx') →
      J (T.dbAfter db tx next) tx')
include hstart hresume hstable

theorem kept_step {s s' : InFlight δ (Tx ω π)} {e : Event ρ α} (hs : T.Holds I J s)
    (h : T.stepTx s e = some s') : T.Holds I J s' := by
  refine T.holds_step (C := fun _ _ _ => True) hstart ?_ ?_ hs ?_ h
  · exact fun db tx a next hdb htx _ => hresume db tx a next hdb htx
  · exact fun db tx a next tx' hdb htx _ => hstable db tx a next tx' hdb htx
  · cases e with
    | start r => trivial
    | resume call a => exact fun _ _ => trivial

theorem kept_run {s t : InFlight δ (Tx ω π)} {es : List (Event ρ α)} (hs : T.Holds I J s)
    (hrun : T.sys.run s es = some t) : T.Holds I J t :=
  T.sys.run_kept (fun _ _ _ hs h => T.kept_step hstart hresume hstable hs h) hs hrun

end Kept

/-! ## Unique indexes -/

/-- What a step may do to an index. -/
def Admits {ι : Type*} (keys : δ → List ι) (entered : ω → List ι) (v : δ) : Next δ ω π → Prop
  | .write w _ => (entered w).Nodup ∧ ∀ k ∈ entered w, k ∉ keys v
  | .put f _ => ∀ db, keys (f db) = keys db
  | .goto _ | .commit _ | .rollback _ => True

structure UniqueIndex (ι : Type*) where
  keys : δ → List ι
  /-- The keys a write enters. -/
  entered : ω → List ι
  lock : ι → κ
  keys_apply : ∀ db w, (keys (T.apply db w)).Perm (entered w ++ keys db)
  locked : ∀ w, ∀ k ∈ entered w, lock k ∈ T.locks w
  admits : ∀ {p v a next}, T.step p v a = some next → Admits keys entered v next

namespace UniqueIndex

variable {T} {ι : Type*} (X : T.UniqueIndex ι)

def pending (tx : Tx ω π) : List ι := tx.writes.flatMap X.entered

theorem keys_view (db : δ) (tx : Tx ω π) :
    (X.keys (T.view db tx)).Perm (X.pending tx ++ X.keys db) := by
  obtain ⟨p, ws⟩ := tx
  show (X.keys (T.applyAll db ws)).Perm (ws.flatMap X.entered ++ X.keys db)
  induction ws generalizing db with
  | nil => exact .refl _
  | cons w ws ih =>
      rw [applyAll_cons, List.flatMap_cons, List.append_assoc]
      refine (ih (T.apply db w)).trans (((X.keys_apply db w).append_left _).trans ?_)
      rw [← List.append_assoc, ← List.append_assoc]
      exact List.perm_append_comm.append_right _

theorem lock_held {tx : Tx ω π} {k : ι} (hk : k ∈ X.pending tx) : X.lock k ∈ T.held tx := by
  obtain ⟨w, hw, hkw⟩ := List.mem_flatMap.mp hk
  exact T.mem_held.mpr ⟨w, hw, X.locked w k hkw⟩

/-- What a call has pending is new, and no key twice. -/
def Distinct (db : δ) (tx : Tx ω π) : Prop := (X.pending tx ++ X.keys db).Nodup

theorem distinct_step [DecidableEq κ] {s s' : InFlight δ (Tx ω π)} {e : Event ρ α}
    (hs : T.Holds (fun db => (X.keys db).Nodup) X.Distinct s) (h : T.stepTx s e = some s') :
    T.Holds (fun db => (X.keys db).Nodup) X.Distinct s' := by
  refine T.kept_step ?_ ?_ ?_ hs h
  · exact fun _ _ _ hdb _ => hdb
  · intro db tx a next hdb htx hstep
    have hadmits := X.admits hstep
    have hview : (X.keys (T.view db tx)).Nodup := (X.keys_view db tx).nodup_iff.mpr htx
    cases next with
    | goto p => exact ⟨hdb, fun tx' h => by obtain rfl := Option.some.inj h; exact htx⟩
    | write w p =>
        refine ⟨hdb, fun tx' h => ?_⟩
        obtain rfl := Option.some.inj h
        have hall : (X.entered w ++ X.keys (T.view db tx)).Nodup :=
          List.nodup_append.mpr ⟨hadmits.1, hview, fun k hk k' hk' heq =>
            hadmits.2 k hk (heq ▸ hk')⟩
        have hperm : (X.pending ⟨p, tx.writes ++ [w]⟩ ++ X.keys db).Perm
            (X.entered w ++ X.keys (T.view db tx)) := by
          rw [pending, List.flatMap_append, List.flatMap_singleton]
          refine (List.perm_append_comm.append_right _).trans ?_
          rw [List.append_assoc]
          exact (X.keys_view db tx).symm.append_left _
        exact hperm.nodup_iff.mpr hall
    | put f next =>
        show (X.keys (f db)).Nodup ∧ ∀ tx' ∈ next.map _, (_ ++ X.keys (f db)).Nodup
        rw [hadmits db]
        refine ⟨hdb, fun tx' h => ?_⟩
        obtain ⟨p, -, rfl⟩ := Option.map_eq_some_iff.mp h
        exact htx
    | commit next =>
        refine ⟨hview, fun tx' h => ?_⟩
        obtain ⟨p, -, rfl⟩ := Option.map_eq_some_iff.mp h
        exact hview
    | rollback next =>
        refine ⟨hdb, fun tx' h => ?_⟩
        obtain ⟨p, -, rfl⟩ := Option.map_eq_some_iff.mp h
        exact hdb
  · intro db tx a next tx' _ htx hstep htx' hlocks
    have hadmits := X.admits hstep
    cases next with
    | goto p | write w p | rollback next => exact htx'
    | put f next =>
        show (_ ++ X.keys (f db)).Nodup
        rw [hadmits db]
        exact htx'
    | commit next =>
        have hperm := (X.keys_view db tx).append_left (X.pending tx')
        refine hperm.nodup_iff.mpr ?_
        obtain ⟨hpending, -, hnew⟩ := List.nodup_append.mp htx'
        refine List.nodup_append.mpr ⟨hpending, htx, fun k hk k' hk' => ?_⟩
        rintro rfl
        rcases List.mem_append.mp hk' with hother | hold
        · exact hlocks _ (.inl (X.lock_held hother)) (X.lock_held hk)
        · exact hnew k hk k hold rfl

/-- **Unique index.** No key is in the index twice, pending keys included. -/
theorem distinct_run [DecidableEq κ] {db : δ} (hdb : (X.keys db).Nodup)
    {es : List (Event ρ α)} {t : InFlight δ (Tx ω π)} (hrun : T.sys.run (idle db) es = some t) :
    T.Holds (fun db => (X.keys db).Nodup) X.Distinct t :=
  T.sys.run_kept (fun _ _ _ hs h => X.distinct_step hs h) (T.holds_idle hdb) hrun

end UniqueIndex

/-! ## Accounts -/

section Settles

variable {M : Type*} [AddCommGroup M]

/-- What a step may do to an account. -/
def Settles (value : δ → M) (change : ω → M) (debt : π → M) (p : π) : Next δ ω π → Prop
  | .goto p' => debt p' = debt p
  | .write w p' => debt p' = debt p + change w
  | .put f next => (∀ db, value (f db) = value db) ∧ ∀ p' ∈ next, debt p' = debt p
  | .commit next => debt p = 0 ∧ ∀ p' ∈ next, debt p' = 0
  | .rollback next => ∀ p' ∈ next, debt p' = 0

end Settles

structure Account (M : Type*) [AddCommGroup M] where
  value : δ → M
  /-- By how much a write changes the value. -/
  change : ω → M
  /-- How far the pending writes of a call at this point are off. -/
  debt : π → M
  value_apply : ∀ db w, value (T.apply db w) = value db + change w
  debt_start : ∀ {r p}, T.start r = some p → debt p = 0
  settles : ∀ {p v a next}, T.step p v a = some next → Settles value change debt p next

namespace Account

variable {T} {M : Type*} [AddCommGroup M] (X : T.Account M)

theorem value_view (db : δ) (tx : Tx ω π) :
    X.value (T.view db tx) = X.value db + (tx.writes.map X.change).sum := by
  obtain ⟨p, ws⟩ := tx
  show X.value (T.applyAll db ws) = _ + (ws.map X.change).sum
  induction ws generalizing db with
  | nil => simp
  | cons w ws ih =>
      rw [applyAll_cons, ih, X.value_apply, List.map_cons, List.sum_cons]
      abel

/-- The pending writes of a call are off by its debt. -/
def Owed (tx : Tx ω π) : Prop := (tx.writes.map X.change).sum = X.debt tx.point

/-- **Account.** Every committed state has the value of the first one. -/
theorem value_run [DecidableEq κ] {db : δ} {es : List (Event ρ α)} {t : InFlight δ (Tx ω π)}
    (hrun : T.sys.run (idle db) es = some t) :
    T.Holds (fun db' => X.value db' = X.value db) (fun _ => X.Owed) t := by
  refine T.kept_run ?_ ?_ ?_ (T.holds_idle rfl) hrun
  · intro _ r p _ h
    exact (X.debt_start h).symm
  · intro db' tx a next hvalue howed hstep
    have hsettles := X.settles hstep
    cases next with
    | goto p =>
        refine ⟨hvalue, fun tx' h => ?_⟩
        obtain rfl := Option.some.inj h
        exact howed.trans hsettles.symm
    | write w p =>
        refine ⟨hvalue, fun tx' h => ?_⟩
        obtain rfl := Option.some.inj h
        show ((tx.writes ++ [w]).map X.change).sum = X.debt p
        rw [List.map_append, List.sum_append, howed, hsettles]
        simp
    | put f next =>
        refine ⟨(hsettles.1 db').trans hvalue, fun tx' h => ?_⟩
        obtain ⟨p, hp, rfl⟩ := Option.map_eq_some_iff.mp h
        exact howed.trans (hsettles.2 p hp).symm
    | commit next =>
        refine ⟨?_, fun tx' h => ?_⟩
        · show X.value (T.view db' tx) = _
          rw [X.value_view, howed, hsettles.1, add_zero, hvalue]
        · obtain ⟨p, hp, rfl⟩ := Option.map_eq_some_iff.mp h
          exact (hsettles.2 p hp).symm
    | rollback next =>
        refine ⟨hvalue, fun tx' h => ?_⟩
        obtain ⟨p, hp, rfl⟩ := Option.map_eq_some_iff.mp h
        exact (hsettles p hp).symm
  · exact fun _ _ _ _ _ _ _ _ howed _ => howed

end Account

/-! ## A call alone -/

/-- A call that meets no other call ends and leaves `db'`, with these answers
to its statements from the `i`-th one on. -/
inductive Alone (answers : ℕ → α) : ℕ → δ → Tx ω π → δ → Prop
  | last {i : ℕ} {db db' : δ} {tx : Tx ω π} {next : Next δ ω π}
      (h : T.step tx.point (T.view db tx) (answers i) = some next)
      (hend : tx.after next = none) (hdb : T.dbAfter db tx next = db') : Alone answers i db tx db'
  | next {i : ℕ} {db db' : δ} {tx tx' : Tx ω π} {next : Next δ ω π}
      (h : T.step tx.point (T.view db tx) (answers i) = some next)
      (hafter : tx.after next = some tx')
      (rest : Alone answers (i + 1) (T.dbAfter db tx next) tx' db') : Alone answers i db tx db'

variable {T}

theorem Alone.run [DecidableEq κ] {answers : ℕ → α} {i : ℕ} {db db' : δ} {tx : Tx ω π}
    (h : T.Alone answers i db tx db') {calls : Table (Tx ω π)} {call : ℕ}
    (hrow : calls.row call = some tx) (hothers : ∀ j, j ≠ call → calls.row j = none) :
    ∃ n t, T.sys.run ⟨db, calls⟩
        ((List.range' i n).map fun j => .resume call (answers j)) = some t
      ∧ t.db = db' ∧ ∀ j, t.calls.row j = none := by
  have hfree : ∀ {calls : Table (Tx ω π)} ks, (∀ j, j ≠ call → calls.row j = none) →
      T.Free calls call ks := by
    intro calls ks hothers r hr
    by_cases hr' : r.1 = call
    · exact .inl hr'
    · have hnone := (hothers r.1 hr').symm.trans (Table.mem_rows.mp hr)
      cases hnone
  induction h generalizing calls with
  | @last i db db' tx next h hend hdb =>
      have hstep := T.stepTx_resume (s := ⟨db, calls⟩) hrow (hfree _ hothers) h
      rw [hend] at hstep
      refine ⟨1, _, (T.sys.run_cons_eq_some).mpr ⟨_, hstep, rfl⟩, hdb, fun j => ?_⟩
      show (calls.delete call).row j = none
      rw [Table.delete_row]
      split
      case isTrue => rfl
      case isFalse hj => exact hothers j hj
  | @next i db db' tx tx' next h hafter rest ih =>
      have hstep := T.stepTx_resume (s := ⟨db, calls⟩) hrow (hfree _ hothers) h
      rw [hafter] at hstep
      have hrow' : (calls.modify call fun _ => tx').row call = some tx' := by
        rw [Table.modify_row, if_pos rfl, hrow, Option.map_some]
      have hothers' : ∀ j, j ≠ call → (calls.modify call fun _ => tx').row j = none := by
        intro j hj
        rw [Table.modify_row, if_neg hj, hothers j hj]
      obtain ⟨n, t, hrun, hdb, hnone⟩ := ih hrow' hothers'
      exact ⟨n + 1, t, (T.sys.run_cons_eq_some).mpr ⟨_, hstep, hrun⟩, hdb, hnone⟩

end BlockMiner.Transactions
