import BlockMiner.Service

/-!
# Transactions under row locks

Requests whose statements run in transactions of a READ COMMITTED database.
A call in flight is a point of its program together with the writes its
open transaction has made so far (`Tx`). A statement sees the committed
database with the transaction's own writes on top (`view`); a write takes
the locks of the rows and index entries it touches and keeps them until the
transaction ends, and a statement that needs a lock another transaction holds
waits, i.e. the step is not enabled. `COMMIT` applies the writes, `ROLLBACK`
drops them. What a call does outside a transaction (a statement of its own,
a change in memory) takes effect at once (`Next.put`).

So another transaction can change what this one has read, and cannot change
what it has written. `invariant` is the rule that turns this into proofs: an
invariant of the committed database, and for every call what its pending
writes owe to it, which has to be stable under the commits of transactions
that hold other locks.
-/

namespace BlockMiner

/-- A call in flight: the point its program has reached, and the writes of
its open transaction, the oldest first. -/
structure Tx (ω π : Type*) where
  point : π
  writes : List ω

/-- How a program goes on after a statement. -/
inductive Next (δ ω π : Type*) where
  | goto (p : π)
  | write (w : ω) (p : π)
  /-- Outside the transaction, with effect at once. -/
  | put (f : δ → δ) (next : Option π)
  | commit (next : Option π)
  | rollback (next : Option π)

/-- The call after a step; `none` where it has ended. -/
def Tx.after {δ ω π : Type*} (tx : Tx ω π) : Next δ ω π → Option (Tx ω π)
  | .goto p => some ⟨p, tx.writes⟩
  | .write w p => some ⟨p, tx.writes ++ [w]⟩
  | .put _ next => next.map (⟨·, tx.writes⟩)
  | .commit next | .rollback next => next.map (⟨·, []⟩)

/-- Programs over a database `δ` with writes `ω` and locks `κ`. A request is
refused at once when `start` is `none`; `step` is what the statement at a
point does, from what it sees and the answer `α` of the environment. -/
structure Transactions (δ ω κ ρ π α : Type*) where
  apply : δ → ω → δ
  locks : ω → List κ
  start : ρ → Option π
  /-- The locks the statement at a point waits for. -/
  needs : π → α → List κ
  step : π → δ → α → Option (Next δ ω π)
  covers : ∀ {p db a w p'}, step p db a = some (.write w p') → ∀ k ∈ locks w, k ∈ needs p a

namespace Transactions

variable {δ ω κ ρ π α : Type*} (T : Transactions δ ω κ ρ π α)

def applyAll (db : δ) (writes : List ω) : δ := writes.foldl T.apply db

/-- What the statements of a call see. -/
def view (db : δ) (tx : Tx ω π) : δ := T.applyAll db tx.writes

def held (tx : Tx ω π) : List κ := tx.writes.flatMap T.locks

/-- The committed database after a step. -/
def dbAfter (db : δ) (tx : Tx ω π) : Next δ ω π → δ
  | .put f _ => f db
  | .commit _ => T.view db tx
  | .goto _ | .write _ _ | .rollback _ => db

/-- No other call holds one of these locks. -/
def Free (calls : Table (Tx ω π)) (call : Nat) (ks : List κ) : Prop :=
  ∀ r ∈ calls.rows, r.1 = call ∨ ∀ k ∈ ks, k ∉ T.held r.2

instance [DecidableEq κ] (calls : Table (Tx ω π)) (call : Nat) (ks : List κ) :
    Decidable (T.Free calls call ks) :=
  inferInstanceAs (Decidable (∀ r ∈ calls.rows, _))

section Step

variable [DecidableEq κ]

def stepTx (s : InFlight δ (Tx ω π)) : Event ρ α → Option (InFlight δ (Tx ω π))
  | .start r => some ⟨s.db, (T.start r).toList.foldl (fun calls p => calls.insert ⟨p, []⟩) s.calls⟩
  | .resume call a => (s.calls.row call).bind fun tx =>
      if T.Free s.calls call (T.needs tx.point a) then
        (T.step tx.point (T.view s.db tx) a).map fun next =>
          ⟨T.dbAfter s.db tx next, Service.advance s.calls call (tx.after next)⟩
      else none

def sys : System (InFlight δ (Tx ω π)) (Event ρ α) := ⟨T.stepTx⟩

end Step

/-! ## Views -/

@[simp] theorem view_start (db : δ) (p : π) : T.view db ⟨p, []⟩ = db := rfl

@[simp] theorem applyAll_nil (db : δ) : T.applyAll db [] = db := rfl

@[simp] theorem applyAll_cons (db : δ) (w : ω) (ws : List ω) :
    T.applyAll db (w :: ws) = T.applyAll (T.apply db w) ws := rfl

theorem applyAll_append (db : δ) (ws ws' : List ω) :
    T.applyAll db (ws ++ ws') = T.applyAll (T.applyAll db ws) ws' := List.foldl_append

theorem mem_held {tx : Tx ω π} {k : κ} : k ∈ T.held tx ↔ ∃ w ∈ tx.writes, k ∈ T.locks w :=
  List.mem_flatMap

theorem free_of_row {calls : Table (Tx ω π)} {call i : Nat} {ks : List κ} {tx : Tx ω π}
    (h : T.Free calls call ks) (hi : i ≠ call) (hrow : calls.row i = some tx) :
    ∀ k ∈ ks, k ∉ T.held tx :=
  (h (i, tx) (Table.mem_rows.mpr hrow)).resolve_left hi

/-- The new locks of a step were free. -/
theorem held_after {tx tx' : Tx ω π} {db : δ} {a : α} {next : Next δ ω π}
    (h : T.step tx.point db a = some next) (htx' : tx.after next = some tx') {k : κ}
    (hk : k ∈ T.held tx') : k ∈ T.held tx ∨ k ∈ T.needs tx.point a := by
  cases next with
  | goto p =>
      obtain rfl := Option.some.inj htx'
      exact Or.inl hk
  | write w p =>
      obtain rfl := Option.some.inj htx'
      obtain ⟨w', hw', hk'⟩ := T.mem_held.mp hk
      rcases List.mem_append.mp hw' with hold | hnew
      · exact Or.inl (T.mem_held.mpr ⟨w', hold, hk'⟩)
      · obtain rfl := List.mem_singleton.mp hnew
        exact Or.inr (T.covers h k hk')
  | put f next =>
      obtain ⟨p, -, rfl⟩ := Option.map_eq_some_iff.mp htx'
      exact Or.inl hk
  | commit next | rollback next =>
      obtain ⟨p, -, rfl⟩ := Option.map_eq_some_iff.mp htx'
      cases hk

/-! ## One step -/

section Rule

variable [DecidableEq κ]

theorem step_start {s s' : InFlight δ (Tx ω π)} {r : ρ} (h : T.stepTx s (.start r) = some s') :
    s'.db = s.db ∧ ∀ i tx, s'.calls.row i = some tx →
      (T.start r = some tx.point ∧ tx.writes = []) ∨ s.calls.row i = some tx := by
  obtain rfl := Option.some.inj h
  refine ⟨rfl, fun i tx hrow => ?_⟩
  cases hr : T.start r with
  | none => exact Or.inr (by simpa [hr] using hrow)
  | some p =>
      have hrow' : (s.calls.insert ⟨p, []⟩).row i = some tx := by simpa [hr] using hrow
      rcases Table.insert_row_eq_some.mp hrow' with ⟨-, rfl⟩ | hold
      · exact Or.inl ⟨rfl, rfl⟩
      · exact Or.inr hold

/-- **Inversion.** A call that moves, with the locks it needs free, does what
its program says. -/
theorem step_resume {s s' : InFlight δ (Tx ω π)} {call : Nat} {a : α}
    (h : T.stepTx s (.resume call a) = some s') :
    ∃ tx next, s.calls.row call = some tx ∧ T.Free s.calls call (T.needs tx.point a)
      ∧ T.step tx.point (T.view s.db tx) a = some next
      ∧ s' = ⟨T.dbAfter s.db tx next, Service.advance s.calls call (tx.after next)⟩ := by
  obtain ⟨tx, htx, h⟩ := Option.bind_eq_some_iff.mp h
  split at h
  case isTrue hfree =>
    obtain ⟨next, hnext, rfl⟩ := Option.map_eq_some_iff.mp h
    exact ⟨tx, next, htx, hfree, hnext, rfl⟩
  case isFalse => cases h

/-- A call whose locks are free can move. -/
theorem stepTx_resume {s : InFlight δ (Tx ω π)} {call : Nat} {a : α} {tx : Tx ω π}
    {next : Next δ ω π} (hrow : s.calls.row call = some tx)
    (hfree : T.Free s.calls call (T.needs tx.point a))
    (hstep : T.step tx.point (T.view s.db tx) a = some next) :
    T.stepTx s (.resume call a)
      = some ⟨T.dbAfter s.db tx next, Service.advance s.calls call (tx.after next)⟩ := by
  simp [stepTx, hrow, hfree, hstep]

omit [DecidableEq κ] in
theorem free_nil (calls : Table (Tx ω π)) (call : Nat) : T.Free calls call [] :=
  fun _ _ => .inr fun _ hk => nomatch hk

/-- A weight that no call has at its start, added up over the calls. -/
theorem sum_start {M : Type*} [AddCommGroup M] {s s' : InFlight δ (Tx ω π)} {r : ρ}
    (h : T.stepTx s (.start r) = some s') (w : Tx ω π → M)
    (hw : ∀ p, T.start r = some p → w ⟨p, []⟩ = 0) :
    s'.calls.sum (fun _ => w) = s.calls.sum fun _ => w := by
  obtain rfl := Option.some.inj h
  cases hr : T.start r with
  | none => rfl
  | some p =>
      show (s.calls.insert ⟨p, []⟩).sum _ = _
      rw [Table.sum_insert, hw p hr, add_zero]

/-! ## The invariant rule -/

/-- No lock is held twice. -/
def Exclusive (calls : Table (Tx ω π)) : Prop :=
  ∀ i j tx tx', i ≠ j → calls.row i = some tx → calls.row j = some tx' →
    ∀ k ∈ T.held tx, k ∉ T.held tx'

/-- The database satisfies `I`, every call satisfies `J`, which relates its
point and its pending writes to the database, and no lock is held twice. -/
structure Holds (I : δ → Prop) (J : δ → Tx ω π → Prop) (s : InFlight δ (Tx ω π)) : Prop where
  db : I s.db
  calls : ∀ i tx, s.calls.row i = some tx → J s.db tx
  locks : T.Exclusive s.calls

/-- A condition on the calls that move, as a condition on events. -/
def Guard (C : δ → Tx ω π → α → Prop) (s : InFlight δ (Tx ω π)) : Event ρ α → Prop
  | .start _ => True
  | .resume call a => ∀ tx ∈ s.calls.row call, C s.db tx a

instance decidableGuard {C : δ → Tx ω π → α → Prop} [∀ db tx a, Decidable (C db tx a)]
    (s : InFlight δ (Tx ω π)) : ∀ e : Event ρ α, Decidable (Guard C s e)
  | .start _ => inferInstanceAs (Decidable True)
  | .resume call a => inferInstanceAs (Decidable (∀ tx ∈ s.calls.row call, C s.db tx a))

theorem exclusive_step {s s' : InFlight δ (Tx ω π)} {e : Event ρ α} (hs : T.Exclusive s.calls)
    (h : T.stepTx s e = some s') : T.Exclusive s'.calls := by
  cases e with
  | start r =>
      obtain ⟨-, hrows⟩ := T.step_start h
      intro i j tx tx' hij hi hj k hk hk'
      rcases hrows i tx hi with ⟨-, hnil⟩ | hi
      · simp [held, hnil] at hk
      · rcases hrows j tx' hj with ⟨-, hnil⟩ | hj
        · simp [held, hnil] at hk'
        · exact hs i j tx tx' hij hi hj k hk hk'
  | resume call a =>
      obtain ⟨tx₀, next, hrow, hfree, hstep, rfl⟩ := T.step_resume h
      -- the call that moves against another one
      have hmoved : ∀ {i tx tx'}, i ≠ call → s.calls.row i = some tx →
          tx₀.after next = some tx' → ∀ k ∈ T.held tx', k ∉ T.held tx := by
        intro i tx tx' hi hrow' htx' k hk
        rcases T.held_after hstep htx' hk with hold | hnew
        · exact hs call i tx₀ tx hi.symm hrow hrow' k hold
        · exact T.free_of_row hfree hi hrow' k hnew
      intro i j tx tx' hij hi hj k hk hk'
      rcases Service.advance_row hi with ⟨rfl, htx⟩ | ⟨hi, hrowi⟩
      · rcases Service.advance_row hj with ⟨rfl, -⟩ | ⟨hj, hrowj⟩
        · exact hij rfl
        · exact hmoved hj hrowj htx k hk hk'
      · rcases Service.advance_row hj with ⟨rfl, htx'⟩ | ⟨-, hrowj⟩
        · exact hmoved hi hrowi htx' k hk' hk
        · exact hs i j tx tx' hij hrowi hrowj k hk hk'

theorem holds_start {I : δ → Prop} {J : δ → Tx ω π → Prop} {s s' : InFlight δ (Tx ω π)} {r : ρ}
    (hs : T.Holds I J s) (hstart : ∀ p, T.start r = some p → J s.db ⟨p, []⟩)
    (h : T.stepTx s (.start r) = some s') : T.Holds I J s' := by
  refine ⟨(T.step_start h).1 ▸ hs.db, fun i tx hi => ?_, T.exclusive_step hs.locks h⟩
  obtain ⟨hdb, hrows⟩ := T.step_start h
  rw [hdb]
  rcases hrows i tx hi with ⟨hr, hnil⟩ | hold
  · obtain ⟨p, ws⟩ := tx
    obtain rfl : ws = [] := hnil
    exact hstart p hr
  · exact hs.calls i tx hold

section Invariant

variable {C : δ → Tx ω π → α → Prop} {I : δ → Prop} {J : δ → Tx ω π → Prop}
variable
  (hstart : ∀ db r p, I db → T.start r = some p → J db ⟨p, []⟩)
  (hresume : ∀ db tx a next, I db → J db tx → C db tx a →
    T.step tx.point (T.view db tx) a = some next →
      I (T.dbAfter db tx next) ∧ ∀ tx' ∈ tx.after next, J (T.dbAfter db tx next) tx')
  (hstable : ∀ db tx a next tx', I db → J db tx → C db tx a →
    T.step tx.point (T.view db tx) a = some next → J db tx' →
    (∀ k, k ∈ T.held tx ∨ k ∈ T.needs tx.point a → k ∉ T.held tx') →
      J (T.dbAfter db tx next) tx')
include hresume hstable

theorem holds_resume {s s' : InFlight δ (Tx ω π)} {call : Nat} {a : α} (hs : T.Holds I J s)
    (hC : ∀ tx ∈ s.calls.row call, C s.db tx a) (h : T.stepTx s (.resume call a) = some s') :
    T.Holds I J s' := by
  have hlocks := T.exclusive_step hs.locks h
  obtain ⟨tx, next, hrow, hfree, hstep, rfl⟩ := T.step_resume h
  have htx := hs.calls call tx hrow
  have hkept := hresume s.db tx a next hs.db htx (hC tx hrow) hstep
  refine ⟨hkept.1, fun i tx' hi => ?_, hlocks⟩
  rcases Service.advance_row hi with ⟨-, htx'⟩ | ⟨hi, hrow'⟩
  · exact hkept.2 tx' htx'
  · refine hstable s.db tx a next tx' hs.db htx (hC tx hrow) hstep (hs.calls i tx' hrow') ?_
    rintro k (hk | hk)
    · exact hs.locks call i tx tx' hi.symm hrow hrow' k hk
    · exact T.free_of_row hfree hi hrow' k hk

include hstart

theorem holds_step {s s' : InFlight δ (Tx ω π)} {e : Event ρ α} (hs : T.Holds I J s)
    (hC : Guard C s e) (h : T.stepTx s e = some s') : T.Holds I J s' := by
  cases e with
  | start r => exact T.holds_start hs (fun p => hstart s.db r p hs.db) h
  | resume call a => exact T.holds_resume hresume hstable hs hC h

/-- **Invariant rule.** What every statement preserves of the database and of
its own call, and every commit of the calls that hold other locks, holds in
runs whose steps all meet `C`. -/
theorem invariant {s t : InFlight δ (Tx ω π)} {es : List (Event ρ α)} (hs : T.Holds I J s)
    (hC : T.sys.Meets (Guard C) s es) (hrun : T.sys.run s es = some t) : T.Holds I J t :=
  T.sys.run_invariant
    (fun _ _ _ hs hC h => T.holds_step hstart hresume hstable hs hC h) hs hC hrun

end Invariant

/-- A database with no call in flight. -/
def idle (db : δ) : InFlight δ (Tx ω π) := ⟨db, Table.empty⟩

end Rule

theorem sum_idle {M : Type*} [AddCommGroup M] (db : δ) (w : Tx ω π → M) :
    (idle db).calls.sum (fun _ => w) = 0 :=
  Table.sum_eq_zero fun _ _ hrow => (nomatch hrow)

theorem holds_idle {I : δ → Prop} {J : δ → Tx ω π → Prop} {db : δ} (h : I db) :
    T.Holds I J (idle db) :=
  ⟨h, fun _ _ hrow => (nomatch hrow), fun _ _ _ _ _ hrow => (nomatch hrow)⟩

/-! ## A call on its own -/

/-- A call up to its end with nothing in between: each of its statements, at most `n` of
them, is answered by `a`. -/
def solo (a : α) : ℕ → δ → Tx ω π → Option δ
  | 0, _, _ => none
  | n + 1, db, tx => (T.step tx.point (T.view db tx) a).bind fun next =>
      (tx.after next).elim (some (T.dbAfter db tx next)) (solo a n (T.dbAfter db tx next))

section Solo

variable {T} {a : α} {n : ℕ} {db db' : δ} {tx : Tx ω π}

theorem solo_goto {p : π} (hstep : T.step tx.point (T.view db tx) a = some (.goto p))
    (hrest : T.solo a n db ⟨p, tx.writes⟩ = some db') : T.solo a (n + 1) db tx = some db' := by
  rw [solo, hstep]
  exact hrest

theorem solo_write {w : ω} {p : π} (hstep : T.step tx.point (T.view db tx) a = some (.write w p))
    (hrest : T.solo a n db ⟨p, tx.writes ++ [w]⟩ = some db') :
    T.solo a (n + 1) db tx = some db' := by
  rw [solo, hstep]
  exact hrest

theorem solo_commit (hstep : T.step tx.point (T.view db tx) a = some (.commit none)) :
    T.solo a (n + 1) db tx = some (T.view db tx) := by
  rw [solo, hstep]
  rfl

theorem solo_rollback (hstep : T.step tx.point (T.view db tx) a = some (.rollback none)) :
    T.solo a (n + 1) db tx = some db := by
  rw [solo, hstep]
  rfl

end Solo

/-- It is a run of the transactions, whatever other calls are waiting without a lock. -/
theorem run_solo [DecidableEq κ] {a : α} {i : ℕ} {db' : δ} :
    ∀ {n : ℕ} {db : δ} {tx : Tx ω π} {calls : Table (Tx ω π)}, T.solo a n db tx = some db' →
      calls.row i = some tx →
      (∀ j tx', j ≠ i → calls.row j = some tx' → T.held tx' = []) →
      ∃ k calls', T.sys.run ⟨db, calls⟩ (List.replicate k (.resume i a)) = some ⟨db', calls'⟩
        ∧ calls'.row i = none := by
  intro n
  induction n with
  | zero =>
      intro db tx calls h
      cases h
  | succ n ih =>
      intro db tx calls h hrow hothers
      obtain ⟨next, hstep, h⟩ := Option.bind_eq_some_iff.mp h
      have hfree : T.Free calls i (T.needs tx.point a) := by
        rintro ⟨j, tx'⟩ hmem
        by_cases hj : j = i
        · exact Or.inl hj
        · right
          intro k _ hk
          rw [hothers j tx' hj (Table.mem_rows.mp hmem)] at hk
          cases hk
      have hmove := T.stepTx_resume (s := ⟨db, calls⟩) hrow hfree hstep
      cases hafter : tx.after next with
      | none =>
          rw [hafter] at h hmove
          obtain rfl := Option.some.inj h
          exact ⟨1, _, (T.sys.run_cons_eq_some).mpr ⟨_, hmove, rfl⟩, if_pos rfl⟩
      | some tx' =>
          rw [hafter] at h hmove
          obtain ⟨k, calls', hrun, hdone⟩ := ih h (Service.advance_self hrow) fun j tx₁ hj hj₁ => by
            rcases Service.advance_row hj₁ with ⟨rfl, -⟩ | ⟨-, hold⟩
            · exact absurd rfl hj
            · exact hothers j tx₁ hj hold
          exact ⟨k + 1, calls', (T.sys.run_cons_eq_some).mpr ⟨_, hmove, hrun⟩, hdone⟩

end Transactions

end BlockMiner
