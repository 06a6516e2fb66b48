import BlockMiner.Run
import BlockMiner.Table

/-!
# Services: requests that interleave at their awaits

A service handles requests over a shared database. A request runs from one
`await` to the next without interruption, so it is a sequence of atomic
steps: `start` runs it up to its first wait and says what it waits as (the
calls it leaves in flight), and `resume` continues a waiting call with the
answer it was waiting for. Between two steps of a call any other call may
move, and the database a call finds is whatever the others committed;
what it read earlier is kept in the call itself.

`invariant` is the rule for properties of the database that hold under a
condition on the steps: it asks for one lemma per kind of step, and threads
a property of the calls (what a call remembers about its own reads).
-/

namespace BlockMiner

/-- A database with the calls in flight on it. -/
structure InFlight (δ κ : Type*) where
  db : δ
  calls : Table κ

/-- The next thing to happen: a new request, or the answer to a waiting call. -/
inductive Event (ρ α : Type*) where
  | start (request : ρ)
  | resume (call : Nat) (answer : α)

/-- `none` where the step cannot happen. -/
structure Service (δ κ ρ α : Type*) where
  start : δ → ρ → Option (δ × List κ)
  resume : δ → κ → α → Option (δ × Option κ)

namespace Service

variable {δ κ ρ α : Type*} (S : Service δ κ ρ α)

/-- The calls after one of them has moved on, or ended. -/
def advance (calls : Table κ) (call : Nat) : Option κ → Table κ
  | some c => calls.modify call fun _ => c
  | none => calls.delete call

def step (s : InFlight δ κ) : Event ρ α → Option (InFlight δ κ)
  | .start r => (S.start s.db r).map fun out => ⟨out.1, out.2.foldl Table.insert s.calls⟩
  | .resume call a => (s.calls.row call).bind fun c =>
      (S.resume s.db c a).map fun out => ⟨out.1, advance s.calls call out.2⟩

def sys : System (InFlight δ κ) (Event ρ α) := ⟨S.step⟩

/-- A condition on resumed calls, as a condition on events. -/
def Guard (C : δ → κ → α → Prop) (s : InFlight δ κ) : Event ρ α → Prop
  | .start _ => True
  | .resume call a => ∀ c ∈ s.calls.row call, C s.db c a

instance decidableGuard {C : δ → κ → α → Prop} [∀ db c a, Decidable (C db c a)]
    (s : InFlight δ κ) : ∀ e : Event ρ α, Decidable (Guard C s e)
  | .start _ => inferInstanceAs (Decidable True)
  | .resume call a => inferInstanceAs (Decidable (∀ c ∈ s.calls.row call, C s.db c a))

theorem step_resume {s s' : InFlight δ κ} {call : Nat} {a : α}
    (h : S.step s (.resume call a) = some s') :
    ∃ c db next, s.calls.row call = some c ∧ S.resume s.db c a = some (db, next)
      ∧ s' = ⟨db, advance s.calls call next⟩ := by
  obtain ⟨c, hc, h⟩ := Option.bind_eq_some_iff.mp h
  obtain ⟨⟨db, next⟩, hr, rfl⟩ := Option.map_eq_some_iff.mp h
  exact ⟨c, db, next, hc, hr, rfl⟩

theorem step_start {s s' : InFlight δ κ} {r : ρ} (h : S.step s (.start r) = some s') :
    ∃ db cs, S.start s.db r = some (db, cs) ∧ s' = ⟨db, cs.foldl Table.insert s.calls⟩ := by
  obtain ⟨⟨db, cs⟩, hr, rfl⟩ := Option.map_eq_some_iff.mp h
  exact ⟨db, cs, hr, rfl⟩

/-- The step of a request whose start is known. -/
theorem step_of_start {db db' : δ} {cs : List κ} {calls : Table κ} {r : ρ}
    (h : S.start db r = some (db', cs)) :
    S.step ⟨db, calls⟩ (.start r) = some ⟨db', cs.foldl Table.insert calls⟩ := by
  simp [step, h]

theorem step_of_resume {db db' : δ} {c : κ} {next : Option κ} {calls : Table κ} {i : Nat} {a : α}
    (hc : calls.row i = some c) (h : S.resume db c a = some (db', next)) :
    S.step ⟨db, calls⟩ (.resume i a) = some ⟨db', advance calls i next⟩ := by
  simp [step, hc, h]

/-- A run that begins with a request. -/
theorem run_of_start {db db' : δ} {cs : List κ} {calls : Table κ} {r : ρ} {es : List (Event ρ α)}
    {t : InFlight δ κ} (h : S.start db r = some (db', cs))
    (hrun : S.sys.run ⟨db', cs.foldl Table.insert calls⟩ es = some t) :
    S.sys.run ⟨db, calls⟩ (.start r :: es) = some t :=
  (S.sys.run_cons_eq_some).mpr ⟨_, S.step_of_start h, hrun⟩

/-- A run that begins with a call that moves on. -/
theorem run_of_resume {db db' : δ} {c : κ} {next : Option κ} {calls : Table κ} {i : Nat} {a : α}
    {es : List (Event ρ α)} {t : InFlight δ κ} (hc : calls.row i = some c)
    (h : S.resume db c a = some (db', next))
    (hrun : S.sys.run ⟨db', advance calls i next⟩ es = some t) :
    S.sys.run ⟨db, calls⟩ (.resume i a :: es) = some t :=
  (S.sys.run_cons_eq_some).mpr ⟨_, S.step_of_resume hc h, hrun⟩

/-- A call in flight after an advance is the advanced one or another one. -/
theorem advance_row {calls : Table κ} {call i : Nat} {next : Option κ} {c : κ}
    (h : (advance calls call next).row i = some c) :
    (i = call ∧ next = some c) ∨ (i ≠ call ∧ calls.row i = some c) := by
  cases next with
  | none =>
      have h' : (if i = call then none else calls.row i) = some c := h
      split at h'
      case isTrue => cases h'
      case isFalse hne => exact Or.inr ⟨hne, h'⟩
  | some d =>
      have h' : (if i = call then (calls.row i).map fun _ => d else calls.row i) = some c := h
      split at h'
      case isTrue heq =>
        obtain ⟨_, -, rfl⟩ := Option.map_eq_some_iff.mp h'
        exact Or.inl ⟨heq, rfl⟩
      case isFalse hne => exact Or.inr ⟨hne, h'⟩

/-- When a call has ended, the others are left. -/
theorem advance_none_row {calls : Table κ} {call i : Nat} {c : κ}
    (h : (advance calls call none).row i = some c) : i ≠ call ∧ calls.row i = some c := by
  rcases advance_row h with ⟨-, hnone⟩ | hother
  · cases hnone
  · exact hother

theorem foldl_insert_row {i : Nat} {c : κ} :
    ∀ (cs : List κ) {calls : Table κ}, (cs.foldl Table.insert calls).row i = some c →
      c ∈ cs ∨ calls.row i = some c
  | [], _, h => Or.inr h
  | d :: cs, calls, h => by
      rcases foldl_insert_row cs h with hmem | hrow
      · exact Or.inl (List.mem_cons_of_mem d hmem)
      · rcases Table.insert_row_eq_some.mp hrow with ⟨-, rfl⟩ | hold
        · exact Or.inl (List.mem_cons_self ..)
        · exact Or.inr hold

/-- The calls after a request that waits as at most one call. -/
theorem start_row {next : Option κ} {calls : Table κ} {i : Nat} {d : κ}
    (h : (next.toList.foldl Table.insert calls).row i = some d) :
    (∃ i, calls.row i = some d) ∨ next = some d := by
  rcases foldl_insert_row _ h with hmem | hold
  · exact Or.inr (Option.mem_toList.mp hmem)
  · exact Or.inl ⟨i, hold⟩

/-- New calls do not disturb those in flight. -/
theorem foldl_insert_keeps {i : Nat} {c : κ} :
    ∀ (cs : List κ) {calls : Table κ}, calls.row i = some c →
      (cs.foldl Table.insert calls).row i = some c
  | [], _, h => h
  | d :: cs, _, h => foldl_insert_keeps cs (Table.insert_row_of_some h d)

/-- The call that moves on is the only one an advance changes. -/
theorem advance_keeps {calls : Table κ} {call i : Nat} {next : Option κ} {c : κ} (hi : i ≠ call)
    (h : calls.row i = some c) : (advance calls call next).row i = some c := by
  cases next with
  | none => exact (if_neg hi).trans h
  | some d => exact (if_neg hi).trans h

theorem advance_self {calls : Table κ} {call : Nat} {c d : κ} (h : calls.row call = some c) :
    (advance calls call (some d)).row call = some d := by
  show (if call = call then (calls.row call).map fun _ => d else calls.row call) = some d
  rw [if_pos rfl, h, Option.map_some]

/-- A weight of the calls, added up, changes by that of the call that moves. -/
theorem sum_advance {M : Type*} [AddCommGroup M] {calls : Table κ} {call : Nat} {c : κ}
    (h : calls.row call = some c) (next : Option κ) (w : κ → M) :
    (advance calls call next).sum (fun _ => w) = calls.sum (fun _ => w) - w c + next.elim 0 w := by
  cases next with
  | none => exact (Table.sum_delete h _).trans (add_zero _).symm
  | some d => exact Table.sum_modify h _ _

/-- The database satisfies `I` and every call in flight satisfies `J`, which
relates what the call remembers to the database. -/
def Holds (I : δ → Prop) (J : δ → κ → Prop) (s : InFlight δ κ) : Prop :=
  I s.db ∧ ∀ i c, s.calls.row i = some c → J s.db c

section Rule

variable {C : δ → κ → α → Prop} {I : δ → Prop} {J : δ → κ → Prop}
variable
  (hstart : ∀ db r db' cs, I db → S.start db r = some (db', cs) →
    I db' ∧ (∀ d, J db d → J db' d) ∧ ∀ c ∈ cs, J db' c)
  (hresume : ∀ db c a db' next, I db → J db c → C db c a → S.resume db c a = some (db', next) →
    I db' ∧ (∀ d, J db d → J db' d) ∧ ∀ c' ∈ next, J db' c')
include hstart hresume

theorem holds_step {s s' : InFlight δ κ} {e : Event ρ α} (hs : Holds I J s)
    (hC : Guard C s e) (h : S.step s e = some s') : Holds I J s' := by
  cases e with
  | start r =>
      obtain ⟨db, cs, hr, rfl⟩ := S.step_start h
      obtain ⟨hI, hkeep, hnew⟩ := hstart _ _ _ _ hs.1 hr
      refine ⟨hI, fun i c hc => ?_⟩
      rcases foldl_insert_row _ hc with hmem | hrow
      · exact hnew c hmem
      · exact hkeep c (hs.2 i c hrow)
  | resume call a =>
      obtain ⟨c, db, next, hc, hr, rfl⟩ := S.step_resume h
      obtain ⟨hI, hkeep, hnew⟩ := hresume _ _ _ _ _ hs.1 (hs.2 call c hc) (hC c hc) hr
      refine ⟨hI, fun i d hd => ?_⟩
      rcases advance_row hd with ⟨-, hnext⟩ | ⟨-, hrow⟩
      · exact hnew d hnext
      · exact hkeep d (hs.2 i d hrow)

/-- **Invariant rule.** What every step preserves, in runs whose resumed
calls all meet `C`. -/
theorem invariant {s t : InFlight δ κ} {es : List (Event ρ α)} (hs : Holds I J s)
    (hC : S.sys.Meets (Guard C) s es) (hrun : S.sys.run s es = some t) : Holds I J t :=
  S.sys.run_invariant (fun _ _ _ hs hC h => S.holds_step hstart hresume hs hC h) hs hC hrun

end Rule

/-- The rule for properties of the database alone. -/
theorem db_invariant {C : δ → κ → α → Prop} {I : δ → Prop}
    (hstart : ∀ db r db' cs, I db → S.start db r = some (db', cs) → I db')
    (hresume : ∀ db c a db' next, I db → C db c a → S.resume db c a = some (db', next) → I db')
    {s t : InFlight δ κ} {es : List (Event ρ α)} (hs : I s.db)
    (hC : S.sys.Meets (Guard C) s es) (hrun : S.sys.run s es = some t) : I t.db :=
  (S.invariant (J := fun _ _ => True)
    (fun db r db' cs hI h => ⟨hstart db r db' cs hI h, fun _ _ => trivial, fun _ _ => trivial⟩)
    (fun db c a db' next hI _ hC h =>
      ⟨hresume db c a db' next hI hC h, fun _ _ => trivial, fun _ _ => trivial⟩)
    ⟨hs, fun _ _ _ => trivial⟩ hC hrun).1

/-! ## Relations between the calls -/

/-- Any two of the calls are related. -/
def Apart (R : κ → κ → Prop) (calls : Table κ) : Prop :=
  ∀ i j c c', i ≠ j → calls.row i = some c → calls.row j = some c' → R c c'

section Apart

variable {R : κ → κ → Prop} {calls : Table κ}

/-- The call that moves on is related to the others. -/
theorem Apart.advance (h : Apart R calls) {call : Nat} {next : Option κ}
    (hnext : ∀ d ∈ next, ∀ i c, i ≠ call → calls.row i = some c → R c d ∧ R d c) :
    Apart R (advance calls call next) := by
  intro i j d d' hij hi hj
  rcases advance_row hi with ⟨rfl, hd⟩ | ⟨hi, hrowi⟩
  · rcases advance_row hj with ⟨rfl, -⟩ | ⟨hj, hrowj⟩
    · exact absurd rfl hij
    · exact (hnext d hd j d' hj hrowj).2
  · rcases advance_row hj with ⟨rfl, hd'⟩ | ⟨-, hrowj⟩
    · exact (hnext d' hd' i d hi hrowi).1
    · exact h i j d d' hij hrowi hrowj

theorem Apart.insert (h : Apart R calls) {d : κ}
    (hd : ∀ i c, calls.row i = some c → R c d ∧ R d c) : Apart R (calls.insert d) := by
  intro i j c c' hij hi hj
  rcases Table.insert_row_eq_some.mp hi with ⟨hnewi, rfl⟩ | holdi
  · rcases Table.insert_row_eq_some.mp hj with ⟨hnewj, -⟩ | holdj
    · exact absurd (hnewi.trans hnewj.symm) hij
    · exact (hd j c' holdj).2
  · rcases Table.insert_row_eq_some.mp hj with ⟨-, rfl⟩ | holdj
    · exact (hd i c holdi).1
    · exact h i j c c' hij holdi holdj

/-- New calls that any call is related to do not matter. -/
theorem Apart.foldl_insert {cs : List κ} (h : Apart R calls)
    (hcs : ∀ d ∈ cs, ∀ c, R c d ∧ R d c) : Apart R (cs.foldl Table.insert calls) := by
  induction cs generalizing calls with
  | nil => exact h
  | cons d cs ih =>
      have hd := hcs d List.mem_cons_self
      exact ih (h.insert fun _ c _ => hd c) fun d' hd' => hcs d' (List.mem_cons_of_mem d hd')

/-! ### At most one call of a kind -/

section Kind

variable {P : κ → Bool} {next : Option κ}

/-- Of two calls at most one is of the kind, and the call that moves on is of
it only if no other is. -/
theorem Apart.advance_kind (h : Apart (fun c c' => P c = true → P c' = false) calls) {call : Nat}
    (hnext : ∀ d, next = some d → P d = true → ∀ i c, i ≠ call → calls.row i = some c →
      P c = false) :
    Apart (fun c c' => P c = true → P c' = false) (Service.advance calls call next) := by
  refine h.advance fun d hd i c hne hi => ⟨fun hc => ?_, fun hs => hnext d hd hs i c hne hi⟩
  refine Bool.eq_false_iff.mpr fun hs => ?_
  rw [hnext d hd hs i c hne hi] at hc
  cases hc

theorem Apart.start_kind (h : Apart (fun c c' => P c = true → P c' = false) calls)
    (hnext : ∀ d, next = some d → P d = true → ∀ i c, calls.row i = some c → P c = false) :
    Apart (fun c c' => P c = true → P c' = false) (next.toList.foldl Table.insert calls) := by
  cases next with
  | none => exact h
  | some d =>
      refine h.insert fun i c hi => ⟨fun hc => ?_, fun hs => hnext d rfl hs i c hi⟩
      refine Bool.eq_false_iff.mpr fun hs => ?_
      rw [hnext d rfl hs i c hi] at hc
      cases hc

end Kind

end Apart

/-! ## A call on its own -/

/-- A call up to its end with nothing in between: each of its waits, at most
`n` of them, is answered by `a`. -/
def alone (a : α) : ℕ → δ → κ → Option δ
  | 0, _, _ => none
  | n + 1, db, c => (S.resume db c a).bind fun out => out.2.elim (some out.1) (alone a n out.1)

/-- A request on its own, which waits as at most one call. -/
def requestAlone (a : α) (n : ℕ) (db : δ) (r : ρ) : Option δ :=
  (S.start db r).bind fun out => out.2.head?.elim (some out.1) (S.alone a n out.1)

/-- It is a run of the service, whatever other calls are waiting. -/
theorem run_alone {a : α} {i : ℕ} {db' : δ} :
    ∀ {n : ℕ} {db : δ} {c : κ} {calls : Table κ}, S.alone a n db c = some db' →
      calls.row i = some c →
      ∃ k calls', S.sys.run ⟨db, calls⟩ (List.replicate k (.resume i a)) = some ⟨db', calls'⟩
        ∧ calls'.row i = none ∧ ∀ j, j ≠ i → calls'.row j = calls.row j := by
  intro n
  induction n with
  | zero =>
      intro db c calls h
      cases h
  | succ n ih =>
      intro db c calls h hrow
      obtain ⟨⟨db₁, next⟩, hres, h⟩ := Option.bind_eq_some_iff.mp h
      cases next with
      | none =>
          obtain rfl := Option.some.inj h
          refine ⟨1, advance calls i none, ?_, if_pos rfl, fun j hj => if_neg hj⟩
          exact S.run_of_resume hrow hres rfl
      | some d =>
          obtain ⟨k, calls', hrun, hdone, hothers⟩ := ih h (advance_self hrow)
          refine ⟨k + 1, calls', ?_, hdone, fun j hj => ?_⟩
          · exact S.run_of_resume hrow hres hrun
          · rw [hothers j hj]
            exact if_neg hj

end Service

end BlockMiner
