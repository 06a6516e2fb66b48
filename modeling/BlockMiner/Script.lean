import Mathlib.Data.List.TakeWhile

/-!
# Requests as scripts, and the statement that fails

A request that has passed its checks runs a fixed list of actions: statements on
the database, of which those before the commit take effect with it or not at all,
and calls outside the database, which take effect at once. Any statement and the
commit may fail; the request ends there. A failure that the code catches is not
one of the request's.

What a run leaves is decided by the actions before the first that fails
(`reached`): the writes if the commit is among them, and as many effects as are.
-/

namespace BlockMiner

/-- An action of a request, over a database `δ` and statements named by `κ`. -/
inductive Action (κ δ : Type*) where
  | statement (name : κ) (write : δ → δ)
  | commit (name : κ)
  | effect
  | caught (name : κ)

/-- What a request leaves: the database, the effects, and whether it succeeded. -/
structure Outcome (δ : Type*) where
  db : δ
  effects : ℕ
  ok : Bool

namespace Script

variable {κ δ : Type*} (fails : κ → Bool)

/-- `db` is what is committed, `working` what the transaction has written. -/
def run (db working : δ) (effects : ℕ) : List (Action κ δ) → Outcome δ
  | [] => ⟨db, effects, true⟩
  | .statement name write :: rest =>
      if fails name then ⟨db, effects, false⟩ else run db (write working) effects rest
  | .commit name :: rest =>
      if fails name then ⟨db, effects, false⟩ else run working working effects rest
  | .effect :: rest => run db working (effects + 1) rest
  | .caught _ :: rest => run db working effects rest

def failing : Action κ δ → Bool
  | .statement name _ | .commit name => fails name
  | .effect | .caught _ => false

def isCommit : Action κ δ → Bool
  | .commit _ => true
  | _ => false

def isEffect : Action κ δ → Bool
  | .effect => true
  | _ => false

/-- The actions before the first that fails. -/
def reached (acts : List (Action κ δ)) : List (Action κ δ) :=
  acts.takeWhile fun a => !failing fails a

/-- The actions up to the first that is `p`. -/
def upTo (p : Action κ δ → Bool) : List (Action κ δ) → List (Action κ δ)
  | [] => []
  | a :: rest => if p a then [a] else a :: upTo p rest

/-- The statements' writes, one after the other. -/
def writes (db : δ) : List (Action κ δ) → δ
  | [] => db
  | .statement _ write :: rest => writes (write db) rest
  | _ :: rest => writes db rest

theorem reached_cons_of_failing {a : Action κ δ} {acts : List (Action κ δ)}
    (h : failing fails a = true) : reached fails (a :: acts) = [] := by
  simp [reached, h]

theorem reached_cons {a : Action κ δ} {acts : List (Action κ δ)} (h : failing fails a = false) :
    reached fails (a :: acts) = a :: reached fails acts := by
  simp [reached, h]

theorem reached_eq_self {acts : List (Action κ δ)} :
    reached fails acts = acts ↔ ∀ a ∈ acts, failing fails a = false := by
  simp [reached, List.takeWhile_eq_self_iff]

theorem mem_upTo {p : Action κ δ → Bool} {a : Action κ δ} {acts : List (Action κ δ)}
    (h : a ∈ upTo p acts) : a ∈ acts := by
  induction acts with
  | nil => cases h
  | cons b acts ih =>
      unfold upTo at h
      split at h
      case isTrue => exact List.mem_cons.mpr (Or.inl (List.mem_singleton.mp h))
      case isFalse =>
        rcases List.mem_cons.mp h with rfl | hmem
        · exact List.mem_cons_self
        · exact List.mem_cons_of_mem b (ih hmem)

theorem upTo_append {p : Action κ δ → Bool} {pre post : List (Action κ δ)} {a : Action κ δ}
    (hpre : ∀ b ∈ pre, p b = false) (ha : p a = true) :
    upTo p (pre ++ a :: post) = pre ++ [a] := by
  induction pre with
  | nil => simp [upTo, ha]
  | cons b pre ih =>
      simp [upTo, hpre b List.mem_cons_self, ih fun c hc => hpre c (List.mem_cons_of_mem b hc)]

/-- An action is reached when nothing fails up to it. -/
theorem exists_reached {p : Action κ δ → Bool} {acts : List (Action κ δ)} :
    (∃ a ∈ reached fails acts, p a = true)
      ↔ (∃ a ∈ acts, p a = true) ∧ ∀ a ∈ upTo p acts, failing fails a = false := by
  induction acts with
  | nil => simp [reached]
  | cons a acts ih =>
      cases hfails : failing fails a with
      | true =>
          rw [reached_cons_of_failing fails hfails]
          by_cases hp : p a = true <;> simp [upTo, hp, hfails]
      | false =>
          rw [reached_cons fails hfails]
          by_cases hp : p a = true
          · simp [upTo, hp, hfails]
          · simp [upTo, hp, hfails, ih]

/-- A request succeeds when nothing fails. -/
theorem run_ok {acts : List (Action κ δ)} {db working : δ} {effects : ℕ} :
    (run fails db working effects acts).ok = true ↔ ∀ a ∈ acts, failing fails a = false := by
  induction acts generalizing db working effects with
  | nil => simp [run]
  | cons a acts ih =>
      cases a with
      | statement name write | commit name =>
          cases hname : fails name <;> simp [run, failing, hname, ih]
      | effect | caught name => simp [run, failing, ih]

theorem run_effects {acts : List (Action κ δ)} {db working : δ} {effects : ℕ} :
    (run fails db working effects acts).effects
      = effects + (reached fails acts).countP isEffect := by
  induction acts generalizing db working effects with
  | nil => simp [run, reached]
  | cons a acts ih =>
      cases a with
      | statement name write | commit name =>
          cases hname : fails name <;> simp [run, failing, reached, isEffect, hname, ih]
      | effect =>
          simp only [run, ih, reached_cons fails (a := .effect) rfl, List.countP_cons, isEffect,
            if_true]
          omega
      | caught name => simp [run, failing, reached, isEffect, ih]

/-- The one effect of a request takes place when nothing fails up to it. -/
theorem run_effects_of_one {acts : List (Action κ δ)} {db working : δ}
    (hone : acts.countP isEffect = 1) :
    (run fails db working 0 acts).effects
      = if ∀ a ∈ upTo isEffect acts, failing fails a = false then 1 else 0 := by
  have hsome : ∃ a ∈ acts, isEffect a = true := List.countP_pos_iff.mp (by omega)
  have hle : (reached fails acts).countP isEffect ≤ 1 :=
    hone ▸ (List.takeWhile_sublist _).countP_le
  have hpos : 0 < (reached fails acts).countP isEffect
      ↔ ∀ a ∈ upTo isEffect acts, failing fails a = false := by
    rw [List.countP_pos_iff, exists_reached]
    exact and_iff_right hsome
  rw [run_effects]
  split
  case isTrue h =>
    have := hpos.mpr h
    omega
  case isFalse h =>
    have := mt hpos.mp h
    omega

/-- Without the commit the database is as before. -/
theorem run_db_of_not_commit {acts : List (Action κ δ)} {db working : δ} {effects : ℕ}
    (h : ∀ a ∈ reached fails acts, isCommit a = false) :
    (run fails db working effects acts).db = db := by
  induction acts generalizing working effects with
  | nil => rfl
  | cons a acts ih =>
      by_cases hfails : failing fails a = true
      · cases a with
        | statement name write | commit name => simp_all [run, failing]
        | effect | caught name => cases hfails
      · rw [reached_cons fails (by simpa using hfails)] at h
        have hrest : ∀ a ∈ reached fails acts, isCommit a = false :=
          fun a ha => h a (List.mem_cons_of_mem _ ha)
        cases a with
        | statement name write =>
            have hname : fails name = false := by simpa [failing] using hfails
            simpa [run, hname] using ih hrest
        | commit name => cases h _ List.mem_cons_self
        | effect => exact ih hrest
        | caught name => exact ih hrest

/-- With it, it holds what the transaction has written. -/
theorem run_db_of_commit {pre post : List (Action κ δ)} {name : κ} {db working : δ} {effects : ℕ}
    (hpre : ∀ a ∈ pre, isCommit a = false) (hpost : ∀ a ∈ post, isCommit a = false)
    (h : ∃ a ∈ reached fails (pre ++ .commit name :: post), isCommit a = true) :
    (run fails db working effects (pre ++ .commit name :: post)).db = writes working pre := by
  induction pre generalizing working effects with
  | nil =>
      have hname : fails name = false := by
        by_contra hfails
        rw [List.nil_append, reached_cons_of_failing fails (by simpa [failing] using hfails)] at h
        simp at h
      have hnone : ∀ a ∈ reached fails post, isCommit a = false :=
        fun a ha => hpost a ((List.takeWhile_prefix _).subset ha)
      simp [run, hname, writes, run_db_of_not_commit fails hnone]
  | cons a pre ih =>
      by_cases hfails : failing fails a = true
      · rw [List.cons_append, reached_cons_of_failing fails hfails] at h
        simp at h
      · rw [List.cons_append, reached_cons fails (by simpa using hfails)] at h
        have hrest : ∃ a ∈ reached fails (pre ++ .commit name :: post), isCommit a = true := by
          obtain ⟨c, hc, hcommit⟩ := h
          rcases List.mem_cons.mp hc with rfl | hmem
          · rw [hpre c List.mem_cons_self] at hcommit
            cases hcommit
          · exact ⟨c, hmem, hcommit⟩
        have hpre' : ∀ a ∈ pre, isCommit a = false := fun a ha => hpre a (List.mem_cons_of_mem _ ha)
        cases a with
        | statement name' write =>
            have hname : fails name' = false := by simpa [failing] using hfails
            simpa [run, hname, writes] using ih hpre' hrest
        | commit name' => cases hpre _ List.mem_cons_self
        | effect => exact ih hpre' hrest
        | caught name' => exact ih hpre' hrest

/-- A request with one commit leaves the writes before it, or nothing. -/
theorem run_db {pre post : List (Action κ δ)} {name : κ} {db working : δ} {effects : ℕ}
    (hpre : ∀ a ∈ pre, isCommit a = false) (hpost : ∀ a ∈ post, isCommit a = false) :
    (run fails db working effects (pre ++ .commit name :: post)).db
      = if ∀ a ∈ upTo isCommit (pre ++ .commit name :: post), failing fails a = false
        then writes working pre else db := by
  have hsome : ∃ a ∈ pre ++ Action.commit name :: post, isCommit a = true :=
    ⟨.commit name, by simp, rfl⟩
  split
  case isTrue h =>
    exact run_db_of_commit fails hpre hpost ((exists_reached fails).mpr ⟨hsome, h⟩)
  case isFalse h =>
    refine run_db_of_not_commit fails fun a ha => ?_
    by_contra hcommit
    exact h ((exists_reached fails).mp ⟨a, ha, by simpa using hcommit⟩).2

end Script

end BlockMiner
