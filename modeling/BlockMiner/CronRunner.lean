import BlockMiner.Service

/-!
# The runner of cron actions

`createCronActionRunner` keeps the keys of the actions in flight in one set. A
call is refused if its key is in the set, unless it allows concurrency; an
admitted call adds its key, awaits those of its callbacks that there are, and
removes the key however it ends. So a call that allows concurrency, when it ends,
removes the key that another call of its action still runs under.

A callback that throws at once is one that rejects with nothing in between. The
log is left out.
-/

namespace BlockMiner.CronRunner

inductive Stage where
  | prepare | validate | sanitize | execute | confirm
deriving DecidableEq

/-- The order of the callbacks. -/
def Stage.all : List Stage := [.prepare, .validate, .sanitize, .execute, .confirm]

structure Request where
  /-- `String(action)`, if there is one. -/
  action : Option String
  allowConcurrent : Bool
  /-- `typeof callback === "function"` -/
  isFunction : Stage → Bool

def Request.actionName (r : Request) : String :=
  (r.action.filter (· ≠ "")).getD "unnamed_action"

/-- The callbacks that there are, in their order. -/
def Request.callbacks (r : Request) : List Stage := Stage.all.filter r.isFunction

inductive Result where
  | ok
  | alreadyRunning
  | failed (stage : Stage) (reason : String)
deriving DecidableEq

/-- How a callback ends: an answer, of which validation and confirmation read `ok` and
`reason`, or an error. -/
inductive Settled where
  | resolved (ok : Bool) (reason : Option String)
  | rejected (reason : String)

/-- A call that waits for one of its callbacks, with those after it. -/
structure Call where
  request : Request
  stage : Stage
  rest : List Stage

structure Runner where
  cronName : String
  inFlight : List String
  /-- What the ended calls returned, the last first. -/
  results : List (Request × Result)

namespace Runner

variable (db : Runner)

def lockKey (r : Request) : String := db.cronName ++ ":" ++ r.actionName

def admits (r : Request) : Bool := r.allowConcurrent || !db.inFlight.contains (db.lockKey r)

def acquire (r : Request) : Runner :=
  if db.inFlight.contains (db.lockKey r) then db
  else { db with inFlight := db.inFlight ++ [db.lockKey r] }

/-- The `finally` block and the result. -/
def finish (r : Request) (result : Result) : Runner :=
  { db with
    inFlight := db.inFlight.filter (· ≠ db.lockKey r)
    results := (r, result) :: db.results }

/-- On to the next callback, or to the end. -/
def proceed (r : Request) : List Stage → Runner × Option Call
  | [] => (db.finish r .ok, none)
  | stage :: rest => (db, some ⟨r, stage, rest⟩)

/-- Why an answer of this stage ends the call. -/
def refusal (stage : Stage) (ok : Bool) (reason : Option String) : Option String :=
  match stage, ok with
  | .validate, false => some ((reason.filter (· ≠ "")).getD "validation_failed")
  | .confirm, false => some ((reason.filter (· ≠ "")).getD "not_confirmed")
  | _, _ => none

def runAction (r : Request) : Runner × Option Call :=
  if db.admits r then (db.acquire r).proceed r r.callbacks
  else ({ db with results := (r, .alreadyRunning) :: db.results }, none)

def settle (c : Call) : Settled → Runner × Option Call
  | .rejected reason => (db.finish c.request (.failed c.stage reason), none)
  | .resolved ok reason =>
      match refusal c.stage ok reason with
      | some why => (db.finish c.request (.failed c.stage why), none)
      | none => db.proceed c.request c.rest

end Runner

def service : Service Runner Call Request Settled where
  start db r := some ((db.runAction r).1, (db.runAction r).2.toList)
  resume db c a := some (db.settle c a)

def initial (cronName : String) : InFlight Runner Call := ⟨⟨cronName, [], []⟩, Table.empty⟩

/-! ## The steps -/

namespace Runner

variable (db : Runner) (r : Request)

@[simp] theorem finish_inFlight (result : Result) :
    (db.finish r result).inFlight = db.inFlight.filter (· ≠ db.lockKey r) := rfl

@[simp] theorem finish_lockKey (result : Result) : (db.finish r result).lockKey = db.lockKey := rfl

@[simp] theorem acquire_lockKey : (db.acquire r).lockKey = db.lockKey := by
  unfold acquire
  split <;> rfl

theorem mem_acquire {k : String} :
    k ∈ (db.acquire r).inFlight ↔ k ∈ db.inFlight ∨ k = db.lockKey r := by
  unfold acquire
  split
  case isTrue h =>
    have hmem : db.lockKey r ∈ db.inFlight := by simpa using h
    constructor
    · exact Or.inl
    · rintro (hk | rfl)
      · exact hk
      · exact hmem
  case isFalse => simp

theorem lockKey_inj {r r' : Request} :
    db.lockKey r = db.lockKey r' ↔ r.actionName = r'.actionName := by
  rw [lockKey, lockKey, String.append_right_inj]

/-- The keys in flight, once a call has ended that took its key. -/
theorem mem_finish_acquire {k : String} (result : Result) :
    k ∈ ((db.acquire r).finish r result).inFlight ↔ k ∈ db.inFlight ∧ k ≠ db.lockKey r := by
  rw [finish_inFlight, List.mem_filter, mem_acquire, acquire_lockKey, decide_eq_true_eq]
  constructor
  · rintro ⟨hk | hk, hne⟩
    · exact ⟨hk, hne⟩
    · exact absurd hk hne
  · exact fun ⟨hk, hne⟩ => ⟨Or.inl hk, hne⟩

theorem runAction_cases :
    (db.admits r = false ∧ (db.runAction r).1.inFlight = db.inFlight
      ∧ (db.runAction r).1.lockKey = db.lockKey ∧ (db.runAction r).2 = none)
    ∨ (db.admits r = true ∧ r.callbacks = []
      ∧ db.runAction r = ((db.acquire r).finish r .ok, none))
    ∨ (db.admits r = true ∧ r.callbacks ≠ []
      ∧ ∃ d, db.runAction r = (db.acquire r, some d) ∧ d.request = r) := by
  unfold runAction
  split
  case isTrue h =>
    cases hcb : r.callbacks with
    | nil => exact Or.inr (Or.inl ⟨h, rfl, rfl⟩)
    | cons stage rest => exact Or.inr (Or.inr ⟨h, List.cons_ne_nil _ _, _, rfl, rfl⟩)
  case isFalse h => exact Or.inl ⟨Bool.not_eq_true _ ▸ h, rfl, rfl, rfl⟩

end Runner

/-- With this answer the call is over. -/
def Call.ends (c : Call) : Settled → Bool
  | .rejected _ => true
  | .resolved ok reason => (Runner.refusal c.stage ok reason).isSome || c.rest.isEmpty

theorem Runner.settle_cases (db : Runner) (c : Call) (a : Settled) :
    (c.ends a = true ∧ ∃ result, db.settle c a = (db.finish c.request result, none))
    ∨ (c.ends a = false ∧ ∃ d, db.settle c a = (db, some d) ∧ d.request = c.request) := by
  cases a with
  | rejected reason => exact Or.inl ⟨rfl, _, rfl⟩
  | resolved ok reason =>
      cases hwhy : refusal c.stage ok reason with
      | some why =>
          exact Or.inl ⟨by simp [Call.ends, hwhy], .failed c.stage why, by simp [settle, hwhy]⟩
      | none =>
          cases hrest : c.rest with
          | nil =>
              exact Or.inl ⟨by simp [Call.ends, hrest], .ok, by simp [settle, hwhy, hrest, proceed]⟩
          | cons stage rest =>
              exact Or.inr ⟨by simp [Call.ends, hwhy, hrest], ⟨c.request, stage, rest⟩,
                by simp [settle, hwhy, hrest, proceed], rfl⟩

theorem step_start {s s' : InFlight Runner Call} {r : Request}
    (h : service.step s (.start r) = some s') :
    s' = ⟨(s.db.runAction r).1, (s.db.runAction r).2.toList.foldl Table.insert s.calls⟩ := by
  obtain ⟨db, cs, hstart, rfl⟩ := service.step_start h
  cases hstart
  rfl

theorem step_resume {s s' : InFlight Runner Call} {i : Nat} {a : Settled}
    (h : service.step s (.resume i a) = some s') :
    ∃ c, s.calls.row i = some c
      ∧ s' = ⟨(s.db.settle c a).1, Service.advance s.calls i (s.db.settle c a).2⟩ := by
  obtain ⟨c, db, next, hc, hres, rfl⟩ := service.step_resume h
  refine ⟨c, hc, ?_⟩
  rw [Option.some.inj hres]

/-! ## Who holds the keys -/

/-- A call that does not allow concurrency is admitted only if no call of its action
runs. -/
def Exclusive (s : InFlight Runner Call) : Prop :=
  ∀ r, r.allowConcurrent = false → s.db.admits r = true →
    ∀ i c, s.calls.row i = some c → c.request.actionName ≠ r.actionName

/-- Every call that runs has its key in the set. -/
def Held (s : InFlight Runner Call) : Prop :=
  ∀ i c, s.calls.row i = some c → s.db.lockKey c.request ∈ s.db.inFlight

/-- Every key in the set is that of a call that runs. -/
def Owned (s : InFlight Runner Call) : Prop :=
  ∀ k ∈ s.db.inFlight, ∃ i c, s.calls.row i = some c ∧ s.db.lockKey c.request = k

theorem exclusive_iff_held (s : InFlight Runner Call) : Exclusive s ↔ Held s := by
  constructor
  · intro h i c hc
    by_contra hkey
    have hadmits : s.db.admits { c.request with allowConcurrent := false } = true := by
      simpa [Runner.admits, Runner.lockKey, Request.actionName] using hkey
    exact h _ rfl hadmits i c hc rfl
  · intro h r hr hadmits i c hc heq
    have hmem := h i c hc
    rw [s.db.lockKey_inj.mpr heq] at hmem
    simp [Runner.admits, hr, hmem] at hadmits

theorem Held.initial (cronName : String) : Held (initial cronName) := by
  intro i c hc
  cases hc

theorem Owned.initial (cronName : String) : Owned (initial cronName) := by
  intro k hk
  cases hk

/-- Nothing but a call that ends takes a key away. -/
theorem Owned.step {s s' : InFlight Runner Call} {e : Event Request Settled} (hs : Owned s)
    (h : service.step s e = some s') : Owned s' := by
  cases e with
  | start r =>
      obtain rfl := step_start h
      rcases s.db.runAction_cases r with ⟨-, hin, hkey, hnone⟩ | ⟨-, -, hrun⟩ | ⟨-, -, d, hrun, rfl⟩
      · intro k hk
        rw [hin] at hk
        obtain ⟨i, c, hc, hck⟩ := hs k hk
        exact ⟨i, c, by rw [hnone]; exact hc, by rw [hkey]; exact hck⟩
      · rw [hrun]
        intro k hk
        obtain ⟨hk, -⟩ := (s.db.mem_finish_acquire r _).mp hk
        obtain ⟨i, c, hc, hck⟩ := hs k hk
        refine ⟨i, c, hc, ?_⟩
        rw [Runner.finish_lockKey, Runner.acquire_lockKey]
        exact hck
      · rw [hrun]
        intro k hk
        rw [Runner.acquire_lockKey]
        rcases (s.db.mem_acquire d.request).mp hk with hk | rfl
        · obtain ⟨i, c, hc, hck⟩ := hs k hk
          exact ⟨i, c, Table.insert_row_of_some hc d, hck⟩
        · exact ⟨s.calls.nextId, d, if_pos rfl, rfl⟩
  | resume j a =>
      obtain ⟨c, hc, rfl⟩ := step_resume h
      rcases s.db.settle_cases c a with ⟨-, result, hset⟩ | ⟨-, d, hset, hd⟩
      · rw [hset]
        intro k hk
        obtain ⟨hk, hne⟩ := List.mem_filter.mp hk
        obtain ⟨i, c', hc', hck⟩ := hs k hk
        have hij : i ≠ j := by
          rintro rfl
          obtain rfl := Option.some.inj (hc.symm.trans hc')
          exact absurd hck.symm (by simpa using hne)
        have hrow : (Service.advance s.calls j none).row i = some c' :=
          Service.advance_keeps hij hc'
        exact ⟨i, c', hrow, hck⟩
      · rw [hset]
        intro k hk
        obtain ⟨i, c', hc', hck⟩ := hs k hk
        by_cases hij : i = j
        · subst hij
          obtain rfl := Option.some.inj (hc.symm.trans hc')
          exact ⟨i, d, Service.advance_self hc, hd ▸ hck⟩
        · have hrow : (Service.advance s.calls j (some d)).row i = some c' :=
            Service.advance_keeps hij hc'
          exact ⟨i, c', hrow, hck⟩

/-- No call ends while another one of its action runs. -/
def EndsAlone (s : InFlight Runner Call) : Event Request Settled → Prop
  | .start r => r.allowConcurrent = true → r.callbacks = [] →
      ∀ p ∈ s.calls.rows, p.2.request.actionName ≠ r.actionName
  | .resume i a => ∀ c ∈ s.calls.row i, c.ends a = true →
      ∀ p ∈ s.calls.rows, p.1 ≠ i → p.2.request.actionName ≠ c.request.actionName

instance (s : InFlight Runner Call) : DecidablePred (EndsAlone s)
  | .start r => inferInstanceAs (Decidable (r.allowConcurrent = true → r.callbacks = [] →
      ∀ p ∈ s.calls.rows, p.2.request.actionName ≠ r.actionName))
  | .resume i a => inferInstanceAs (Decidable (∀ c ∈ s.calls.row i, c.ends a = true →
      ∀ p ∈ s.calls.rows, p.1 ≠ i → p.2.request.actionName ≠ c.request.actionName))

/-- Where every call that runs has its key, a request leaves it so unless it ends at
once with another one of its action running. -/
theorem Held.start_iff {s s' : InFlight Runner Call} {r : Request} (hs : Held s)
    (h : service.step s (.start r) = some s') : Held s' ↔ EndsAlone s (.start r) := by
  obtain rfl := step_start h
  rcases s.db.runAction_cases r with
    ⟨hno, hin, hkey, hnone⟩ | ⟨hadmits, hcb, hrun⟩ | ⟨-, hcb, d, hrun, rfl⟩
  · have hnow : r.allowConcurrent = false := by
      by_contra hr
      simp [Runner.admits, hr] at hno
    refine iff_of_true (fun i c hc => ?_) fun hr => absurd hr (by simp [hnow])
    rw [hnone] at hc
    rw [hin, hkey]
    exact hs i c hc
  · rw [hrun]
    constructor
    · intro h' _ _ p hp heq
      have hmem := h' p.1 p.2 (Table.mem_rows.mp hp)
      obtain ⟨-, hne⟩ := (s.db.mem_finish_acquire r _).mp hmem
      exact hne (by simpa using s.db.lockKey_inj.mpr heq)
    · intro hends i c hc
      refine (s.db.mem_finish_acquire r _).mpr ⟨by simpa using hs i c hc, fun hkey => ?_⟩
      have heq : c.request.actionName = r.actionName := by simpa [Runner.lockKey_inj] using hkey
      cases hconc : r.allowConcurrent with
      | true => exact hends hconc hcb (i, c) (Table.mem_rows.mpr hc) heq
      | false => exact (exclusive_iff_held s).mpr hs r hconc hadmits i c hc heq
  · rw [hrun]
    refine iff_of_true (fun i c hc => ?_) fun _ hnone => absurd hnone hcb
    refine (s.db.mem_acquire d.request).mpr ?_
    rcases Table.insert_row_eq_some.mp hc with ⟨-, rfl⟩ | hold
    · exact Or.inr (by simp)
    · exact Or.inl (by simpa using hs i c hold)

theorem Held.resume_iff {s s' : InFlight Runner Call} {j : Nat} {a : Settled} (hs : Held s)
    (h : service.step s (.resume j a) = some s') : Held s' ↔ EndsAlone s (.resume j a) := by
  obtain ⟨c, hc, rfl⟩ := step_resume h
  rcases s.db.settle_cases c a with ⟨hends, result, hset⟩ | ⟨hends, d, hset, hd⟩
  · rw [hset]
    constructor
    · intro h' c' hc' _ p hp hpj heq
      obtain rfl := Option.some.inj (hc.symm.trans hc')
      have hrow : (Service.advance s.calls j none).row p.1 = some p.2 :=
        Service.advance_keeps hpj (Table.mem_rows.mp hp)
      obtain ⟨-, hne⟩ := List.mem_filter.mp (h' p.1 p.2 hrow)
      exact absurd (s.db.lockKey_inj.mpr heq) (of_decide_eq_true hne)
    · intro hother i c' hi
      obtain ⟨hij, hold⟩ := Service.advance_none_row hi
      have hne := hother c hc hends (i, c') (Table.mem_rows.mpr hold) hij
      have hkey : s.db.lockKey c'.request ≠ s.db.lockKey c.request :=
        mt s.db.lockKey_inj.mp hne
      exact List.mem_filter.mpr ⟨hs i c' hold, decide_eq_true hkey⟩
  · rw [hset]
    refine iff_of_true (fun i c' hi => ?_) fun c' hc' hends' => ?_
    · have hrow : (Service.advance s.calls j (some d)).row i = some c' := hi
      rcases Service.advance_row hrow with ⟨rfl, hnext⟩ | ⟨-, hold⟩
      · obtain rfl := Option.some.inj hnext
        have hmem := hs i c hc
        rwa [← hd] at hmem
      · exact hs i c' hold
    · obtain rfl := Option.some.inj (hc.symm.trans hc')
      rw [hends] at hends'
      cases hends'

theorem Held.step_iff {s : InFlight Runner Call} (hs : Held s) (e : Event Request Settled) :
    (∀ s', service.step s e = some s' → Held s') ↔ EndsAlone s e := by
  cases e with
  | start r =>
      obtain ⟨s', hstep⟩ : ∃ s', service.step s (.start r) = some s' := ⟨_, rfl⟩
      rw [← hs.start_iff hstep]
      exact ⟨fun h => h s' hstep, fun h t ht => Option.some.inj (hstep.symm.trans ht) ▸ h⟩
  | resume i a =>
      cases hrow : s.calls.row i with
      | none =>
          refine iff_of_true (fun s' h => ?_) fun c hc => ?_
          · obtain ⟨c, hc, -⟩ := step_resume h
            rw [hrow] at hc
            cases hc
          · rw [hrow] at hc
            cases hc
      | some c =>
          obtain ⟨s', hstep⟩ : ∃ s', service.step s (.resume i a) = some s' := by
            simp [Service.step, hrow, service]
          rw [← hs.resume_iff hstep]
          exact ⟨fun h => h s' hstep, fun h t ht => Option.some.inj (hstep.symm.trans ht) ▸ h⟩

/-! ## Whole runs -/

/-- After the step, too, a call that does not allow concurrency is admitted only if no
call of its action runs. -/
def KeepsExclusive (s : InFlight Runner Call) (e : Event Request Settled) : Prop :=
  ∀ s', service.step s e = some s' → Exclusive s'

/-- The runner excludes overlapping calls all along a run exactly if none of them ends
while another one of its action runs; and when all have ended, the set is empty and any
call is admitted. -/
theorem keeps_exclusive_iff_ends_alone {cronName : String} {es : List (Event Request Settled)}
    {t : InFlight Runner Call} (hrun : service.sys.run (initial cronName) es = some t) :
    (service.sys.Meets KeepsExclusive (initial cronName) es
        ↔ service.sys.Meets EndsAlone (initial cronName) es)
      ∧ ((∀ i, t.calls.row i = none) → t.db.inFlight = [] ∧ ∀ r, t.db.admits r = true) := by
  constructor
  · refine service.sys.meets_iff_of_kept (fun s e s' _ hkeeps h => ?_) (fun s e hs => ?_)
      (Held.initial cronName)
    · exact (exclusive_iff_held s').mp (hkeeps s' h)
    · simpa only [KeepsExclusive, exclusive_iff_held] using hs.step_iff e
  · intro hended
    have howned := service.sys.run_kept (fun _ _ _ hs h => hs.step h) (Owned.initial cronName) hrun
    have hempty : t.db.inFlight = [] := by
      refine List.eq_nil_iff_forall_not_mem.mpr fun k hk => ?_
      obtain ⟨i, c, hc, -⟩ := howned k hk
      rw [hended i] at hc
      cases hc
    exact ⟨hempty, fun r => by simp [Runner.admits, hempty]⟩

/-- A call of `action` with nothing to do but `execute`. -/
def executing (action : String) (allowConcurrent : Bool) : Request :=
  ⟨some action, allowConcurrent, (· = .execute)⟩

/-- Two calls after one another, with one of another action beside them. -/
theorem keeps_exclusive_iff_ends_alone_turns :
    service.sys.Meets KeepsExclusive (initial "mining")
      [.start (executing "tick" false), .start (executing "prune" false),
        .resume 1 (.resolved true none), .start (executing "tick" true),
        .resume 3 (.rejected "timeout"), .resume 2 (.resolved true none)] :=
  have hrun : (service.sys.run (initial "mining")
      [.start (executing "tick" false), .start (executing "prune" false),
        .resume 1 (.resolved true none), .start (executing "tick" true),
        .resume 3 (.rejected "timeout"), .resume 2 (.resolved true none)]).isSome = true := by
    decide +kernel
  (keeps_exclusive_iff_ends_alone (Option.some_get hrun).symm).1.mpr (by decide +kernel)

/-- A call that allows concurrency begins and ends while a call that does not runs, and
another one that does not is admitted beside it. -/
theorem admitted_while_running :
    ∃ t, service.sys.run (initial "mining")
        [.start (executing "tick" false), .start (executing "tick" true),
          .resume 2 (.resolved true none), .start (executing "tick" false)] = some t
      ∧ t.calls.rows.map (fun p => (p.1, p.2.request.actionName, p.2.request.allowConcurrent))
        = [(1, "tick", false), (3, "tick", false)] := by
  have hrun : (service.sys.run (initial "mining")
      [.start (executing "tick" false), .start (executing "tick" true),
        .resume 2 (.resolved true none), .start (executing "tick" false)]).any (fun t =>
      t.calls.rows.map (fun p => (p.1, p.2.request.actionName, p.2.request.allowConcurrent))
        = [(1, "tick", false), (3, "tick", false)]) = true := by
    decide +kernel
  obtain ⟨t, ht, hrows⟩ := (Option.any_eq_true ..).mp hrun
  exact ⟨t, ht, by simpa using hrows⟩

end BlockMiner.CronRunner
