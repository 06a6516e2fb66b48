import BlockMiner.StreamRunner

/-!
# What a step of the stream runner can do

Every handler is a chain of calls, and what a call stands for is its stage:
a start that is a retry of an attempt, the exit of a pipeline, a failure that
is about to be scheduled. A step is one of a few effects on the memory of the
runner (`Effect`), whichever of the queries it belongs to; the inversion
lemmas `start_effect` and `resume_effect` say so, and what holds in every run
is derived from the effects alone.
-/

namespace BlockMiner.StreamRunner

/-! ## Stages -/

inductive Stage where
  /-- A start, up to its pipeline, and the attempt it is a retry of. -/
  | starting (p : ℤ)
  /-- A start that will not be tried again. -/
  | givingUp
  /-- A start that has its pipeline. -/
  | online
  /-- The exit of a pipeline, with the attempt of its start. -/
  | exited (p : ℤ)
  /-- The failure of an attempt. -/
  | failed (p : ℤ)
  | limit
  /-- The watchdog has got to the row. -/
  | watch
  /-- A handler that is about to call `stopStreamForDestination`. -/
  | stop
  /-- The process of a pipeline exits. -/
  | exit (i : ℕ)
  | admin
  | other
deriving DecidableEq

def Stage.isStart : Stage → Bool
  | .starting _ | .givingUp | .online => true
  | _ => false

/-- A start that has no pipeline yet. -/
def Stage.isEarly : Stage → Bool
  | .starting _ | .givingUp => true
  | _ => false

/-- What a stage can go on as where nothing happens. -/
def Follows (σ σ' : Stage) : Prop :=
  σ' = σ ∨ σ' = .other ∨ (σ = .other ∧ σ' = .watch) ∨ (σ = .admin ∧ σ' = .stop)
    ∨ (σ' = .givingUp ∧ ∃ p, σ = .starting p)

def Await.stage : Await → Stage
  | .envRow p | .envRetry p | .row p | .markStarting p _ | .failedRow p _ | .failedRetry p =>
      .starting p
  | .envStop | .noCredentials | .failedStop => .givingUp
  | .markOnline => .online
  | .exitRow p | .exitRetry p => .exited p
  | .afterFailure p => .failed p
  | .limit => .limit
  | .postStartRow | .postStartUpdate | .postStopUpdate => .admin
  | .exitOffline | .markOffline | .reconcileList _ | .reconcileUpdate .. | .watchdogList => .other

def Call.stage : Call → Stage
  | .answered .postStopUpdate (.row _) => .stop
  | .asked k | .answered k _ => k.stage
  | .launching p => .starting p
  | .visit _ => .watch
  | .stopping | .reconcileVisit .. => .other

def Request.stage : Request → Stage
  | .stop _ => .stop
  | .start .. | .postStart _ | .postStop _ | .patch .. | .remove _ => .admin
  | .exit i _ => .exit i
  | .list _ | .watchdog _ | .timer .. => .other

/-- An exit is an event of its own. -/
theorem stage_ne_exit (c : Call) (i : ℕ) : c.stage ≠ .exit i := by
  intro h
  rcases c with k | ⟨k, reply⟩ | p | _ | ⟨w, row⟩ | row
  · cases k <;> cases h
  · cases k <;> cases reply <;> cases h
  all_goals cases h

/-- The row lets a start through. -/
def letsThrough (row : Option StreamDestination) : Bool :=
  row.any fun row => row.enabled && row.desiredRunning && row.credentials

/-- A start that has been let through, until it is online. -/
def Call.underway : Call → Bool
  | .asked (.markStarting ..) | .answered (.markStarting ..) _ | .launching _
  | .asked .markOnline => true
  | .answered (.row _) (.row row) => letsThrough row
  | _ => false

theorem wanted_of_letsThrough {row : Option StreamDestination} (h : letsThrough row = true) :
    wanted row = true := by
  cases row with
  | none => cases h
  | some row =>
      simp only [letsThrough, Option.any_some, Bool.and_eq_true] at h
      exact h.1.2

def online (row : Option StreamDestination) : Bool :=
  row.any fun row => decide (row.lastWorkerStatus = .ONLINE)

/-! ## Effects -/

/-- What a step of a call at stage `σ`, which is underway where `u`, can do. -/
inductive Effect (σ : Stage) (u : Bool) (db : State) : State × Option Call → Prop
  | quiet {db' next} (hdb : db' = db ∨ db' = { db with pending := none })
      (hnext : ∀ d ∈ next, Follows σ d.stage ∧ (d.underway = true → u = true)) :
      Effect σ u db (db', next)
  | wrote {row stopped next} (hwanted : wanted row = true → wanted db.row = true ∨ stopped = false)
      (hstopped : stopped = true → db.stopped = true)
      (honline : online row = true → online db.row = true ∨ u = true)
      (hnext : ∀ d ∈ next,
        Follows σ d.stage ∧ (d.underway = true → u = true ∨ wanted db.row = true)) :
      Effect σ u db ({ db with row := row, stopped := stopped }, next)
  | begun {d p pending automatic} (hidle : db.active = none) (hnone : db.starting = false)
      (hstage : d.stage = .starting p) (hunder : d.underway = false)
      (hfrom : (σ = .admin ∧ p = -1 ∧ pending = db.pending ∧ automatic = db.automatic)
        ∨ (σ = .watch ∧ p = -1 ∧ pending = db.pending ∧ automatic = db.automatic + 1
            ∧ db.pending = none)
        ∨ (∃ timer, db.pending = some timer ∧ p = timer.attempt ∧ pending = none
            ∧ automatic = db.automatic + 1)) :
      Effect σ u db
        ({ db with starting := true, pending := pending, automatic := automatic }, some d)
  | ended (hσ : σ.isStart = true) : Effect σ u db (ended db, none)
  | startFailed {p} (hσ : σ = .starting p) :
      Effect σ u db (afterStreamStartFailure (ended db) p)
  | runFailed {p} (hσ : σ = .exited p) : Effect σ u db (afterStreamStartFailure db p)
  | scheduled {p now} (hσ : σ = .failed p) :
      Effect σ u db (scheduleDesiredStreamRestart db (p + 1) now)
  | launched {p} (hσ : σ = .starting p) (hu : u = true) : Effect σ u db (launched db p none)
  | stopped (hσ : σ = .stop) : Effect σ u db (stopStreamForDestination db)
  | exited {i out} (hσ : σ = .exit i) (h : exited db i = some out) : Effect σ u db out

theorem effect_none (σ : Stage) (u : Bool) (db : State) : Effect σ u db (db, none) :=
  .quiet (Or.inl rfl) fun d hd => by cases hd

theorem effect_asked {σ : Stage} {u : Bool} {db : State} {k : Await} (hstage : Follows σ k.stage)
    (hunder : (Call.asked k).underway = false) : Effect σ u db (db, some (.asked k)) := by
  refine .quiet (Or.inl rfl) fun d hd => ?_
  obtain rfl := Option.some.inj hd
  refine ⟨hstage, fun h => ?_⟩
  rw [hunder] at h
  cases h

theorem begun_stage (p : ℤ) (envOk : Bool) :
    (Call.asked (if envOk then Await.row p else .envRow p)).stage = .starting p
      ∧ (Call.asked (if envOk then Await.row p else .envRow p)).underway = false := by
  cases envOk <;> exact ⟨rfl, rfl⟩

/-- A start by hand. -/
theorem start_admin (u : Bool) (db : State) (envOk : Bool) :
    Effect .admin u db (startStreamForDestination db (-1) envOk) := by
  unfold startStreamForDestination
  split
  case isTrue => exact effect_none ..
  case isFalse hfree =>
    obtain ⟨hidle, hnone⟩ := not_or.mp hfree
    obtain ⟨hstage, hunder⟩ := begun_stage (-1) envOk
    exact .begun (Option.not_isSome_iff_eq_none.mp hidle) (Bool.eq_false_iff.mpr hnone) hstage
      hunder (Or.inl ⟨rfl, rfl, rfl, rfl⟩)

/-- An automatic start is refused, or begins. -/
theorem automaticStart_cases (db : State) (p : ℤ) (envOk : Bool) :
    automaticStart db p envOk = (db, none)
      ∨ (db.active = none ∧ db.starting = false ∧ ∃ d, d.stage = .starting p
        ∧ d.underway = false ∧ automaticStart db p envOk
          = ({ db with starting := true, automatic := db.automatic + 1 }, some d)) := by
  unfold automaticStart startStreamForDestination
  by_cases hbusy : db.active.isSome = true ∨ db.starting = true
  · rw [if_pos hbusy]
    exact Or.inl rfl
  · rw [if_neg hbusy]
    obtain ⟨hidle, hnone⟩ := not_or.mp hbusy
    obtain ⟨hstage, hunder⟩ := begun_stage p envOk
    exact Or.inr ⟨Option.not_isSome_iff_eq_none.mp hidle, Bool.eq_false_iff.mpr hnone, _, hstage,
      hunder, rfl⟩

theorem visit_effect (u : Bool) (db : State) (envOk : Bool) :
    Effect .watch u db (watchdogVisit db envOk) := by
  unfold watchdogVisit
  split
  case isTrue => exact effect_none ..
  case isFalse =>
    split
    case isTrue => exact effect_none ..
    case isFalse hpending =>
      rcases automaticStart_cases db (-1) envOk with heq | ⟨hidle, hnone, d, hstage, hunder, heq⟩
      · rw [heq]
        exact effect_none ..
      · rw [heq]
        exact .begun hidle hnone hstage hunder
          (Or.inr (Or.inl ⟨rfl, rfl, rfl, rfl, Option.not_isSome_iff_eq_none.mp hpending⟩))

theorem timer_effect {σ : Stage} {u : Bool} {db : State} {timer : Timer} (envOk : Bool)
    (h : db.pending = some timer) :
    Effect σ u db (automaticStart { db with pending := none } timer.attempt envOk) := by
  rcases automaticStart_cases { db with pending := none } timer.attempt envOk with heq
    | ⟨hidle, hnone, d, hstage, hunder, heq⟩
  · rw [heq]
    exact .quiet (Or.inr rfl) fun d hd => by cases hd
  · rw [heq]
    exact .begun hidle hnone hstage hunder (Or.inr (Or.inr ⟨timer, h, rfl, rfl, rfl⟩))

def Pipeline.exit (p : Pipeline) : Pipeline := { p with running := false }

/-- Of an exit. -/
theorem exited_cases {db : State} {i : ℕ} {out : State × Option Call}
    (h : exited db i = some out) :
    ∃ p, db.pipelines.row i = some p
      ∧ ((db.active = none
          ∧ out = ({ db with pipelines := db.pipelines.modify i Pipeline.exit }, none))
        ∨ (∃ k, db.active = some k
          ∧ out = ({ db with pipelines := db.pipelines.modify i Pipeline.exit, active := none },
            some (.asked (.exitRow p.retryParentAttempt))))) := by
  obtain ⟨p, hrow, h⟩ := Option.bind_eq_some_iff.mp h
  refine ⟨p, hrow, ?_⟩
  obtain ⟨-, h⟩ := Option.ite_none_right_eq_some.mp h
  cases hactive : db.active with
  | none =>
      simp only [hactive, Option.isNone_none, if_true] at h
      exact Or.inl ⟨rfl, (Option.some.inj h).symm⟩
  | some k =>
      simp only [hactive, Option.isNone_some, Bool.false_eq_true, if_false] at h
      exact Or.inr ⟨k, rfl, (Option.some.inj h).symm⟩

/-! ## Queries -/

theorem wanted_update {row : StreamDestination} {data : Update}
    (h : wanted (some (row.update data)) = true) :
    wanted (some row) = true ∨ data.desiredRunning = some true := by
  cases hdata : data.desiredRunning with
  | none =>
      simp only [wanted, Option.any_some, StreamDestination.update, hdata, Option.getD_none] at h
      exact Or.inl h
  | some desired =>
      simp only [wanted, Option.any_some, StreamDestination.update, hdata, Option.getD_some] at h
      exact Or.inr (congrArg some h)

theorem online_update {row : StreamDestination} {data : Update}
    (h : online (some (row.update data)) = true) :
    online (some row) = true ∨ data.lastWorkerStatus = some .ONLINE := by
  cases hdata : data.lastWorkerStatus with
  | none =>
      simp only [online, Option.any_some, StreamDestination.update, hdata, Option.getD_none] at h
      exact Or.inl h
  | some status =>
      simp only [online, Option.any_some, StreamDestination.update, hdata, Option.getD_some,
        decide_eq_true_eq] at h
      exact Or.inr (congrArg some h)

/-- Only a start that has its pipeline says that it is online. -/
theorem markOnline_of_query {k : Await} {data : Update} (h : k.query = .update data)
    (honline : data.lastWorkerStatus = some .ONLINE) : k = .markOnline := by
  cases k <;> simp only [Await.query, reduceCtorEq, Query.update.injEq] at h
  case markOnline => rfl
  case reconcileUpdate w stale => cases stale <;> (subst h; cases honline)
  all_goals (subst h; cases honline)

theorem underway_of_reply {k : Await} {row : Option StreamDestination}
    (h : (Call.answered k (.row row)).underway = true) :
    (Call.asked k).underway = true ∨ wanted row = true := by
  cases k <;> first | exact Or.inl h | exact Or.inr (wanted_of_letsThrough h) | cases h

theorem underway_of_failed {k : Await} (h : (Call.answered k .failed).underway = true) :
    (Call.asked k).underway = true := by
  cases k <;> first | exact h | cases h

theorem follows_reply (k : Await) (reply : Reply) :
    Follows k.stage (Call.answered k reply).stage := by
  cases k with
  | postStopUpdate =>
      cases reply with
      | row row => exact Or.inr (Or.inr (Or.inr (Or.inl ⟨rfl, rfl⟩)))
      | failed => exact Or.inl rfl
  | _ => exact Or.inl rfl

theorem refused_effect (k : Await) (db : State) :
    Effect k.stage (Call.asked k).underway db (db, some (.answered k .failed)) := by
  refine .quiet (Or.inl rfl) fun d hd => ?_
  obtain rfl := Option.some.inj hd
  exact ⟨follows_reply .., underway_of_failed⟩

theorem executed_effect (k : Await) (db : State) :
    Effect k.stage (Call.asked k).underway db
      ((execute db k.query).1, some (.answered k (execute db k.query).2)) := by
  cases hquery : k.query with
  | findUnique =>
      have hnext : ∀ d ∈ some (Call.answered k (.row db.row)), Follows k.stage d.stage
          ∧ (d.underway = true → (Call.asked k).underway = true ∨ wanted db.row = true) := by
        intro d hd
        obtain rfl := Option.some.inj hd
        exact ⟨follows_reply .., underway_of_reply⟩
      exact .wrote Or.inl (fun h => h) Or.inl hnext
  | update data =>
      cases hrow : db.row with
      | none =>
          simp only [execute, hrow]
          exact refused_effect k db
      | some row =>
          simp only [execute, hrow]
          refine .wrote ?_ ?_ ?_ fun d hd => ?_
          · intro h
            rw [hrow]
            rcases wanted_update h with hold | hnew
            · exact Or.inl hold
            · simp [hnew]
          · intro h
            exact (Bool.and_eq_true_iff.mp h).1
          · intro h
            rw [hrow]
            rcases online_update h with hold | hnew
            · exact Or.inl hold
            · rw [markOnline_of_query hquery hnew]
              exact Or.inr rfl
          · obtain rfl := Option.some.inj hd
            refine ⟨follows_reply .., fun h => Or.inl ?_⟩
            cases k <;> simp only [Await.query, reduceCtorEq] at hquery <;>
              first | exact h | cases h

/-! ## Inversion -/

theorem started_effect {db : State} {p now : ℤ} {row : Option StreamDestination} :
    Effect (.starting p) (letsThrough row) db (started db p now row) := by
  cases row with
  | none => exact .ended rfl
  | some row =>
      simp only [started]
      split
      case isTrue => exact .ended rfl
      case isFalse hgo =>
        split
        case isTrue => exact effect_asked (Or.inr (Or.inr (Or.inr (Or.inr ⟨rfl, p, rfl⟩)))) rfl
        case isFalse hcredentials =>
          refine .quiet (Or.inr rfl) fun d hd => ?_
          obtain rfl := Option.some.inj hd
          refine ⟨Or.inl rfl, fun _ => ?_⟩
          simp only [Bool.or_eq_true, Bool.not_eq_true', not_or, Bool.not_eq_false]
            at hgo hcredentials
          simp [letsThrough, hgo, hcredentials]

theorem goOn_effect {db : State} {envOk : Bool} {now : ℤ} (k : Await) (reply : Reply) :
    Effect (Call.answered k reply).stage (Call.answered k reply).underway db
      (goOn db envOk now k reply) := by
  cases k with
  | envRow p =>
      cases reply with
      | failed => exact .ended rfl
      | row row =>
          simp only [goOn]
          split
          · exact effect_asked (Or.inl rfl) rfl
          · exact effect_asked (Or.inr (Or.inr (Or.inr (Or.inr ⟨rfl, p, rfl⟩)))) rfl
  | envRetry p => exact .startFailed rfl
  | envStop => exact .ended rfl
  | row p =>
      cases reply with
      | failed => exact .ended rfl
      | row row => exact started_effect
  | noCredentials => exact .ended rfl
  | markStarting p startedAt =>
      refine .quiet (Or.inl rfl) fun d hd => ?_
      obtain rfl := Option.some.inj hd
      exact ⟨Or.inl rfl, fun _ => rfl⟩
  | markOnline => exact .ended rfl
  | failedRow p permanent =>
      cases reply with
      | failed => exact .ended rfl
      | row row =>
          simp only [goOn]
          split
          · exact effect_asked (Or.inr (Or.inr (Or.inr (Or.inr ⟨rfl, p, rfl⟩)))) rfl
          · exact effect_asked (Or.inl rfl) rfl
  | failedRetry p => exact .startFailed rfl
  | failedStop => exact .ended rfl
  | exitRow p =>
      cases reply with
      | failed => exact effect_none ..
      | row row =>
          cases row with
          | none => exact effect_none ..
          | some row =>
              simp only [goOn]
              split
              · exact effect_asked (Or.inl rfl) rfl
              · exact effect_asked (Or.inr (Or.inl rfl)) rfl
  | exitOffline => exact effect_none ..
  | exitRetry p => exact .runFailed rfl
  | afterFailure p =>
      cases reply with
      | failed => exact effect_none ..
      | row row =>
          simp only [goOn]
          split
          · exact .scheduled rfl
          · exact effect_none ..
  | limit => exact effect_none ..
  | markOffline => exact effect_none ..
  | postStartRow =>
      cases reply with
      | failed => exact effect_none ..
      | row row =>
          cases row with
          | none => exact effect_none ..
          | some row =>
              simp only [goOn]
              split
              · exact effect_asked (Or.inl rfl) rfl
              · exact effect_none ..
  | postStartUpdate =>
      cases reply with
      | failed => exact effect_none ..
      | row row => exact start_admin ..
  | postStopUpdate =>
      cases reply with
      | failed => exact effect_none ..
      | row row => exact .stopped rfl
  | reconcileList watchdog =>
      have hlist : Effect .other (Call.answered (.reconcileList watchdog) reply).underway db
          (db, reconciled watchdog) := by
        cases watchdog with
        | true => exact effect_asked (Or.inl rfl) rfl
        | false => exact effect_none ..
      cases reply with
      | failed => exact hlist
      | row row =>
          cases row with
          | none => exact hlist
          | some row =>
              refine .quiet (Or.inl rfl) fun d hd => ?_
              obtain rfl := Option.some.inj hd
              exact ⟨Or.inl rfl, fun h => by cases h⟩
  | reconcileUpdate watchdog stale =>
      cases watchdog with
      | true => exact effect_asked (Or.inl rfl) rfl
      | false => exact effect_none ..
  | watchdogList =>
      cases reply with
      | failed => exact effect_none ..
      | row row =>
          cases row with
          | none => exact effect_none ..
          | some row =>
              simp only [goOn]
              split
              · refine .quiet (Or.inl rfl) fun d hd => ?_
                obtain rfl := Option.some.inj hd
                exact ⟨Or.inr (Or.inr (Or.inl ⟨rfl, rfl⟩)), fun h => by cases h⟩
              · exact effect_none ..

/-- **Inversion** of the answers. -/
theorem resume_effect {db : State} {c : Call} {a : Answer} {out : State × Option Call}
    (h : resume db c a = some out) :
    db.clock ≤ a.now ∧ Effect c.stage c.underway { db with clock := a.now } out := by
  obtain ⟨hclock, h⟩ := Option.ite_none_right_eq_some.mp h
  refine ⟨hclock, ?_⟩
  cases c with
  | asked k =>
      cases a with
      | executed now =>
          obtain rfl := Option.some.inj h
          exact executed_effect ..
      | refused now =>
          obtain rfl := Option.some.inj h
          exact refused_effect ..
      | arrived | launched => cases h
  | answered k reply =>
      cases a with
      | arrived envOk now =>
          obtain rfl := Option.some.inj h
          exact goOn_effect ..
      | executed | refused | launched => cases h
  | launching p =>
      cases a with
      | launched error now =>
          obtain rfl := Option.some.inj h
          cases error with
          | none => exact .launched rfl rfl
          | some message => exact effect_asked (Or.inl rfl) rfl
      | executed | refused | arrived => cases h
  | stopping =>
      cases a with
      | arrived envOk now =>
          obtain rfl := Option.some.inj h
          exact effect_asked (Or.inl rfl) rfl
      | executed | refused | launched => cases h
  | reconcileVisit watchdog row =>
      cases a with
      | arrived envOk now =>
          obtain rfl := Option.some.inj h
          split
          · exact effect_asked (Or.inl rfl) rfl
          · cases watchdog with
            | true => exact effect_asked (Or.inl rfl) rfl
            | false => exact effect_none ..
      | executed | refused | launched => cases h
  | visit row =>
      cases a with
      | arrived envOk now =>
          obtain rfl := Option.some.inj h
          exact visit_effect ..
      | executed | refused | launched => cases h

/-- **Inversion** of the requests. -/
theorem start_effect {db : State} {r : Request} {db' : State} {cs : List Call}
    (h : start db r = some (db', cs)) :
    db.clock ≤ r.now ∧ ∃ next, cs = next.toList
      ∧ Effect r.stage false { db with clock := r.now } (db', next) := by
  obtain ⟨hclock, h⟩ := Option.ite_none_right_eq_some.mp h
  obtain ⟨⟨db₁, next⟩, hhandle, heq⟩ := Option.map_eq_some_iff.mp h
  obtain ⟨rfl, rfl⟩ := Prod.mk.inj heq
  refine ⟨hclock, next, rfl, ?_⟩
  cases r with
  | start envOk now =>
      rw [← Option.some.inj hhandle]
      exact start_admin ..
  | stop now =>
      rw [← Option.some.inj hhandle]
      exact .stopped rfl
  | postStart now | postStop now | list now | watchdog now =>
      rw [← Option.some.inj hhandle]
      exact effect_asked (Or.inl rfl) rfl
  | patch enabled credentials now =>
      rw [← Option.some.inj hhandle]
      refine .wrote ?_ (fun h => h) ?_ fun d hd => by cases hd
      · cases db.row <;> exact Or.inl
      · cases db.row <;> exact Or.inl
  | remove now =>
      rw [← Option.some.inj hhandle]
      exact .wrote (fun h => by cases h) (fun h => h) (fun h => by cases h) fun d hd => by cases hd
  | timer envOk now =>
      obtain ⟨timer, hpending, hfire⟩ := Option.bind_eq_some_iff.mp hhandle
      obtain ⟨-, hfire⟩ := Option.ite_none_right_eq_some.mp hfire
      rw [← Option.some.inj hfire]
      exact timer_effect envOk hpending
  | exit i now => exact .exited rfl hhandle

end BlockMiner.StreamRunner
