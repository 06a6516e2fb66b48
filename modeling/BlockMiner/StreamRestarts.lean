import BlockMiner.StreamRunnerSingle

/-!
# Automatic restarts

After a start by hand, one thing at a time carries the attempts on: a start, a
pipeline, its exit, a failure, a timer, or the write of the limit. The counts
of the automatic starts and of the failures since the last success follow the
attempt, as long as the exit of a pipeline is scheduled as a first failure and
the watchdog does not start a stream of its own (`Unbroken`).
-/

namespace BlockMiner.StreamRunner

/-! ## What is to hold -/

/-- At most `MAX_AUTO_RESTART_ATTEMPTS` automatic starts since the last that
succeeded; a timer is for the number of the failures since then, from 0; and
the limit is for more of them than there are attempts. -/
structure Bounded (s : InFlight State Call) : Prop where
  automatic : s.db.automatic ≤ MAX_AUTO_RESTART_ATTEMPTS
  budget : ∀ timer, s.db.pending = some timer → timer.attempt + 1 = s.db.failures
  limit : ∀ i c, s.calls.row i = some c → c.stage = .limit →
    MAX_AUTO_RESTART_ATTEMPTS < s.db.failures

/-- Nothing that an administrator does. -/
def Unattended : Event Request Answer → Prop
  | .start r => r.stage ≠ .admin ∧ r.stage ≠ .stop
  | .resume _ _ => True

instance : ∀ e, Decidable (Unattended e)
  | .start r => inferInstanceAs (Decidable (r.stage ≠ .admin ∧ r.stage ≠ .stop))
  | .resume _ _ => inferInstanceAs (Decidable True)

/-- A pipeline that was started by a timer does not exit. -/
def FirstRun (db : State) : Request → Prop
  | .exit i _ => ∀ p ∈ db.pipelines.row i, p.retryParentAttempt = -1
  | _ => True

instance (db : State) : ∀ r, Decidable (FirstRun db r)
  | .exit i _ => inferInstanceAs (Decidable (∀ p ∈ db.pipelines.row i, p.retryParentAttempt = -1))
  | .start _ _ | .stop _ | .postStart _ | .postStop _ | .patch _ _ _ | .remove _ | .list _
  | .watchdog _ | .timer _ _ => inferInstanceAs (Decidable True)

/-- The watchdog finds the destination taken care of. -/
def Unbroken (s : InFlight State Call) : Event Request Answer → Prop
  | .start r => FirstRun s.db r
  | .resume call _ => ∀ c ∈ s.calls.row call, c.stage = .watch →
      s.db.active.isSome ∨ s.db.starting = true ∨ s.db.pending.isSome

instance (s : InFlight State Call) : ∀ e, Decidable (Unbroken s e)
  | .start r => inferInstanceAs (Decidable (FirstRun s.db r))
  | .resume call _ => inferInstanceAs (Decidable (∀ c ∈ s.calls.row call, c.stage = .watch → _))

/-! ## What carries the attempts on -/

def Stage.carries : Stage → Bool
  | .starting _ | .exited _ | .failed _ | .limit => true
  | _ => false

/-- The counts, where a stage carries the attempts on. -/
def Stage.Counted (automatic failures : ℕ) : Stage → Prop
  | .starting p => p < MAX_AUTO_RESTART_ATTEMPTS ∧ p + 1 = failures ∧ automatic ≤ failures
  | .exited p => p = -1 ∧ failures = 0 ∧ automatic = 0
  | .failed p => p < MAX_AUTO_RESTART_ATTEMPTS ∧ p + 2 = failures ∧ automatic + 1 ≤ failures
  | .limit => MAX_AUTO_RESTART_ATTEMPTS < failures
  | .admin | .stop => False
  | _ => True

/-- Of a timer. -/
def Timer.Counted (automatic failures : ℕ) (timer : Timer) : Prop :=
  timer.attempt < MAX_AUTO_RESTART_ATTEMPTS ∧ timer.attempt + 1 = failures
    ∧ automatic + 1 ≤ failures

/-- Of the calls that are in flight. -/
structure Carried (db : State) (O : Call → Prop) : Prop where
  automatic : db.automatic ≤ MAX_AUTO_RESTART_ATTEMPTS
  calls : ∀ c, O c → c.stage.Counted db.automatic db.failures
  timer : ∀ timer, db.pending = some timer → timer.Counted db.automatic db.failures
    ∧ db.active = none ∧ ∀ c, O c → c.stage.carries = false
  run : ∀ i, db.active = some i → db.automatic = 0 ∧ db.failures = 0
    ∧ ∀ c, O c → c.stage.carries = false

theorem Follows.carries {σ σ' : Stage} (h : Follows σ σ') (hc : σ'.carries = true) :
    σ' = σ := by
  rcases h with rfl | rfl | ⟨rfl, rfl⟩ | ⟨rfl, rfl⟩ | ⟨rfl, p, rfl⟩
  · rfl
  all_goals cases hc

theorem Follows.counted {σ σ' : Stage} {automatic failures : ℕ} (h : Follows σ σ')
    (hσ : σ.Counted automatic failures) : σ'.Counted automatic failures := by
  rcases h with rfl | rfl | ⟨rfl, rfl⟩ | ⟨rfl, rfl⟩ | ⟨rfl, p, rfl⟩
  · exact hσ
  · trivial
  · trivial
  · exact hσ
  · trivial

/-- The counts matter only to what carries the attempts on. -/
theorem counted_of_not_carries {σ : Stage} {automatic failures automatic' failures' : ℕ}
    (h : σ.Counted automatic failures) (hc : σ.carries = false) :
    σ.Counted automatic' failures' := by
  cases σ with
  | starting p | exited p | failed p | limit => cases hc
  | admin | stop => exact h
  | _ => trivial

/-- With the mover, before its step. -/
structure Moving (O : Call → Prop) (σ : Stage) (db : State) : Prop extends Carried db O where
  mover : σ.Counted db.automatic db.failures
  idle : σ.carries = true → db.pending = none ∧ db.active = none
    ∧ ∀ c, O c → c.stage.carries = false

/-- After it; what carries the attempts on is one thing. -/
structure Moved (O : Call → Prop) (db : State) (next : Option Call) : Prop where
  carried : Carried db fun c => O c ∨ next = some c
  lone : ∀ d, next = some d → d.stage.carries = true → ∀ c, O c → c.stage.carries = false

section Effects

variable {O : Call → Prop} {σ : Stage} {u : Bool} {db db' : State} {next : Option Call}

/-- Nothing happens to what is counted. -/
theorem Moving.same (h : Moving O σ db) (hautomatic : db'.automatic = db.automatic)
    (hfailures : db'.failures = db.failures) (hactive : db'.active = db.active)
    (hpending : db'.pending = db.pending ∨ db'.pending = none)
    (hnext : ∀ d, next = some d → Follows σ d.stage) : Moved O db' next := by
  have hcarries : ∀ d, next = some d → d.stage.carries = true → σ.carries = true := by
    intro d hd hc
    rw [← (hnext d hd).carries hc]
    exact hc
  refine ⟨⟨?_, ?_, ?_, ?_⟩, fun d hd hc => (h.idle (hcarries d hd hc)).2.2⟩
  · rw [hautomatic]
    exact h.automatic
  · intro c hc
    rw [hautomatic, hfailures]
    rcases hc with hO | hd
    · exact h.calls c hO
    · exact (hnext c hd).counted h.mover
  · intro timer htimer
    have hold : db.pending = some timer := by
      rcases hpending with heq | hnone
      · rw [← heq]
        exact htimer
      · rw [hnone] at htimer
        cases htimer
    obtain ⟨hcounted, hidle, hothers⟩ := h.timer timer hold
    rw [hautomatic, hfailures, hactive]
    refine ⟨hcounted, hidle, fun c hc => ?_⟩
    rcases hc with hO | hd
    · exact hothers c hO
    · refine Bool.eq_false_iff.mpr fun hcarry => ?_
      have hnone := (h.idle (hcarries c hd hcarry)).1
      rw [hold] at hnone
      cases hnone
  · intro i hi
    rw [hactive] at hi
    obtain ⟨hauto, hfail, hothers⟩ := h.run i hi
    rw [hautomatic, hfailures]
    refine ⟨hauto, hfail, fun c hc => ?_⟩
    rcases hc with hO | hd
    · exact hothers c hO
    · refine Bool.eq_false_iff.mpr fun hcarry => ?_
      have hnone := (h.idle (hcarries c hd hcarry)).2.1
      rw [hi] at hnone
      cases hnone

/-- Whatever carried the attempts on, now the call `d` may. -/
theorem moved_call {d : Call} (hothers : ∀ c, O c → c.stage.carries = false)
    (hcalls : ∀ c, O c → c.stage.Counted db.automatic db.failures)
    (hautomatic : db'.automatic ≤ MAX_AUTO_RESTART_ATTEMPTS) (hpending : db'.pending = none)
    (hactive : db'.active = none) (hd : d.stage.Counted db'.automatic db'.failures) :
    Moved O db' (some d) where
  lone _ _ _ := hothers
  carried := by
    refine ⟨hautomatic, fun c hc => ?_, fun timer htimer => ?_, fun i hi => ?_⟩
    · rcases hc with hO | hn
      · exact counted_of_not_carries (hcalls c hO) (hothers c hO)
      · rw [← Option.some.inj hn]
        exact hd
    · rw [hpending] at htimer
      cases htimer
    · rw [hactive] at hi
      cases hi

/-- Now no call does. -/
theorem moved_other (hothers : ∀ c, O c → c.stage.carries = false)
    (hcalls : ∀ c, O c → c.stage.Counted db.automatic db.failures)
    (hautomatic : db'.automatic ≤ MAX_AUTO_RESTART_ATTEMPTS)
    (htimer : ∀ timer, db'.pending = some timer →
      timer.Counted db'.automatic db'.failures ∧ db'.active = none)
    (hrun : ∀ i, db'.active = some i → db'.automatic = 0 ∧ db'.failures = 0)
    (hnext : ∀ d, next = some d → d.stage = .online) : Moved O db' next := by
  have hall : ∀ c, O c ∨ next = some c → c.stage.carries = false := by
    intro c hc
    rcases hc with hO | hn
    · exact hothers c hO
    · rw [hnext c hn]
      rfl
  refine ⟨⟨hautomatic, fun c hc => ?_, fun timer ht => ?_, fun i hi => ?_⟩, fun d hd hc => ?_⟩
  · rcases hc with hO | hn
    · exact counted_of_not_carries (hcalls c hO) (hothers c hO)
    · rw [hnext c hn]
      trivial
  · obtain ⟨hcounted, hidle⟩ := htimer timer ht
    exact ⟨hcounted, hidle, hall⟩
  · obtain ⟨hauto, hfail⟩ := hrun i hi
    exact ⟨hauto, hfail, hall⟩
  · rw [hall d (Or.inr hd)] at hc
    cases hc

/-- A timer fires, and a start begins. -/
theorem Moving.begun {d : Call} {timer : Timer} (h : Moving O σ db)
    (htimer : db.pending = some timer) (hstage : d.stage = .starting timer.attempt) :
    Moved O { db with starting := true, pending := none, automatic := db.automatic + 1 }
      (some d) := by
  obtain ⟨⟨hlt, hattempt, hle⟩, hidle, hothers⟩ := h.timer timer htimer
  refine moved_call hothers h.calls ?_ rfl hidle ?_
  · simp only [MAX_AUTO_RESTART_ATTEMPTS] at hlt ⊢
    omega
  · rw [hstage]
    exact ⟨hlt, hattempt, hle⟩

theorem Moving.startFailed {p : ℤ} (h : Moving O (.starting p) db) :
    Moved O (afterStreamStartFailure (ended db) p).1 (afterStreamStartFailure (ended db) p).2 := by
  obtain ⟨hpending, hactive, hothers⟩ := h.idle rfl
  obtain ⟨hlt, hattempt, hle⟩ := h.mover
  refine moved_call hothers h.calls h.automatic hpending hactive ⟨hlt, ?_, ?_⟩
  · show p + 2 = ((db.failures + 1 : ℕ) : ℤ)
    omega
  · show db.automatic + 1 ≤ db.failures + 1
    omega

theorem Moving.runFailed {p : ℤ} (h : Moving O (.exited p) db) :
    Moved O (afterStreamStartFailure db p).1 (afterStreamStartFailure db p).2 := by
  obtain ⟨hpending, hactive, hothers⟩ := h.idle rfl
  obtain ⟨rfl, hfail, hauto⟩ := h.mover
  refine moved_call hothers h.calls h.automatic hpending hactive ⟨by decide, ?_, ?_⟩
  · show (-1 : ℤ) + 2 = ((db.failures + 1 : ℕ) : ℤ)
    omega
  · show db.automatic + 1 ≤ db.failures + 1
    omega

theorem Moving.scheduled {p now : ℤ} (h : Moving O (.failed p) db) :
    Moved O (scheduleDesiredStreamRestart db (p + 1) now).1
      (scheduleDesiredStreamRestart db (p + 1) now).2 := by
  obtain ⟨hpending, hactive, hothers⟩ := h.idle rfl
  obtain ⟨hlt, hattempt, hle⟩ := h.mover
  unfold scheduleDesiredStreamRestart
  split
  case isTrue hlimit =>
    refine moved_call hothers h.calls h.automatic hpending hactive ?_
    show MAX_AUTO_RESTART_ATTEMPTS < (db.failures : ℤ)
    omega
  case isFalse hgo =>
    refine moved_other hothers h.calls h.automatic (fun timer htimer => ?_) (fun i hi => ?_)
      fun d hd => by cases hd
    · obtain rfl := Option.some.inj htimer
      refine ⟨⟨not_le.mp hgo, ?_, hle⟩, hactive⟩
      show p + 1 + 1 = (db.failures : ℤ)
      omega
    · have hnone : some i = none := hi.symm.trans hactive
      cases hnone

/-- A start that succeeds begins the counts again. -/
theorem Moving.launched {p : ℤ} (h : Moving O (.starting p) db) :
    Moved O (launched db p none).1 (launched db p none).2 := by
  obtain ⟨hpending, -, hothers⟩ := h.idle rfl
  have hnone : ((0 : ℕ) : ℤ) ≤ MAX_AUTO_RESTART_ATTEMPTS := by decide
  refine moved_other hothers h.calls hnone (fun timer htimer => ?_) (fun _ _ => ⟨rfl, rfl⟩)
    fun d hd => ?_
  · have hnone : some timer = none := htimer.symm.trans hpending
    cases hnone
  · rw [← Option.some.inj hd]
    rfl

theorem Moving.exited {i : ℕ} {out : State × Option Call} (h : Moving O (.exit i) db)
    (hC : ∀ p, db.pipelines.row i = some p → p.retryParentAttempt = -1)
    (hout : exited db i = some out) : Moved O out.1 out.2 := by
  obtain ⟨p, hrow, ⟨-, rfl⟩ | ⟨k, hactive, rfl⟩⟩ := exited_cases hout
  · exact h.same rfl rfl rfl (Or.inl rfl) fun d hd => by cases hd
  · obtain ⟨hauto, hfail, hothers⟩ := h.run k hactive
    have hpending : db.pending = none := by
      cases hp : db.pending with
      | none => rfl
      | some timer =>
          have hidle := (h.timer timer hp).2.1
          rw [hactive] at hidle
          cases hidle
    refine moved_call hothers h.calls h.automatic hpending rfl ?_
    exact ⟨hC p hrow, hfail, hauto⟩

/-- **Step lemma**, by effects. -/
theorem moved_of_effect {out : State × Option Call} (heffect : Effect σ u db out)
    (h : Moving O σ db)
    (hexit : ∀ i, σ = .exit i → ∀ p, db.pipelines.row i = some p → p.retryParentAttempt = -1)
    (hwatch : σ = .watch → db.active.isSome ∨ db.starting = true ∨ db.pending.isSome) :
    Moved O out.1 out.2 := by
  cases heffect with
  | quiet hdb hnext =>
      rcases hdb with rfl | rfl
      · exact h.same rfl rfl rfl (Or.inl rfl) fun d hd => (hnext d hd).1
      · exact h.same rfl rfl rfl (Or.inr rfl) fun d hd => (hnext d hd).1
  | wrote _ _ _ hnext => exact h.same rfl rfl rfl (Or.inl rfl) fun d hd => (hnext d hd).1
  | begun hidle hnone hstage hunder hfrom =>
      rcases hfrom with ⟨rfl, -⟩ | ⟨hσ, -, -, -, hpending⟩ | ⟨timer, htimer, rfl, rfl, rfl⟩
      · exact absurd h.mover id
      · rcases hwatch hσ with hbusy | hbusy | hbusy
        · rw [hidle] at hbusy
          cases hbusy
        · rw [hnone] at hbusy
          cases hbusy
        · rw [hpending] at hbusy
          cases hbusy
      · exact h.begun htimer hstage
  | ended => exact h.same rfl rfl rfl (Or.inl rfl) fun d hd => by cases hd
  | startFailed hσ =>
      subst hσ
      exact h.startFailed
  | runFailed hσ =>
      subst hσ
      exact h.runFailed
  | scheduled hσ =>
      subst hσ
      exact h.scheduled
  | launched hσ =>
      subst hσ
      exact h.launched
  | stopped hσ =>
      subst hσ
      exact absurd h.mover id
  | exited hσ hout =>
      subst hσ
      exact h.exited (hexit _ rfl) hout

end Effects

/-! ## Runs -/

/-- The attempts are carried on by one thing at most. -/
structure Chained (s : InFlight State Call) : Prop where
  carried : Carried s.db fun c => ∃ i, s.calls.row i = some c
  lone : Service.Apart (fun c c' => c.stage.carries = true → c'.stage.carries = false) s.calls

theorem Chained.bounded {s : InFlight State Call} (h : Chained s) : Bounded s where
  automatic := h.carried.automatic
  budget timer htimer := (h.carried.timer timer htimer).1.2.1
  limit i c hi hlimit := by
    have hcounted := h.carried.calls c ⟨i, hi⟩
    rw [hlimit] at hcounted
    exact hcounted

theorem Chained.moving_resume {s : InFlight State Call} (h : Chained s) {call : ℕ} {c : Call}
    (hrow : s.calls.row call = some c) (now : ℤ) :
    Moving (Others s call) c.stage { s.db with clock := now } where
  automatic := h.carried.automatic
  calls := by
    rintro d ⟨i, -, hi⟩
    exact h.carried.calls d ⟨i, hi⟩
  timer timer htimer := by
    obtain ⟨hcounted, hidle, hcalls⟩ := h.carried.timer timer htimer
    refine ⟨hcounted, hidle, ?_⟩
    rintro d ⟨i, -, hi⟩
    exact hcalls d ⟨i, hi⟩
  run i hactive := by
    obtain ⟨hauto, hfail, hcalls⟩ := h.carried.run i hactive
    refine ⟨hauto, hfail, ?_⟩
    rintro d ⟨j, -, hj⟩
    exact hcalls d ⟨j, hj⟩
  mover := h.carried.calls c ⟨call, hrow⟩
  idle hcarries := by
    refine ⟨?_, ?_, ?_⟩
    · refine Option.eq_none_iff_forall_ne_some.mpr fun timer htimer => ?_
      rw [(h.carried.timer timer htimer).2.2 c ⟨call, hrow⟩] at hcarries
      cases hcarries
    · refine Option.eq_none_iff_forall_ne_some.mpr fun i hactive => ?_
      rw [(h.carried.run i hactive).2.2 c ⟨call, hrow⟩] at hcarries
      cases hcarries
    · rintro d ⟨i, hne, hi⟩
      exact h.lone call i c d hne.symm hrow hi hcarries

theorem Chained.moving_start {s : InFlight State Call} (h : Chained s) {r : Request}
    (hr : r.stage ≠ .admin ∧ r.stage ≠ .stop) (now : ℤ) :
    Moving (fun c => ∃ i, s.calls.row i = some c) r.stage { s.db with clock := now } where
  automatic := h.carried.automatic
  calls := h.carried.calls
  timer := h.carried.timer
  run := h.carried.run
  mover := by
    cases r with
    | start | postStart | postStop | patch | remove => exact absurd rfl hr.1
    | stop => exact absurd rfl hr.2
    | list | watchdog | timer | exit => trivial
  idle hcarries := by cases r <;> cases hcarries

theorem chained_resume {s : InFlight State Call} {call : ℕ} {c : Call} {a : Answer}
    {out : State × Option Call} (h : Chained s) (hrow : s.calls.row call = some c)
    (hC : c.stage = .watch → s.db.active.isSome ∨ s.db.starting = true ∨ s.db.pending.isSome)
    (hresume : resume s.db c a = some out) :
    Chained ⟨out.1, Service.advance s.calls call out.2⟩ := by
  obtain ⟨-, heffect⟩ := resume_effect hresume
  have hmoved := moved_of_effect heffect (h.moving_resume hrow a.now)
    (fun i hi => absurd hi (stage_ne_exit c i)) hC
  obtain ⟨hautomatic, hcounted, htimer, hrun⟩ := hmoved.carried
  have hcalls : ∀ d, (∃ i, (Service.advance s.calls call out.2).row i = some d) →
      Others s call d ∨ out.2 = some d := by
    rintro d ⟨i, hi⟩
    rcases Service.advance_row hi with ⟨-, hd⟩ | hother
    · exact Or.inr hd
    · exact Or.inl ⟨i, hother⟩
  refine ⟨⟨hautomatic, fun d hd => hcounted d (hcalls d hd), fun timer ht => ?_,
    fun i hi => ?_⟩, ?_⟩
  · obtain ⟨htime, hidle, hothers⟩ := htimer timer ht
    exact ⟨htime, hidle, fun d hd => hothers d (hcalls d hd)⟩
  · obtain ⟨hauto, hfail, hothers⟩ := hrun i hi
    exact ⟨hauto, hfail, fun d hd => hothers d (hcalls d hd)⟩
  · exact h.lone.advance_kind fun d hd hs i c' hne hi => hmoved.lone d hd hs c' ⟨i, hne, hi⟩

theorem chained_start {s : InFlight State Call} {r : Request} {db : State} {cs : List Call}
    (h : Chained s) (hr : r.stage ≠ .admin ∧ r.stage ≠ .stop) (hC : FirstRun s.db r)
    (hstart : start s.db r = some (db, cs)) : Chained ⟨db, cs.foldl Table.insert s.calls⟩ := by
  obtain ⟨-, next, rfl, heffect⟩ := start_effect hstart
  have hexit : ∀ i, r.stage = .exit i → ∀ p, s.db.pipelines.row i = some p →
      p.retryParentAttempt = -1 := by
    intro i hi
    cases r with
    | exit j now =>
        obtain rfl := Stage.exit.inj hi
        exact hC
    | _ => cases hi
  have hwatch : r.stage = .watch →
      s.db.active.isSome ∨ s.db.starting = true ∨ s.db.pending.isSome := by
    intro hstage
    cases r <;> cases hstage
  have hmoved := moved_of_effect heffect (h.moving_start hr r.now) hexit hwatch
  obtain ⟨hautomatic, hcounted, htimer, hrun⟩ := hmoved.carried
  have hcalls : ∀ d, (∃ i, (next.toList.foldl Table.insert s.calls).row i = some d) →
      (∃ i, s.calls.row i = some d) ∨ next = some d := by
    rintro d ⟨i, hi⟩
    exact Service.start_row hi
  refine ⟨⟨hautomatic, fun d hd => hcounted d (hcalls d hd), fun timer ht => ?_,
    fun i hi => ?_⟩, ?_⟩
  · obtain ⟨htime, hidle, hothers⟩ := htimer timer ht
    exact ⟨htime, hidle, fun d hd => hothers d (hcalls d hd)⟩
  · obtain ⟨hauto, hfail, hothers⟩ := hrun i hi
    exact ⟨hauto, hfail, fun d hd => hothers d (hcalls d hd)⟩
  · exact h.lone.start_kind fun d hd hs i c' hi => hmoved.lone d hd hs c' ⟨i, hi⟩

theorem chained_step {s s' : InFlight State Call} {e : Event Request Answer} (h : Chained s)
    (he : Unattended e) (hC : Unbroken s e) (hstep : service.sys.step s e = some s') :
    Chained s' := by
  cases e with
  | start r =>
      obtain ⟨db, cs, hstart, rfl⟩ := Service.step_start _ hstep
      exact chained_start h he hC hstart
  | resume call a =>
      obtain ⟨c, db, next, hrow, hresume, rfl⟩ := Service.step_resume _ hstep
      exact chained_resume h hrow (hC c hrow) hresume

/-- By induction on the events, of which none is an administrator's. -/
theorem chained_run {events : List (Event Request Answer)} {s t : InFlight State Call}
    (h : Chained s) (hunattended : ∀ e ∈ events, Unattended e)
    (hC : service.sys.Meets Unbroken s events) (hrun : service.sys.run s events = some t) :
    Chained t := by
  induction events generalizing s with
  | nil =>
      obtain rfl := Option.some.inj hrun
      exact h
  | cons e events ih =>
      obtain ⟨s', hstep, hrest⟩ := service.sys.run_cons_eq_some.mp hrun
      have hchained := chained_step h (hunattended e List.mem_cons_self) hC.1 hstep
      exact ih hchained (fun e' he' => hunattended e' (List.mem_cons_of_mem e he'))
        (hC.2 s' hstep) hrest

/-- The first start, by hand. -/
theorem chained_first {row : Option StreamDestination} {clock now : ℤ} {envOk : Bool}
    {s : InFlight State Call}
    (hstep : service.sys.step (opening row clock) (.start (.start envOk now)) = some s) :
    Chained s := by
  obtain ⟨db, cs, hstart, rfl⟩ := Service.step_start _ hstep
  obtain ⟨-, hstart⟩ := Option.ite_none_right_eq_some.mp hstart
  obtain ⟨rfl, rfl⟩ := Prod.mk.inj (Option.some.inj hstart)
  obtain ⟨hstage, -⟩ := begun_stage (-1) envOk
  have hcalls : ∀ i c, (Table.empty.insert
      (Call.asked (if envOk then Await.row (-1) else .envRow (-1)))).row i = some c →
        c.stage = .starting (-1) := by
    intro i c hi
    rcases Table.insert_row_eq_some.mp hi with ⟨-, rfl⟩ | hold
    · exact hstage
    · cases hold
  have hzero : ((0 : ℕ) : ℤ) ≤ MAX_AUTO_RESTART_ATTEMPTS := by decide
  refine ⟨⟨hzero, ?_, ?_, ?_⟩, ?_⟩
  · rintro c ⟨i, hi⟩
    rw [hcalls i c hi]
    exact ⟨by decide, rfl, le_rfl⟩
  · intro timer htimer
    cases htimer
  · intro i hi
    cases hi
  · intro i j c c' hij hi hj
    rcases Table.insert_row_eq_some.mp hi with ⟨hnewi, -⟩ | hold
    · rcases Table.insert_row_eq_some.mp hj with ⟨hnewj, -⟩ | hold
      · exact absurd (hnewi.trans hnewj.symm) hij
      · cases hold
    · cases hold

/-- **Automatic restarts are bounded** after a start by hand, in the runs in
which only first runs end and the watchdog has nothing to start. -/
theorem restarts_bounded {row : Option StreamDestination} {clock now : ℤ} {envOk : Bool}
    {events : List (Event Request Answer)} {s : InFlight State Call}
    (hunattended : ∀ e ∈ events, Unattended e)
    (hunbroken : service.sys.Meets Unbroken (opening row clock)
      (.start (.start envOk now) :: events))
    (hrun : service.sys.run (opening row clock) (.start (.start envOk now) :: events) = some s) :
    Bounded s := by
  obtain ⟨s₁, hstep, hrest⟩ := service.sys.run_cons_eq_some.mp hrun
  exact (chained_run (chained_first hstep) hunattended (hunbroken.2 s₁ hstep) hrest).bounded

/-- A destination that is to run. -/
def wantedReady : StreamDestination := { ready with desiredRunning := true }

/-- A start gets to the launch of its pipeline. -/
def toLaunch (call : ℕ) (now : ℤ) : List (Event Request Answer) :=
  answered call now ++ answered call now

/-- A process exits, and the failure is scheduled. -/
def exitAt (pipeline call : ℕ) (now : ℤ) : List (Event Request Answer) :=
  .start (.exit pipeline now) :: (answered call now ++ (answered call now ++ answered call now))

/-- A timer fires, and the start gets to its launch. -/
def retried (call : ℕ) (now : ℤ) : List (Event Request Answer) :=
  .start (.timer true now) :: toLaunch call now

/-- A launch fails, and the failure is scheduled. -/
def launchFails (call next : ℕ) (now : ℤ) : List (Event Request Answer) :=
  .resume call (.launched (some "Xvfb failed to start.") now) :: (answered call now
    ++ (answered call now ++ answered next now))

/-- A stream ends, its first restart fails and the second succeeds; the
watchdog passes by while the timer is set. -/
def recovered : List (Event Request Answer) :=
  toLaunch 1 0 ++ (launchedAt 1 5000 ++ (exitAt 1 2 60000 ++ (retried 3 68000
    ++ (launchFails 3 3 73000 ++ (.start (.watchdog 74000) :: (answered 4 74000
      ++ (.resume 4 (.arrived true 74000) :: (answered 4 74000 ++ (.resume 4 (.arrived true 74000)
        :: (retried 5 89000 ++ launchedAt 5 94000))))))))))

theorem restarts_bounded_recovered :
    ∃ s, service.sys.run (opening (some wantedReady) 0) (.start (.start true 0) :: recovered)
        = some s
      ∧ online s.db.row = true ∧ Bounded s := by
  have hrun : (service.sys.run (opening (some wantedReady) 0)
      (.start (.start true 0) :: recovered)).isSome := by decide +kernel
  exact ⟨_, (Option.some_get hrun).symm, by decide +kernel +revert,
    restarts_bounded (by decide) (by decide +kernel) (Option.some_get hrun).symm⟩

/-- A stream ends, and its first restart succeeds, for the `i`-th time. -/
def restartedAt (i : ℕ) : List (Event Request Answer) :=
  let now : ℤ := 200000 * i
  exitAt (i + 1) (2 * i + 2) (now + 60000)
    ++ (retried (2 * i + 3) (now + 180000) ++ launchedAt (2 * i + 3) (now + 185000))

/-- All of 25 restarts succeed; and the stream ends once more. -/
def healthy : List (Event Request Answer) :=
  toLaunch 1 0 ++ (launchedAt 1 5000 ++ ((List.range 25).flatMap restartedAt
    ++ exitAt 26 52 5060000))

/-- The destination is disabled with 26 starts out of 26 that succeeded. -/
theorem restarts_disabled :
    (∀ e ∈ healthy, Unattended e) ∧
    ∃ s, service.sys.run (opening (some wantedReady) 0) (.start (.start true 0) :: healthy)
        = some s
      ∧ (s.db.pipelines.rows.length, s.db.failures) = (26, 1) ∧ ¬ Bounded s
      ∧ (service.sys.run s (answered 52 5060000)).map (fun s => wanted s.db.row) = some false := by
  have hrun : (service.sys.run (opening (some wantedReady) 0)
      (.start (.start true 0) :: healthy)).isSome := by decide +kernel
  have hcounts : (((service.sys.run (opening (some wantedReady) 0)
      (.start (.start true 0) :: healthy)).get hrun).db.pipelines.rows.length,
      ((service.sys.run (opening (some wantedReady) 0)
        (.start (.start true 0) :: healthy)).get hrun).db.failures) = (26, 1) := by
    decide +kernel +revert
  have hlimit : (((service.sys.run (opening (some wantedReady) 0)
      (.start (.start true 0) :: healthy)).get hrun).calls.row 52).map Call.stage
        = some .limit := by
    decide +kernel +revert
  have hdisabled : (service.sys.run ((service.sys.run (opening (some wantedReady) 0)
      (.start (.start true 0) :: healthy)).get hrun) (answered 52 5060000)).map
        (fun s => wanted s.db.row) = some false := by
    decide +kernel +revert
  refine ⟨by decide +kernel, _, (Option.some_get hrun).symm, hcounts, fun h => ?_, hdisabled⟩
  obtain ⟨c, hrow, hstage⟩ := Option.map_eq_some_iff.mp hlimit
  have hbudget := h.limit 52 c hrow hstage
  have hone := (Prod.mk.inj hcounts).2
  rw [hone] at hbudget
  exact absurd hbudget (by decide)

end BlockMiner.StreamRunner
