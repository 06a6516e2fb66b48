import BlockMiner.Shortlink

/-!
# A rewarded run has all its steps

The row says how far a run has come only if each accepted step was the one it
was waiting for. That is not checked: the number of the step is the client's,
and the token and the time of the step before are those of an earlier read.
So the runs are complete, and one a day, where every step that commits is the
awaited one, eight seconds after the row's, and a last one the first of its
day (`OnTrack`). `Progress` is what the row then says about the marks.
-/

namespace BlockMiner.Shortlink

open Spending (startUtcDay)

/-! ## What is to hold -/

def Mark.IsStart (m : Mark) : Prop := ∃ t, m = .started t

/-- Since the last start the steps 1 and 2 have been accepted in this order,
each eight seconds after the one before, and the second as long before `t`. -/
def StepsBefore (earlier : List Mark) (t : ℕ) : Prop :=
  ∃ a b c rest t₂ t₁ t₀,
    earlier = a ++ .accepted 2 t₂ :: (b ++ .accepted 1 t₁ :: (c ++ .started t₀ :: rest))
      ∧ (∀ m ∈ a ++ (b ++ c), ¬ m.IsStart)
      ∧ t₀ + 8000 ≤ t₁ ∧ t₁ + 8000 ≤ t₂ ∧ t₂ + 8000 ≤ t

def RunsComplete : List Mark → Prop
  | [] => True
  | m :: earlier =>
      (∀ t, m = .accepted TOTAL_STEPS t → StepsBefore earlier t) ∧ RunsComplete earlier

/-- The mark of a run that was rewarded on the day of `instant`. -/
def isReward (instant : ℕ) : Mark → Bool
  | .started _ => false
  | .accepted step t => step = TOTAL_STEPS && startUtcDay t = startUtcDay instant

def runsRewarded (marks : List Mark) (instant : ℕ) : ℕ := marks.countP (isReward instant)

structure Earned (db : Db) : Prop where
  complete : ∀ userId, RunsComplete (db.marks userId)
  daily : ∀ userId instant, runsRewarded (db.marks userId) instant ≤ MAX_DAILY_RUNS

/-- The step a row is waiting for. -/
def ShortlinkCompletion.awaited (status : ShortlinkCompletion) : Option ℤ :=
  status.sessionToken.map fun _ => if status.currentStep = 0 then 1 else status.currentStep

/-- An accepted step is the awaited one, in time, and a last one comes after
the day of the last run. -/
def OnTrack (db : Db) : Call → Answer → Prop
  | .stepCommit request step _, .ok _ => ∀ status ∈ db.row request.userId,
      status.awaited = some step ∧ 8000 ≤ timeElapsed status request.now
        ∧ (step = TOTAL_STEPS → ∀ last ∈ status.completedAt, last < startUtcDay request.now)
  | _, _ => True

instance (db : Db) (c : Call) (a : Answer) : Decidable (OnTrack db c a) := by
  unfold OnTrack
  split <;> infer_instance

/-! ## How far a run has come -/

/-- The marks of a run that has come to a step, and when. -/
inductive Progress : List Mark → ℤ → ℕ → Prop
  | started {t rest} : Progress (.started t :: rest) 0 t
  | first {marks t t'} (h : Progress marks 0 t) (ht : t + 8000 ≤ t') :
      Progress (.accepted 1 t' :: marks) 2 t'
  | second {marks t t'} (h : Progress marks 2 t) (ht : t + 8000 ≤ t') :
      Progress (.accepted 2 t' :: marks) 3 t'

theorem Progress.stepsBefore {marks : List Mark} {t t' : ℕ} (h : Progress marks 3 t)
    (ht : t + 8000 ≤ t') : StepsBefore marks t' := by
  cases h with
  | second h₂ ht₂ =>
      cases h₂ with
      | first h₁ ht₁ =>
          cases h₁ with
          | started => exact ⟨[], [], [], _, _, _, _, rfl, by simp, ht₁, ht₂, ht⟩

/-- A row that is waiting for a step is up to date with the marks. -/
def UpToDate (db : Db) (userId : ℕ) : Prop :=
  ∀ status, db.row userId = some status → status.sessionToken.isSome →
    ∃ t, status.stepStartedAt = some t ∧ Progress (db.marks userId) status.currentStep t

structure Sound (db : Db) : Prop extends Earned db where
  upToDate : ∀ userId, UpToDate db userId
  /-- The row knows the last rewarded run. -/
  latest : ∀ userId t, .accepted TOTAL_STEPS t ∈ db.marks userId →
    ∃ status last, db.row userId = some status ∧ status.completedAt = some last ∧ t ≤ last

/-! ## What the writes keep -/

/-- The updates that are not part of a run. -/
structure Quiet (db db' : Db) : Prop where
  marks : db'.marks = db.marks
  old : ∀ userId status, db.row userId = some status → ∃ status', db'.row userId = some status'
    ∧ status'.completedAt = status.completedAt
  new : ∀ userId status', db'.row userId = some status' → status'.sessionToken.isSome →
    ∃ status, db.row userId = some status ∧ status.sessionToken = status'.sessionToken
      ∧ status.stepStartedAt = status'.stepStartedAt ∧ status.currentStep = status'.currentStep

theorem quiet_of_eq {db db' : Db} (hmarks : db'.marks = db.marks) (hrow : db'.row = db.row) :
    Quiet db db' where
  marks := hmarks
  old userId status h := ⟨status, by rw [hrow, h], rfl⟩
  new userId status h _ := ⟨status, by rw [← hrow, h], rfl, rfl, rfl⟩

theorem Sound.quiet {db db' : Db} (h : Sound db) (hq : Quiet db db') : Sound db' where
  complete := by
    rw [hq.marks]
    exact h.complete
  daily := by
    rw [hq.marks]
    exact h.daily
  upToDate userId status' hrow hsome := by
    obtain ⟨status, hold, htoken, hstarted, hstep⟩ := hq.new userId status' hrow hsome
    rw [hq.marks, ← hstarted, ← hstep]
    exact h.upToDate userId status hold (htoken ▸ hsome)
  latest userId t hmem := by
    rw [hq.marks] at hmem
    obtain ⟨status, last, hrow, hlast, hle⟩ := h.latest userId t hmem
    obtain ⟨status', hrow', hsame⟩ := hq.old userId status hrow
    exact ⟨status', last, hrow', hsame.trans hlast, hle⟩

theorem setRow_quiet {db : Db} {userId : ℕ} {status : ShortlinkCompletion}
    (hold : ∀ old, db.row userId = some old → status.completedAt = old.completedAt)
    (hnew : status.sessionToken.isSome → ∃ old, db.row userId = some old
      ∧ old.sessionToken = status.sessionToken ∧ old.stepStartedAt = status.stepStartedAt
      ∧ old.currentStep = status.currentStep) : Quiet db (setRow db userId status) where
  marks := rfl
  old u old hrow := by
    unfold setRow
    by_cases hu : u = userId
    · subst hu
      exact ⟨status, Function.update_self .., hold old hrow⟩
    · exact ⟨old, (Function.update_of_ne hu _ _).trans hrow, rfl⟩
  new u status' hrow hsome := by
    unfold setRow at hrow
    by_cases hu : u = userId
    · subst hu
      simp only [Function.update_self, Option.some.injEq] at hrow
      subst hrow
      exact hnew hsome
    · exact ⟨status', (Function.update_of_ne hu _ _).symm.trans hrow, rfl, rfl, rfl⟩

theorem resetDaily_quiet {db : Db} {userId resetAt : ℕ} {out : Db × ShortlinkCompletion}
    (h : resetDaily db userId resetAt = some out) : Quiet db out.1 := by
  obtain ⟨old, hold, rfl⟩ := Option.map_eq_some_iff.mp h
  refine setRow_quiet (fun status hrow => ?_) fun _ => ⟨old, hold, rfl, rfl, rfl⟩
  rw [← Option.some.inj (hold.symm.trans hrow)]

section Marked

/-! A write that adds a mark to the user's, and sets the row. -/

variable {db : Db} {userId : ℕ} {status : ShortlinkCompletion} {m : Mark}

theorem marked_marks (u : ℕ) : (mark (setRow db userId status) userId m).marks u
    = if u = userId then m :: db.marks userId else db.marks u := by
  simp only [mark, setRow, Function.update_apply]

theorem marked_row (u : ℕ) : (mark (setRow db userId status) userId m).row u
    = if u = userId then some status else db.row u := by
  simp only [mark, setRow, Function.update_apply]

/-- What is left to show of such a write. -/
theorem Sound.marked (h : Sound db)
    (hcomplete : ∀ t, m = .accepted TOTAL_STEPS t → StepsBefore (db.marks userId) t)
    (hdaily : ∀ t, m = .accepted TOTAL_STEPS t →
      ∀ old ∈ db.row userId, ∀ last ∈ old.completedAt, last < startUtcDay t)
    (hdate : status.sessionToken.isSome → ∃ t, status.stepStartedAt = some t
      ∧ Progress (m :: db.marks userId) status.currentStep t)
    (hlatest : (∃ t, m = .accepted TOTAL_STEPS t ∧ status.completedAt = some t)
      ∨ (¬∃ t, m = .accepted TOTAL_STEPS t)
        ∧ ∀ old ∈ db.row userId, status.completedAt = old.completedAt) :
    Sound (mark (setRow db userId status) userId m) := by
  have hearlier : ∀ t, m = .accepted TOTAL_STEPS t →
      ∀ t', .accepted TOTAL_STEPS t' ∈ db.marks userId → t' < startUtcDay t := by
    intro t hm t' hmem
    obtain ⟨old, last, hrow, hlast, hle⟩ := h.latest userId t' hmem
    exact hle.trans_lt (hdaily t hm old hrow last hlast)
  refine ⟨⟨fun u => ?_, fun u instant => ?_⟩, fun u => ?_, fun u t hmem => ?_⟩
  · rw [marked_marks]
    split
    · exact ⟨hcomplete, h.complete userId⟩
    · exact h.complete u
  · rw [marked_marks]
    split
    case isFalse => exact h.daily u instant
    case isTrue =>
      rw [runsRewarded, List.countP_cons]
      by_cases hreward : isReward instant m = true
      · -- no other run has been rewarded on the day of this one
        rw [if_pos hreward]
        cases m with
        | started t => cases hreward
        | accepted step t =>
            simp only [isReward, Bool.and_eq_true, decide_eq_true_eq] at hreward
            obtain ⟨rfl, hday⟩ := hreward
            have hnone : (db.marks userId).countP (isReward instant) = 0 := by
              rw [List.countP_eq_zero]
              intro m' hmem' hreward'
              cases m' with
              | started t' => cases hreward'
              | accepted step' t' =>
                  simp only [isReward, Bool.and_eq_true, decide_eq_true_eq] at hreward'
                  obtain ⟨rfl, hday'⟩ := hreward'
                  have hlt := hearlier t rfl t' hmem'
                  rw [hday, ← hday'] at hlt
                  unfold startUtcDay at hlt
                  omega
            rw [hnone]
            exact le_rfl
      · rw [if_neg hreward]
        exact h.daily userId instant
  · intro status' hrow hsome
    rw [marked_marks]
    rw [marked_row] at hrow
    split at hrow
    case isTrue hu =>
      obtain rfl := Option.some.inj hrow
      rw [if_pos hu]
      exact hdate hsome
    case isFalse hu =>
      rw [if_neg hu]
      exact h.upToDate u status' hrow hsome
  · rw [marked_marks] at hmem
    rw [marked_row]
    by_cases hu : u = userId
    · subst hu
      rw [if_pos rfl] at hmem ⊢
      rcases hlatest with ⟨t', rfl, hcompleted⟩ | ⟨hnot, hsame⟩
      · refine ⟨status, t', rfl, hcompleted, ?_⟩
        rcases List.mem_cons.mp hmem with heq | hold
        · cases heq
          exact le_rfl
        · have hlt := hearlier t' rfl t hold
          unfold startUtcDay at hlt
          omega
      · rcases List.mem_cons.mp hmem with rfl | hold
        · exact absurd ⟨t, rfl⟩ hnot
        · obtain ⟨old, last, hrow, hlast, hle⟩ := h.latest u t hold
          exact ⟨status, last, rfl, (hsame old hrow).trans hlast, hle⟩
    · rw [if_neg hu] at hmem ⊢
      exact h.latest u t hmem

end Marked

theorem Sound.upsertStart {db : Db} (h : Sound db) (userId startedAt : ℕ) (token : String) :
    Sound (upsertStart db userId startedAt token) := by
  refine h.marked (fun t hm => by cases hm) (fun t hm => by cases hm)
    (fun _ => ⟨startedAt, rfl, .started⟩) (Or.inr ⟨?_, fun old hrow => ?_⟩)
  · rintro ⟨t, ht⟩
    cases ht
  · show ((db.row userId).getD .empty).completedAt = old.completedAt
    rw [show db.row userId = some old from hrow, Option.getD_some]

theorem commitStep_cases {db db' : Db} {config : Config} {userId now : ℕ} {step : ℤ}
    {token : Option String} (h : commitStep db config userId step token now = some db') :
    ∃ status, db.row userId = some status
      ∧ Quiet (mark (setRow db userId (status.complete step token now)) userId
          (.accepted step now)) db' := by
  unfold commitStep at h
  obtain ⟨-, -, h⟩ := Option.bind_eq_some_iff.mp h
  obtain ⟨status, hrow, h⟩ := Option.bind_eq_some_iff.mp h
  refine ⟨status, hrow, ?_⟩
  split at h
  · obtain ⟨machine, -, h⟩ := Option.bind_eq_some_iff.mp h
    obtain rfl := Option.some.inj h
    exact quiet_of_eq rfl rfl
  · obtain rfl := Option.some.inj h
    exact quiet_of_eq rfl rfl

/-- The awaited step takes the run one step on. -/
theorem Progress.next {marks : List Mark} {step current : ℤ} {t t' : ℕ}
    (h : Progress marks current t) (hstep : (if current = 0 then 1 else current) = step)
    (ht : t + 8000 ≤ t') :
    (step = TOTAL_STEPS → StepsBefore marks t')
      ∧ (step ≠ TOTAL_STEPS → Progress (.accepted step t' :: marks) (nextStep step) t') := by
  subst hstep
  cases h with
  | started =>
      refine ⟨fun h => ?_, fun _ => .first .started ht⟩
      cases h
  | first h₁ ht₁ =>
      refine ⟨fun h => ?_, fun _ => .second (.first h₁ ht₁) ht⟩
      cases h
  | second h₂ ht₂ =>
      exact ⟨fun _ => (Progress.second h₂ ht₂).stepsBefore ht, fun hne => absurd rfl hne⟩

theorem Sound.commitStep {db db' : Db} {config : Config} {request : StepRequest} {step : ℤ}
    {token : Option String} {answer : ℕ} (h : Sound db)
    (htrack : OnTrack db (.stepCommit request step token) (.ok answer))
    (htoken : step = TOTAL_STEPS → token = none)
    (hcommit : commitStep db config request.userId step token request.now = some db') :
    Sound db' := by
  obtain ⟨status, hrow, hq⟩ := commitStep_cases hcommit
  obtain ⟨hawaited, htime, hday⟩ := htrack status hrow
  obtain ⟨sent, hsent, hstep⟩ := Option.map_eq_some_iff.mp hawaited
  obtain ⟨t, hstarted, hprogress⟩ :=
    h.upToDate request.userId status hrow (by rw [hsent, Option.isSome_some])
  have ht : t + 8000 ≤ request.now := by
    simp only [timeElapsed, hstarted, Option.getD_some] at htime
    omega
  obtain ⟨hlast, hnext⟩ := hprogress.next hstep ht
  refine Sound.quiet (h.marked ?_ ?_ ?_ ?_) hq
  · intro t' hm
    cases hm
    exact hlast rfl
  · intro t' hm old hold last hmem
    cases hm
    obtain rfl := Option.some.inj (hrow.symm.trans hold)
    exact hday rfl last hmem
  · intro hsome
    have hne : step ≠ TOTAL_STEPS := by
      intro heq
      rw [show (status.complete step token request.now).sessionToken = token from rfl,
        htoken heq] at hsome
      cases hsome
    exact ⟨request.now, rfl, hnext hne⟩
  · by_cases heq : step = TOTAL_STEPS
    · refine Or.inl ⟨request.now, by rw [heq], ?_⟩
      simp only [ShortlinkCompletion.complete, if_pos heq]
    · refine Or.inr ⟨?_, fun old hold => ?_⟩
      · rintro ⟨t', ht'⟩
        cases ht'
        exact heq rfl
      · obtain rfl := Option.some.inj (hrow.symm.trans hold)
        simp only [ShortlinkCompletion.complete, if_neg heq]

/-! ## Steps -/

/-- The last step hands out no token. -/
def EndsRun (c : Call) : Prop :=
  ∀ request token, c = .stepCommit request TOTAL_STEPS token → token = none

theorem checkStart_endsRun {config : Config} {userId now : ℕ} {status : Option ShortlinkCompletion}
    {c : Call} (h : checkStart config userId now status = some c) : EndsRun c := by
  unfold checkStart at h
  split at h
  · cases h
  · obtain rfl := Option.some.inj h
    intro request token heq
    cases heq

theorem checkStep_endsRun {config : Config} {request : StepRequest} {now : ℕ}
    {status freshStatus : ShortlinkCompletion} {c : Call}
    (h : checkStep config request now status freshStatus = some c) : EndsRun c := by
  simp only [checkStep] at h
  split at h
  · cases h
  · split at h
    · obtain rfl := Option.some.inj h
      intro request token heq
      cases heq
    · obtain ⟨step, -, rfl⟩ := Option.map_eq_some_iff.mp h
      intro request token heq
      simp only [Call.stepCommit.injEq] at heq
      obtain ⟨-, rfl, rfl⟩ := heq
      rfl

/-- A call is not part of a run, starts one, or takes one a step on. -/
theorem act_cases {config : Config} {db db' : Db} {now : ℕ} {c : Call} {next : Option Call}
    (h : act config db now c = some (db', next)) :
    (Quiet db db' ∧ ∀ c' ∈ next, EndsRun c')
      ∨ (∃ userId startedAt token, c = .startUpsert userId startedAt token ∧ next = none
        ∧ db' = upsertStart db userId startedAt token)
      ∨ ∃ request step token, c = .stepCommit request step token ∧ next = none
        ∧ commitStep db config request.userId step token request.now = some db' := by
  cases c with
  | statusFind userId =>
      refine Or.inl ?_
      simp only [act] at h
      split at h
      · obtain ⟨rfl, rfl⟩ := Prod.mk.inj (Option.some.inj h)
        refine ⟨quiet_of_eq rfl rfl, fun c' hc' => ?_⟩
        obtain rfl := Option.some.inj hc'
        intro request token heq
        cases heq
      · obtain ⟨rfl, rfl⟩ := Prod.mk.inj (Option.some.inj h)
        refine ⟨quiet_of_eq rfl rfl, fun c' hc' => ?_⟩
        obtain ⟨-, hc'⟩ := Option.ite_none_right_eq_some.mp hc'
        obtain rfl := Option.some.inj hc'
        intro request token heq
        cases heq
  | statusCreate userId =>
      refine Or.inl ?_
      obtain ⟨hnone, h⟩ := Option.ite_none_left_eq_some.mp h
      obtain ⟨rfl, rfl⟩ := Prod.mk.inj (Option.some.inj h)
      refine ⟨setRow_quiet (fun old hold => ?_) fun hsome => ?_, fun c' hc' => by cases hc'⟩
      · rw [hold] at hnone
        exact absurd rfl hnone
      · cases hsome
  | statusReset userId resetAt =>
      obtain ⟨out, hout, heq⟩ := Option.map_eq_some_iff.mp h
      obtain ⟨rfl, rfl⟩ := Prod.mk.inj heq
      exact Or.inl ⟨resetDaily_quiet hout, fun c' hc' => by cases hc'⟩
  | startFind userId =>
      obtain ⟨rfl, rfl⟩ := Prod.mk.inj (Option.some.inj h)
      refine Or.inl ⟨quiet_of_eq rfl rfl, fun c' hc' => ?_⟩
      have hc'' : (if (db.row userId).any (needsReset · now) then
          some (Call.startReset userId now) else checkStart config userId now (db.row userId))
            = some c' := hc'
      split at hc''
      · obtain rfl := Option.some.inj hc''
        intro request token heq
        cases heq
      · exact checkStart_endsRun hc''
  | startReset userId resetAt =>
      obtain ⟨out, hout, heq⟩ := Option.map_eq_some_iff.mp h
      obtain ⟨rfl, rfl⟩ := Prod.mk.inj heq
      exact Or.inl ⟨resetDaily_quiet hout, fun c' hc' => checkStart_endsRun hc'⟩
  | startUpsert userId startedAt token =>
      obtain ⟨rfl, rfl⟩ := Prod.mk.inj (Option.some.inj h)
      exact Or.inr (Or.inl ⟨userId, startedAt, token, rfl, rfl, rfl⟩)
  | stepFind request =>
      refine Or.inl ?_
      simp only [act] at h
      split at h
      · obtain ⟨rfl, rfl⟩ := Prod.mk.inj (Option.some.inj h)
        exact ⟨quiet_of_eq rfl rfl, fun c' hc' => by cases hc'⟩
      · obtain ⟨rfl, rfl⟩ := Prod.mk.inj (Option.some.inj h)
        refine ⟨quiet_of_eq rfl rfl, fun c' hc' => ?_⟩
        rw [Option.mem_def] at hc'
        split at hc'
        · obtain rfl := Option.some.inj hc'
          intro request token heq
          cases heq
        · exact checkStep_endsRun hc'
  | stepReset request status resetAt =>
      obtain ⟨out, hout, heq⟩ := Option.map_eq_some_iff.mp h
      obtain ⟨rfl, rfl⟩ := Prod.mk.inj heq
      exact Or.inl ⟨resetDaily_quiet hout, fun c' hc' => checkStep_endsRun hc'⟩
  | stepAudit attempt =>
      obtain ⟨rfl, rfl⟩ := Prod.mk.inj (Option.some.inj h)
      exact Or.inl ⟨quiet_of_eq rfl rfl, fun c' hc' => by cases hc'⟩
  | stepCommit request step token =>
      obtain ⟨done, hdone, heq⟩ := Option.map_eq_some_iff.mp h
      obtain ⟨rfl, rfl⟩ := Prod.mk.inj heq
      exact Or.inr (Or.inr ⟨request, step, token, rfl, rfl, hdone⟩)

theorem resume_sound {config : Config} {db db' : Db} {c : Call} {a : Answer} {next : Option Call}
    (hdb : Sound db) (hc : EndsRun c) (htrack : OnTrack db c a)
    (h : resume config db c a = some (db', next)) :
    Sound db' ∧ ∀ c' ∈ next, EndsRun c' := by
  cases a with
  | error =>
      obtain ⟨rfl, rfl⟩ := Prod.mk.inj (Option.some.inj h)
      exact ⟨hdb, fun c' hc' => by cases hc'⟩
  | ok now =>
      cases hact : act config db now c with
      | none =>
          have h' : some (db, none) = some (db', next) := by
            rw [← h, resume, hact, Option.getD_none]
          obtain ⟨rfl, rfl⟩ := Prod.mk.inj (Option.some.inj h')
          exact ⟨hdb, fun c' hc' => by cases hc'⟩
      | some out =>
          have h' : some out = some (db', next) := by
            rw [← h, resume, hact, Option.getD_some]
          obtain rfl := Option.some.inj h'
          rcases act_cases hact with ⟨hq, hnext⟩ | ⟨userId, startedAt, token, rfl, rfl, rfl⟩
            | ⟨request, step, token, rfl, rfl, hcommit⟩
          · exact ⟨hdb.quiet hq, hnext⟩
          · exact ⟨hdb.upsertStart userId startedAt token, fun c' hc' => by cases hc'⟩
          · refine ⟨hdb.commitStep htrack (fun heq => ?_) hcommit, fun c' hc' => by cases hc'⟩
            subst heq
            exact hc request token rfl

/-- Nobody has begun a run yet. -/
def fresh : InFlight Db Call := ⟨⟨fun _ => none, .empty, [], fun _ => []⟩, .empty⟩

theorem fresh_sound : Sound fresh.db where
  complete userId := trivial
  daily userId instant := Nat.zero_le _
  upToDate userId status h := by cases h
  latest userId t h := by cases h

/-- **Shortlink runs.** In a run of the service in which every accepted step
is the awaited one, in time, and the last one the first of its day, each
rewarded run has had all its steps and there is at most one a day. -/
theorem shortlink_earned {config : Config} {events : List (Event Request Answer)}
    {s : InFlight Db Call}
    (htrack : (service config).sys.Meets (Service.Guard OnTrack) fresh events)
    (hrun : (service config).sys.run fresh events = some s) : Earned s.db := by
  refine ((service config).invariant (I := Sound) (J := fun _ c => EndsRun c) ?_ ?_
    ⟨fresh_sound, fun i c hc => by cases hc⟩ htrack hrun).1.toEarned
  · intro db r db' cs hdb h
    obtain ⟨rfl, rfl⟩ := Prod.mk.inj (Option.some.inj h)
    refine ⟨hdb, fun _ hd => hd, fun c hc => ?_⟩
    intro request token heq
    subst heq
    cases r <;> cases List.mem_singleton.mp hc
  · intro db c a db' next hdb hc hC h
    obtain ⟨hdb', hnext⟩ := resume_sound hdb hc hC h
    exact ⟨hdb', fun _ hd => hd, hnext⟩

/-- Tokens that name their step. -/
def plainTokens : Config where
  generateStepToken _ step _ := if step = 1 then "a" else if step = 2 then "b" else "c"
  reward := some (Machines.customMachine 1)

/-- A step of user 7, alone, as the `call`-th request. -/
def stepped (call : ℕ) (step : ℤ) (token : String) (now : ℕ) : List (Event Request Answer) :=
  [.start (.completeShortlinkStep ⟨7, some step, token, false, now⟩), .resume call (.ok now),
    .resume call (.ok now)]

/-- A start and the three steps. -/
def completedInOrder : List (Event Request Answer) :=
  [.start (.startShortlink 7), .resume 1 (.ok 1000), .resume 1 (.ok 1000)]
    ++ (stepped 2 1 "a" 11000 ++ (stepped 3 2 "b" 21000 ++ stepped 4 3 "c" 31000))

theorem shortlink_earned_inOrder :
    ∃ s, (service plainTokens).sys.run fresh completedInOrder = some s
      ∧ s.db.marks 7
        = [.accepted 3 31000, .accepted 2 21000, .accepted 1 11000, .started 1000]
      ∧ Earned s.db := by
  have hrun : ((service plainTokens).sys.run fresh completedInOrder).isSome := by decide +kernel
  exact ⟨_, (Option.some_get hrun).symm, by decide +kernel +revert,
    shortlink_earned (by decide +kernel) (Option.some_get hrun).symm⟩

/-- A start and the last step. -/
def skipped : List (Event Request Answer) :=
  [.start (.startShortlink 7), .resume 1 (.ok 1000), .resume 1 (.ok 1000)]
    ++ stepped 2 3 "a" 11000

/-- The token of the first step is good for the last. -/
theorem shortlink_skipped :
    ∃ s, (service plainTokens).sys.run fresh skipped = some s
      ∧ s.db.marks 7 = [.accepted 3 11000, .started 1000]
      ∧ s.db.machines.inventory.rows.map (·.2.userId) = [7] ∧ ¬ Earned s.db := by
  have hrun : ((service plainTokens).sys.run fresh skipped).isSome := by decide +kernel
  have hmarks : (((service plainTokens).sys.run fresh skipped).get hrun).db.marks 7
      = [.accepted 3 11000, .started 1000] := by decide +kernel +revert
  refine ⟨_, (Option.some_get hrun).symm, hmarks, by decide +kernel +revert, fun h => ?_⟩
  have hcomplete := h.complete 7
  rw [hmarks] at hcomplete
  obtain ⟨a, b, c, rest, t₂, t₁, t₀, heq, -⟩ := hcomplete.1 11000 rfl
  have hlength := congrArg List.length heq
  simp only [List.length_append, List.length_cons, List.length_nil] at hlength
  omega

end BlockMiner.Shortlink
