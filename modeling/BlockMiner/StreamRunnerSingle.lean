import BlockMiner.StreamRunnerSteps

/-!
# One pipeline at a time, and stop means stop

A start begins when nothing is recorded and no other start is under way, and
so there is one live pipeline at most and it is the recorded one, as long as
an exit takes out only what has exited; and nothing is live after a stop as
long as a stop that has `desiredRunning` cleared does not come in the middle
of a start that was let through (`Orderly`). The proof is by effects: `Before`
is what holds of a step's mover and of the other calls, and each effect leads
to `Kept`.
-/

namespace BlockMiner.StreamRunner

/-! ## What is to hold -/

def Live (pipelines : Table Pipeline) (i : ℕ) : Prop :=
  ∃ p, pipelines.row i = some p ∧ p.running = true ∧ p.stopAsked = false

structure Single (db : State) : Prop where
  one : ∀ i j, Live db.pipelines i → Live db.pipelines j → i = j
  recorded : ∀ i, Live db.pipelines i → db.active = some i
  stopped : db.stopped = true → ∀ i, ¬ Live db.pipelines i

/-- A destination that is stopped does not come online. -/
def StaysOffline (db db' : State) : Prop :=
  db.stopped = true → online db'.row = true → online db.row = true

/-- What a stop finds: where the destination is not wanted, no start that was
let through is under way. -/
def NoStart (s : InFlight State Call) : Prop :=
  wanted s.db.row = false → ∀ x ∈ s.calls.rows, x.2.underway = false

instance (s : InFlight State Call) : Decidable (NoStart s) := by
  unfold NoStart
  infer_instance

/-- A process exits while it is recorded, or nothing is. -/
def ExitsRecorded (db : State) : Request → Prop
  | .exit i _ => db.active = some i ∨ db.active = none
  | _ => True

instance (db : State) : ∀ r, Decidable (ExitsRecorded db r) := fun r => by
  unfold ExitsRecorded
  split <;> infer_instance

/-- Exits are of what is recorded, and a stop does not come in the middle of a
start. -/
def Orderly (s : InFlight State Call) : Event Request Answer → Prop
  | .start r => ExitsRecorded s.db r ∧ (r.stage = .stop → NoStart s)
  | .resume call _ => ∀ c ∈ s.calls.row call, c.stage = .stop → NoStart s

instance (s : InFlight State Call) : ∀ e, Decidable (Orderly s e)
  | .start r => inferInstanceAs (Decidable (ExitsRecorded s.db r ∧ (r.stage = .stop → NoStart s)))
  | .resume call _ =>
      inferInstanceAs (Decidable (∀ c ∈ s.calls.row call, c.stage = .stop → NoStart s))

/-! ## Stages -/

theorem Follows.isStart {σ σ' : Stage} (h : Follows σ σ') (hstart : σ'.isStart = true) :
    σ.isStart = true := by
  rcases h with rfl | rfl | ⟨rfl, rfl⟩ | ⟨rfl, rfl⟩ | ⟨rfl, p, rfl⟩
  · exact hstart
  · cases hstart
  · cases hstart
  · cases hstart
  · rfl

theorem Follows.isEarly {σ σ' : Stage} (h : Follows σ σ') (hearly : σ'.isEarly = true) :
    σ.isEarly = true := by
  rcases h with rfl | rfl | ⟨rfl, rfl⟩ | ⟨rfl, rfl⟩ | ⟨rfl, p, rfl⟩
  · exact hearly
  · cases hearly
  · cases hearly
  · cases hearly
  · rfl

theorem isStart_of_isEarly {σ : Stage} (h : σ.isEarly = true) : σ.isStart = true := by
  cases σ <;> first | rfl | cases h

/-! ## Pipelines -/

/-- One pipeline is taken out. -/
theorem live_modify {pipelines : Table Pipeline} {f : Pipeline → Pipeline} {i j : ℕ}
    (hf : ∀ p, (f p).running = true → (f p).stopAsked = true)
    (h : Live (pipelines.modify i f) j) : j ≠ i ∧ Live pipelines j := by
  obtain ⟨p, hrow, hrunning, hasked⟩ := h
  rcases Table.modify_row_eq_some.mp hrow with ⟨rfl, q, hq, rfl⟩ | ⟨hne, hold⟩
  · rw [hf q hrunning] at hasked
    cases hasked
  · exact ⟨hne, p, hold, hrunning, hasked⟩

theorem live_insert {pipelines : Table Pipeline} {p : Pipeline} {j : ℕ}
    (h : Live (pipelines.insert p) j) : j = pipelines.nextId ∨ Live pipelines j := by
  obtain ⟨q, hrow, hlive⟩ := h
  rcases Table.insert_row_eq_some.mp hrow with ⟨hnew, -⟩ | hold
  · exact Or.inl hnew
  · exact Or.inr ⟨q, hold, hlive⟩

/-! ## One step -/

/-- Before a step of a call at stage `σ`; `O` are the other calls. -/
structure Before (O : Call → Prop) (σ : Stage) (u : Bool) (db : State) : Prop where
  recorded : ∀ i, Live db.pipelines i → db.active = some i
  starting : ∀ c, O c → c.stage.isStart = true → db.starting = true
  mover : σ.isStart = true → db.starting = true
  lone : σ.isStart = true → ∀ c, O c → c.stage.isStart = false
  early : ∀ c, O c → c.stage.isEarly = true → db.active = none
  moverEarly : σ.isEarly = true → db.active = none
  quiet : db.stopped = true → wanted db.row = false ∧ (∀ c, O c → c.underway = false)
    ∧ u = false ∧ ∀ i, ¬ Live db.pipelines i

/-- After it, with the call that it goes on as. -/
structure Kept (O : Call → Prop) (db : State) (next : Option Call) : Prop where
  recorded : ∀ i, Live db.pipelines i → db.active = some i
  starting : ∀ c, O c ∨ next = some c → c.stage.isStart = true → db.starting = true
  lone : ∀ d, next = some d → d.stage.isStart = true → ∀ c, O c → c.stage.isStart = false
  early : ∀ c, O c ∨ next = some c → c.stage.isEarly = true → db.active = none
  quiet : db.stopped = true → wanted db.row = false
    ∧ (∀ c, O c ∨ next = some c → c.underway = false) ∧ ∀ i, ¬ Live db.pipelines i

section Effects

variable {O : Call → Prop} {σ : Stage} {u : Bool} {db db' : State} {next : Option Call}

/-- The state is the same where it matters, and the mover goes on as it was. -/
theorem Before.same (h : Before O σ u db) (hactive : db'.active = db.active)
    (hpipelines : db'.pipelines = db.pipelines) (hstarting : db'.starting = db.starting)
    (hrow : db'.stopped = true → db.stopped = true ∧ wanted db'.row = false)
    (hnext : ∀ d, next = some d → Follows σ d.stage)
    (hunder : ∀ d, next = some d → db'.stopped = true → d.underway = true → u = true) :
    Kept O db' next where
  recorded i hlive := by
    rw [hpipelines] at hlive
    rw [hactive]
    exact h.recorded i hlive
  starting c hc hs := by
    rw [hstarting]
    rcases hc with hO | hn
    · exact h.starting c hO hs
    · exact h.mover ((hnext c hn).isStart hs)
  lone d hd hs := h.lone ((hnext d hd).isStart hs)
  early c hc he := by
    rw [hactive]
    rcases hc with hO | hn
    · exact h.early c hO he
    · exact h.moverEarly ((hnext c hn).isEarly he)
  quiet hstopped := by
    obtain ⟨hold, hwanted⟩ := hrow hstopped
    obtain ⟨-, hothers, hu, hnone⟩ := h.quiet hold
    refine ⟨hwanted, fun c hc => ?_, ?_⟩
    · rcases hc with hO | hn
      · exact hothers c hO
      · have hmover := hunder c hn hstopped
        rw [hu] at hmover
        exact Bool.eq_false_iff.mpr fun h => Bool.false_ne_true (hmover h)
    · rw [hpipelines]
      exact hnone

/-- A start ends, or something that is not a start goes on. -/
theorem Before.over (h : Before O σ u db) (hactive : db'.active = db.active)
    (hpipelines : db'.pipelines = db.pipelines)
    (hstarting : db'.starting = db.starting ∨ σ.isStart = true)
    (hrow : db'.row = db.row) (hstopped : db'.stopped = db.stopped)
    (hnext : ∀ d, next = some d → d.stage.isStart = false ∧ d.underway = false) :
    Kept O db' next where
  recorded i hlive := by
    rw [hpipelines] at hlive
    rw [hactive]
    exact h.recorded i hlive
  starting c hc hs := by
    rcases hc with hO | hn
    · rcases hstarting with heq | hmover
      · rw [heq]
        exact h.starting c hO hs
      · rw [h.lone hmover c hO] at hs
        cases hs
    · rw [(hnext c hn).1] at hs
      cases hs
  lone d hd hs := by
    rw [(hnext d hd).1] at hs
    cases hs
  early c hc he := by
    rw [hactive]
    rcases hc with hO | hn
    · exact h.early c hO he
    · have hs := isStart_of_isEarly he
      rw [(hnext c hn).1] at hs
      cases hs
  quiet hs := by
    rw [hstopped] at hs
    obtain ⟨hwanted, hothers, -, hnone⟩ := h.quiet hs
    rw [hrow, hpipelines]
    refine ⟨hwanted, fun c hc => ?_, hnone⟩
    rcases hc with hO | hn
    · exact hothers c hO
    · exact (hnext c hn).2

/-- What was recorded is taken out, and nothing else is live. -/
theorem Before.out (h : Before O σ u db) (hactive : db'.active = none)
    (hpipelines : ∀ i, ¬ Live db'.pipelines i) (hstarting : db'.starting = db.starting)
    (hrow : db'.row = db.row)
    (hstopped : db'.stopped = true → wanted db.row = false ∧ ∀ c, O c → c.underway = false)
    (hnext : ∀ d, next = some d → d.stage.isStart = false ∧ d.underway = false) :
    Kept O db' next where
  recorded i hlive := absurd hlive (hpipelines i)
  starting c hc hs := by
    rcases hc with hO | hn
    · rw [hstarting]
      exact h.starting c hO hs
    · rw [(hnext c hn).1] at hs
      cases hs
  lone d hd hs := by
    rw [(hnext d hd).1] at hs
    cases hs
  early _ _ _ := hactive
  quiet hs := by
    obtain ⟨hwanted, hothers⟩ := hstopped hs
    rw [hrow]
    refine ⟨hwanted, fun c hc => ?_, hpipelines⟩
    rcases hc with hO | hn
    · exact hothers c hO
    · exact (hnext c hn).2

theorem Before.begun {d : Call} {pending : Option Timer} {automatic : ℕ}
    (h : Before O σ u db) (hidle : db.active = none) (hnone : db.starting = false)
    (hunder : d.underway = false) :
    Kept O { db with starting := true, pending := pending, automatic := automatic } (some d) where
  recorded := h.recorded
  starting _ _ _ := rfl
  lone d' hd' hs c hO := by
    refine Bool.eq_false_iff.mpr fun hc => ?_
    have hbusy := h.starting c hO hc
    rw [hnone] at hbusy
    cases hbusy
  early _ _ _ := hidle
  quiet hs := by
    obtain ⟨hwanted, hothers, -, hlive⟩ := h.quiet hs
    refine ⟨hwanted, fun c hc => ?_, hlive⟩
    rcases hc with hO | hn
    · exact hothers c hO
    · rw [← Option.some.inj hn]
      exact hunder

/-- The start that is let through is alone, and nothing was recorded. -/
theorem Before.launched {p : ℤ} (h : Before O (.starting p) true db) :
    Kept O (launched db p none).1 (launched db p none).2 where
  recorded i hlive := by
    rcases live_insert hlive with rfl | hold
    · rfl
    · have hrec := h.recorded i hold
      rw [h.moverEarly rfl] at hrec
      cases hrec
  starting c hc hs := h.mover rfl
  lone d hd hs := h.lone rfl
  early c hc he := by
    rcases hc with hO | hn
    · have hs := isStart_of_isEarly he
      rw [h.lone rfl c hO] at hs
      cases hs
    · rw [← Option.some.inj hn] at he
      cases he
  quiet hs := by
    obtain ⟨-, -, hu, -⟩ := h.quiet hs
    cases hu

theorem Before.stopped (h : Before O σ u db)
    (hC : wanted db.row = false → ∀ c, O c → c.underway = false) :
    Kept O (stopStreamForDestination db).1 (stopStreamForDestination db).2 := by
  have hstopped : (db.stopped || !wanted db.row) = true →
      wanted db.row = false ∧ ∀ c, O c → c.underway = false := by
    intro hs
    rcases Bool.or_eq_true_iff.mp hs with hold | hnew
    · obtain ⟨hwanted, hothers, -, -⟩ := h.quiet hold
      exact ⟨hwanted, hothers⟩
    · have hwanted := Bool.not_eq_true' _ ▸ hnew
      exact ⟨hwanted, hC hwanted⟩
  unfold stopStreamForDestination
  cases hactive : db.active with
  | none =>
      refine h.out rfl (fun i hlive => ?_) rfl rfl hstopped fun d hd => ?_
      · have hrec := h.recorded i hlive
        rw [hactive] at hrec
        cases hrec
      · rw [← Option.some.inj hd]
        exact ⟨rfl, rfl⟩
  | some k =>
      refine h.out rfl (fun i hlive => ?_) rfl rfl hstopped fun d hd => ?_
      · obtain ⟨hne, hold⟩ := live_modify (fun p _ => rfl) hlive
        have hrec := h.recorded i hold
        rw [hactive] at hrec
        exact hne (Option.some.inj hrec).symm
      · rw [← Option.some.inj hd]
        exact ⟨rfl, rfl⟩

theorem Before.exited {i : ℕ} {out : State × Option Call} (h : Before O σ u db)
    (hC : db.active = some i ∨ db.active = none) (hout : exited db i = some out) :
    Kept O out.1 out.2 := by
  have hgone : ∀ j, ¬ Live (db.pipelines.modify i Pipeline.exit) j := by
    intro j hlive
    obtain ⟨hne, hold⟩ := live_modify (f := Pipeline.exit) (fun p hp => by cases hp) hlive
    have hrec := h.recorded j hold
    rcases hC with hi | hnone
    · rw [hi] at hrec
      exact hne (Option.some.inj hrec).symm
    · rw [hnone] at hrec
      cases hrec
  have hquiet : db.stopped = true → wanted db.row = false ∧ ∀ c, O c → c.underway = false := by
    intro hs
    obtain ⟨hwanted, hothers, -, -⟩ := h.quiet hs
    exact ⟨hwanted, hothers⟩
  obtain ⟨p, -, ⟨hactive, rfl⟩ | ⟨k, -, rfl⟩⟩ := exited_cases hout
  · exact h.out hactive hgone rfl rfl hquiet fun d hd => by cases hd
  · refine h.out rfl hgone rfl rfl hquiet fun d hd => ?_
    rw [← Option.some.inj hd]
    exact ⟨rfl, rfl⟩

/-- **Step lemma**, by effects. -/
theorem kept_of_effect {out : State × Option Call} (heffect : Effect σ u db out)
    (h : Before O σ u db)
    (hexit : ∀ i, σ = .exit i → db.active = some i ∨ db.active = none)
    (hstop : σ = .stop → wanted db.row = false → ∀ c, O c → c.underway = false) :
    Kept O out.1 out.2 := by
  have hrow : db.stopped = true → db.stopped = true ∧ wanted db.row = false := by
    intro hs
    exact ⟨hs, (h.quiet hs).1⟩
  cases heffect with
  | quiet hdb hnext =>
      rcases hdb with rfl | rfl
      · exact h.same rfl rfl rfl hrow (fun d hd => (hnext d hd).1) fun d hd _ => (hnext d hd).2
      · exact h.same rfl rfl rfl hrow (fun d hd => (hnext d hd).1) fun d hd _ => (hnext d hd).2
  | @wrote row stopped next hwanted hstopped _ hnext =>
      have hnot : stopped = true → db.stopped = true ∧ wanted row = false := by
        intro hs
        refine ⟨hstopped hs, Bool.eq_false_iff.mpr fun hw => ?_⟩
        rcases hwanted hw with hold | hcleared
        · rw [(h.quiet (hstopped hs)).1] at hold
          cases hold
        · rw [hs] at hcleared
          cases hcleared
      refine h.same rfl rfl rfl hnot (fun d hd => (hnext d hd).1) fun d hd hs hd' => ?_
      rcases (hnext d hd).2 hd' with hu | hw
      · exact hu
      · rw [(h.quiet (hstopped hs)).1] at hw
        cases hw
  | begun hidle hnone _ hunder => exact h.begun hidle hnone hunder
  | ended hσ => exact h.over rfl rfl (Or.inr hσ) rfl rfl fun d hd => by cases hd
  | startFailed hσ =>
      refine h.over rfl rfl (Or.inr (by rw [hσ]; rfl)) rfl rfl fun d hd => ?_
      rw [← Option.some.inj hd]
      exact ⟨rfl, rfl⟩
  | runFailed hσ =>
      refine h.over rfl rfl (Or.inl rfl) rfl rfl fun d hd => ?_
      rw [← Option.some.inj hd]
      exact ⟨rfl, rfl⟩
  | scheduled hσ =>
      unfold scheduleDesiredStreamRestart
      split
      · refine h.over rfl rfl (Or.inl rfl) rfl rfl fun d hd => ?_
        rw [← Option.some.inj hd]
        exact ⟨rfl, rfl⟩
      · exact h.over rfl rfl (Or.inl rfl) rfl rfl fun d hd => by cases hd
  | launched hσ hu =>
      subst hσ hu
      exact h.launched
  | stopped hσ => exact h.stopped (hstop hσ)
  | exited hσ hout => exact h.exited (hexit _ hσ) hout

/-- Only a start that is under way brings the destination online. -/
theorem staysOffline_of_effect {out : State × Option Call} (heffect : Effect σ u db out)
    (h : Before O σ u db) : StaysOffline db out.1 := by
  intro hs honline
  cases heffect with
  | quiet hdb hnext => rcases hdb with rfl | rfl <;> exact honline
  | wrote _ _ hwrote _ =>
      rcases hwrote honline with hold | hu
      · exact hold
      · rw [(h.quiet hs).2.2.1] at hu
        cases hu
  | begun | ended | startFailed | runFailed | launched => exact honline
  | scheduled =>
      unfold scheduleDesiredStreamRestart at honline
      split at honline <;> exact honline
  | stopped =>
      unfold stopStreamForDestination at honline
      split at honline <;> exact honline
  | exited _ hout =>
      obtain ⟨p, -, ⟨-, rfl⟩ | ⟨k, -, rfl⟩⟩ := exited_cases hout <;> exact honline

end Effects

/-! ## Runs -/

structure Sound (s : InFlight State Call) : Prop where
  recorded : ∀ i, Live s.db.pipelines i → s.db.active = some i
  starting : ∀ i c, s.calls.row i = some c → c.stage.isStart = true → s.db.starting = true
  lone : Service.Apart (fun c c' => c.stage.isStart = true → c'.stage.isStart = false) s.calls
  early : ∀ i c, s.calls.row i = some c → c.stage.isEarly = true → s.db.active = none
  quiet : s.db.stopped = true → wanted s.db.row = false
    ∧ (∀ i c, s.calls.row i = some c → c.underway = false) ∧ ∀ i, ¬ Live s.db.pipelines i

theorem Sound.single {s : InFlight State Call} (h : Sound s) : Single s.db where
  one i j hi hj := by
    have hrec := (h.recorded i hi).symm.trans (h.recorded j hj)
    exact Option.some.inj hrec
  recorded := h.recorded
  stopped hs := (h.quiet hs).2.2

/-- The calls in flight but one. -/
def Others (s : InFlight State Call) (call : ℕ) (c : Call) : Prop :=
  ∃ i, i ≠ call ∧ s.calls.row i = some c

theorem Sound.before_resume {s : InFlight State Call} (h : Sound s) {call : ℕ} {c : Call}
    (hrow : s.calls.row call = some c) (now : ℤ) :
    Before (Others s call) c.stage c.underway { s.db with clock := now } where
  recorded := h.recorded
  starting := by
    rintro d ⟨i, -, hi⟩
    exact h.starting i d hi
  mover := h.starting call c hrow
  lone := by
    rintro hs d ⟨i, hne, hi⟩
    exact h.lone call i c d hne.symm hrow hi hs
  early := by
    rintro d ⟨i, -, hi⟩
    exact h.early i d hi
  moverEarly := h.early call c hrow
  quiet hs := by
    obtain ⟨hwanted, hcalls, hlive⟩ := h.quiet hs
    refine ⟨hwanted, ?_, hcalls call c hrow, hlive⟩
    rintro d ⟨i, -, hi⟩
    exact hcalls i d hi

/-- A request is no call yet. -/
theorem Sound.before_start {s : InFlight State Call} (h : Sound s) {σ : Stage}
    (hσ : σ.isStart = false) (now : ℤ) :
    Before (fun c => ∃ i, s.calls.row i = some c) σ false { s.db with clock := now } where
  recorded := h.recorded
  starting := by
    rintro d ⟨i, hi⟩
    exact h.starting i d hi
  mover hs := by
    rw [hσ] at hs
    cases hs
  lone hs := by
    rw [hσ] at hs
    cases hs
  early := by
    rintro d ⟨i, hi⟩
    exact h.early i d hi
  moverEarly he := by
    rw [isStart_of_isEarly he] at hσ
    cases hσ
  quiet hs := by
    obtain ⟨hwanted, hcalls, hlive⟩ := h.quiet hs
    refine ⟨hwanted, ?_, rfl, hlive⟩
    rintro d ⟨i, hi⟩
    exact hcalls i d hi

theorem sound_resume {s : InFlight State Call} {call : ℕ} {c : Call} {a : Answer}
    {out : State × Option Call} (h : Sound s) (hrow : s.calls.row call = some c)
    (hC : c.stage = .stop → NoStart s) (hresume : resume s.db c a = some out) :
    Sound ⟨out.1, Service.advance s.calls call out.2⟩ ∧ StaysOffline s.db out.1 := by
  obtain ⟨-, heffect⟩ := resume_effect hresume
  have hbefore := h.before_resume hrow a.now
  have hoffline := staysOffline_of_effect heffect hbefore
  have hexit : ∀ i, c.stage = .exit i → s.db.active = some i ∨ s.db.active = none :=
    fun i hi => absurd hi (stage_ne_exit c i)
  have hkept := kept_of_effect heffect hbefore hexit fun hstop hwanted d hd => by
    obtain ⟨i, -, hi⟩ := hd
    exact hC hstop hwanted (i, d) (Table.mem_rows.mpr hi)
  -- a call in flight is what this one goes on as, or one of the others
  have hcalls : ∀ i d, (Service.advance s.calls call out.2).row i = some d →
      Others s call d ∨ out.2 = some d := by
    intro i d hi
    rcases Service.advance_row hi with ⟨-, hd⟩ | hother
    · exact Or.inr hd
    · exact Or.inl ⟨i, hother⟩
  refine ⟨⟨hkept.recorded, fun i d hi => hkept.starting d (hcalls i d hi), ?_,
    fun i d hi => hkept.early d (hcalls i d hi), fun hs => ?_⟩, hoffline⟩
  · exact h.lone.advance_kind fun d hd hs i c' hne hi => hkept.lone d hd hs c' ⟨i, hne, hi⟩
  · obtain ⟨hwanted, hunder, hlive⟩ := hkept.quiet hs
    exact ⟨hwanted, fun i d hi => hunder d (hcalls i d hi), hlive⟩

theorem sound_start {s : InFlight State Call} {r : Request} {db : State} {cs : List Call}
    (h : Sound s) (hC : Orderly s (.start r)) (hstart : start s.db r = some (db, cs)) :
    Sound ⟨db, cs.foldl Table.insert s.calls⟩ ∧ StaysOffline s.db db := by
  obtain ⟨-, next, rfl, heffect⟩ := start_effect hstart
  obtain ⟨hexit, hstop⟩ := hC
  have hnot : r.stage.isStart = false := by cases r <;> rfl
  have hbefore := h.before_start hnot r.now
  have hrecorded : ∀ i, r.stage = .exit i → s.db.active = some i ∨ s.db.active = none := by
    intro i hi
    cases r with
    | exit j now =>
        obtain rfl := Stage.exit.inj hi
        exact hexit
    | _ => cases hi
  have hkept := kept_of_effect heffect hbefore hrecorded fun hσ hwanted d hd => by
    obtain ⟨i, hi⟩ := hd
    exact hstop hσ hwanted (i, d) (Table.mem_rows.mpr hi)
  have hoffline := staysOffline_of_effect heffect hbefore
  have hcalls : ∀ i d, (next.toList.foldl Table.insert s.calls).row i = some d →
      (∃ i, s.calls.row i = some d) ∨ next = some d := fun i d hi => Service.start_row hi
  refine ⟨⟨hkept.recorded, fun i d hi => hkept.starting d (hcalls i d hi), ?_,
    fun i d hi => hkept.early d (hcalls i d hi), fun hs => ?_⟩, hoffline⟩
  · exact h.lone.start_kind fun d hd hs i c' hi => hkept.lone d hd hs c' ⟨i, hi⟩
  · obtain ⟨hwanted, hunder, hlive⟩ := hkept.quiet hs
    exact ⟨hwanted, fun i d hi => hunder d (hcalls i d hi), hlive⟩

theorem sound_step {s s' : InFlight State Call} {e : Event Request Answer} (h : Sound s)
    (hC : Orderly s e) (hstep : service.sys.step s e = some s') :
    Sound s' ∧ StaysOffline s.db s'.db := by
  cases e with
  | start r =>
      obtain ⟨db, cs, hstart, rfl⟩ := Service.step_start _ hstep
      exact sound_start h hC hstart
  | resume call a =>
      obtain ⟨c, db, next, hrow, hresume, rfl⟩ := Service.step_resume _ hstep
      exact sound_resume h hrow (hC c hrow) hresume

/-- A server that has just come up. -/
def opening (row : Option StreamDestination) (clock : ℤ) : InFlight State Call :=
  ⟨⟨row, none, false, none, .empty, clock, false, 0, 0⟩, .empty⟩

theorem opening_sound (row : Option StreamDestination) (clock : ℤ) :
    Sound (opening row clock) where
  recorded := by
    rintro i ⟨p, hrow, -⟩
    cases hrow
  starting i c hi := by cases hi
  lone i j c c' _ hi := by cases hi
  early i c hi := by cases hi
  quiet hs := by cases hs

/-- **One pipeline at a time, and stop means stop**, in the runs in which
processes exit and stops come in order: in every state they reach, and over
every step they take from there. -/
theorem stream_single {row : Option StreamDestination} {clock : ℤ}
    {events : List (Event Request Answer)} {s : InFlight State Call}
    (horderly : service.sys.Meets Orderly (opening row clock) events)
    (hrun : service.sys.run (opening row clock) events = some s) :
    Single s.db ∧ ∀ e s', Orderly s e → service.sys.step s e = some s' →
      StaysOffline s.db s'.db := by
  have hsound : Sound s := service.sys.run_invariant
    (fun _ _ _ hs hC hstep => (sound_step hs hC hstep).1) (opening_sound row clock) horderly hrun
  exact ⟨hsound.single, fun e s' hC hstep => (sound_step hsound hC hstep).2⟩

/-- A destination that can be streamed and is not wanted. -/
def ready : StreamDestination where
  enabled := true
  desiredRunning := false
  lastWorkerStatus := .OFFLINE
  lastStartedAt := none
  credentials := true

/-- The query of a call is executed, and the call goes on. -/
def answered (call : ℕ) (now : ℤ) : List (Event Request Answer) :=
  [.resume call (.executed now), .resume call (.arrived true now)]

/-- An administrator asks for a start, up to the launch of the pipeline. -/
def launching (call : ℕ) (now : ℤ) : List (Event Request Answer) :=
  .start (.postStart now) :: (answered call now ++ (answered call now ++ (answered call now
    ++ answered call now)))

/-- The pipeline is there, and the destination online. -/
def launchedAt (call : ℕ) (now : ℤ) : List (Event Request Answer) :=
  .resume call (.launched none now) :: answered call now

/-- An administrator stops a destination with a pipeline. -/
def stoppedAt (call : ℕ) (now : ℤ) : List (Event Request Answer) :=
  .start (.postStop now) :: (answered call now ++ (.resume call (.arrived true (now + 600))
    :: answered call (now + 600)))

/-- A stream is started, stopped, exits, and is started again. -/
def inOrder : List (Event Request Answer) :=
  launching 1 0 ++ (launchedAt 1 5000 ++ (stoppedAt 2 60000 ++ (.start (.exit 1 60700)
    :: (launching 3 70000 ++ launchedAt 3 75000))))

theorem stream_single_inOrder :
    ∃ s, service.sys.run (opening (some ready) 0) inOrder = some s
      ∧ s.db.active = some 2 ∧ online s.db.row = true
      ∧ Single s.db ∧ ∀ e s', Orderly s e → service.sys.step s e = some s' →
        StaysOffline s.db s'.db := by
  have hrun : (service.sys.run (opening (some ready) 0) inOrder).isSome := by decide +kernel
  exact ⟨_, (Option.some_get hrun).symm, by decide +kernel +revert, by decide +kernel +revert,
    stream_single (by decide +kernel) (Option.some_get hrun).symm⟩

/-- A stop comes while the pipeline is being launched. -/
def stopOverrun : List (Event Request Answer) :=
  launching 1 0 ++ (.start (.postStop 1000) :: (answered 2 1000 ++ (answered 2 1000
    ++ launchedAt 1 5000)))

/-- The process of a stopped pipeline exits after the next one was started,
and an administrator asks for a start once more. -/
def lateExit : List (Event Request Answer) :=
  launching 1 0 ++ (launchedAt 1 5000 ++ (stoppedAt 2 60000 ++ (launching 3 70000
    ++ (launchedAt 3 75000 ++ (.start (.exit 1 76000) :: (launching 5 80000
      ++ launchedAt 5 85000))))))

/-- A pipeline that is live and online after a stop, and two that are live at
once. -/
theorem stream_overrun :
    (∃ s, service.sys.run (opening (some ready) 0) stopOverrun = some s
      ∧ s.db.stopped = true ∧ Live s.db.pipelines 1 ∧ online s.db.row = true ∧ ¬ Single s.db)
    ∧ ∃ s, service.sys.run (opening (some ready) 0) lateExit = some s
      ∧ Live s.db.pipelines 2 ∧ Live s.db.pipelines 3 ∧ s.db.active = some 3
      ∧ ¬ Single s.db := by
  refine ⟨?_, ?_⟩
  · have hrun : (service.sys.run (opening (some ready) 0) stopOverrun).isSome := by
      decide +kernel
    have hstopped : ((service.sys.run (opening (some ready) 0) stopOverrun).get
        hrun).db.stopped = true := by decide +kernel +revert
    have honline : online ((service.sys.run (opening (some ready) 0) stopOverrun).get
        hrun).db.row = true := by decide +kernel +revert
    have hlive : Live ((service.sys.run (opening (some ready) 0) stopOverrun).get
        hrun).db.pipelines 1 := ⟨_, rfl, rfl, rfl⟩
    exact ⟨_, (Option.some_get hrun).symm, hstopped, hlive, honline,
      fun h => h.stopped hstopped 1 hlive⟩
  · have hrun : (service.sys.run (opening (some ready) 0) lateExit).isSome := by decide +kernel
    have hactive : ((service.sys.run (opening (some ready) 0) lateExit).get
        hrun).db.active = some 3 := by decide +kernel +revert
    have hlive₂ : Live ((service.sys.run (opening (some ready) 0) lateExit).get
        hrun).db.pipelines 2 := ⟨_, rfl, rfl, rfl⟩
    have hlive₃ : Live ((service.sys.run (opening (some ready) 0) lateExit).get
        hrun).db.pipelines 3 := ⟨_, rfl, rfl, rfl⟩
    exact ⟨_, (Option.some_get hrun).symm, hlive₂, hlive₃, hactive,
      fun h => absurd (h.one 2 3 hlive₂ hlive₃) (by decide)⟩

end BlockMiner.StreamRunner
