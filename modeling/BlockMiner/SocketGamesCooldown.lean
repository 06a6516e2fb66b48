import BlockMiner.SocketGames

/-!
# Rewards of socket games

A session is finished once, and only the finish of a session that was not
finished asks for a power, so a session is rewarded at most once, whatever the
sockets do (`Sound`). The cooldown is another matter: it is looked at when a
session starts and begins when one finishes, and two sessions of a user can be
open on two sockets. The powers are a cooldown apart in the runs in which a
session is only won while no other session of its user and game has finished
less than a cooldown before it was started, and the row of a power is there
before the next session can be won (`Respects`, `Timed`).
-/

namespace BlockMiner.SocketGames

open MatchThree (Fill)

/-! ## What is to hold -/

structure Fair (config : Config) (db : Db) : Prop where
  once : (db.powers.map UserPowerGame.session).Nodup
  spaced : db.powers.Pairwise fun p earlier =>
    p.userId = earlier.userId → p.game = earlier.game →
      earlier.createdAt + config.GAME_COOLDOWN_MS ≤ p.createdAt

/-- What a call will ask a power for, or has asked for. -/
def Call.win : Call → Option Win
  | .findCheckin win | .createPower win _ _ => some win
  | .gameUpsert .. | .mismatch .. => none

/-- What a request wins. -/
def won (config : Config) (db : Db) (r : Request) : Option Win :=
  (start config db r).bind fun out => (out.2.filterMap Call.win).head?

/-- The row of a power is written before a session that was started after the
win could be won. -/
def WrittenSoon : Call → Answer → Prop
  | .createPower win _ _, .ok now => now < win.wonAt + MIN_PLAY_MS
  | _, _ => True

instance : ∀ c a, Decidable (WrittenSoon c a) := fun c a => by
  unfold WrittenSoon
  split <;> infer_instance

/-- The start of a session that is won passes the check of the cooldown with
all that has finished up to the win. -/
def Respects (config : Config) (s : InFlight Db Call) : Event Request Answer → Prop
  | .start r => ∀ win ∈ won config s.db r,
      onCooldown config s.db win.userId win.game win.startTime = false
  | .resume call a => ∀ c ∈ s.calls.row call, WrittenSoon c a

instance (config : Config) (s : InFlight Db Call) : ∀ e, Decidable (Respects config s e)
  | .start r => inferInstanceAs (Decidable (∀ win ∈ won config s.db r, _ = false))
  | .resume call a => inferInstanceAs (Decidable (∀ c ∈ s.calls.row call, WrittenSoon c a))

/-! ## What a handler does to the sessions -/

def Finished (db : Db) (id : ℕ) : Prop :=
  ∃ state, db.sessions.row id = some state ∧ state.isFinished = true

/-- No power is created, no finished session is opened again, and a finish is
recorded as one of now. -/
structure Keeps (now : ℤ) (db db' : Db) : Prop where
  powers : db'.powers = db.powers
  clock : db'.clock = db.clock
  finished : ∀ id, Finished db id → Finished db' id
  lastFinish : ∀ userId game, db'.lastFinish userId game = db.lastFinish userId game
    ∨ db'.lastFinish userId game = some now

theorem Keeps.refl (now : ℤ) (db : Db) : Keeps now db db :=
  ⟨rfl, rfl, fun _ h => h, fun _ _ => Or.inl rfl⟩

/-- The map of the sockets and the timers do not matter. -/
theorem Keeps.of_eq {now : ℤ} {db db' db'' : Db} (h : Keeps now db db')
    (hsessions : db''.sessions = db'.sessions) (hpowers : db''.powers = db'.powers)
    (hclock : db''.clock = db'.clock) (hlast : db''.lastFinish = db'.lastFinish) :
    Keeps now db db'' where
  powers := hpowers.trans h.powers
  clock := hclock.trans h.clock
  finished id hid := by
    unfold Finished
    rw [hsessions]
    exact h.finished id hid
  lastFinish := by
    rw [hlast]
    exact h.lastFinish

/-- Of a session that is there, a state that is not less finished. -/
theorem keeps_setSession {now : ℤ} {db : Db} {id : ℕ} {state state' : Session}
    (hrow : db.sessions.row id = some state)
    (hfinished : state.isFinished = true → state'.isFinished = true) :
    Keeps now db (setSession db id state') where
  powers := rfl
  clock := rfl
  lastFinish _ _ := Or.inl rfl
  finished i := by
    rintro ⟨st, hst, hdone⟩
    unfold Finished setSession
    rw [Table.modify_row, hst]
    by_cases hi : i = id
    · subst hi
      obtain rfl := Option.some.inj (hrow.symm.trans hst)
      rw [if_pos rfl]
      exact ⟨state', rfl, hfinished hdone⟩
    · rw [if_neg hi]
      exact ⟨st, rfl, hdone⟩

theorem setSession_row {db : Db} {id : ℕ} {state state' : Session}
    (hrow : db.sessions.row id = some state) :
    (setSession db id state').sessions.row id = some state' := by
  rw [setSession, Table.modify_row, if_pos rfl, hrow, Option.map_some]

/-- What a handler can come to: it asks for no power, or for that of a session
it has just finished. -/
inductive Outcome (now : ℤ) (db : Db) : Db × List Call → Prop
  | quiet {db' cs} (h : Keeps now db db') (hcs : ∀ c ∈ cs, c.win = none) : Outcome now db (db', cs)
  | won {db' win state} (h : Keeps now db db') (hrow : db.sessions.row win.session = some state)
      (hopen : state.isFinished = false) (hdone : Finished db' win.session)
      (hplayed : win.startTime + MIN_PLAY_MS ≤ now) (hnow : win.wonAt = now)
      (hlast : db'.lastFinish win.userId win.game = some now) :
      Outcome now db (db', [.findCheckin win])

theorem clearTimer_finished (state : Session) :
    (clearMemoryMismatchTimer state).isFinished = state.isFinished := by
  unfold clearMemoryMismatchTimer
  split <;> rfl

/-- Of the state that the socket's session has come to. -/
theorem finishGame_outcome {db : Db} {socket id : ℕ} {old state : Session} {success : Bool}
    {now : ℤ} (hrow : db.sessions.row id = some old) (hsame : state.isFinished = old.isFinished) :
    Outcome now db (finishGame db socket id state success now) := by
  unfold finishGame
  split
  case isTrue hfinished =>
    exact .quiet (keeps_setSession hrow fun _ => hfinished) (List.forall_mem_nil _)
  case isFalse hopen =>
    have hset : Keeps now db (setSession db id
        { clearMemoryMismatchTimer state with isFinished := true }) :=
      keeps_setSession hrow fun _ => rfl
    have hkeeps : Keeps now db { setSession db id
        { clearMemoryMismatchTimer state with isFinished := true } with
        bySocket := Function.update db.bySocket socket none
        lastFinish := Function.update db.lastFinish state.userId
          (Function.update (db.lastFinish state.userId) state.slug (some now)) } := by
      refine ⟨hset.powers, hset.clock, hset.finished, fun userId game => ?_⟩
      by_cases hu : userId = state.userId
      · subst hu
        by_cases hg : game = state.slug
        · subst hg
          simp
        · simp [hg]
      · simp [hu]
    by_cases hwon : success = true ∧ MIN_PLAY_MS ≤ now - state.startTime
    · simp only [if_pos hwon]
      refine .won hkeeps hrow ?_ ⟨_, setSession_row hrow, rfl⟩ ?_ rfl (by simp)
      · rw [← hsame]
        exact Bool.eq_false_iff.mpr hopen
      · exact le_sub_iff_add_le'.mp hwon.2
    · simp only [if_neg hwon]
      exact .quiet hkeeps (List.forall_mem_nil _)

theorem sessionOf_row {db : Db} {socket id : ℕ} {state : Session}
    (h : sessionOf db socket = some (id, state)) : db.sessions.row id = some state := by
  obtain ⟨i, -, h⟩ := Option.bind_eq_some_iff.mp h
  obtain ⟨st, hst, heq⟩ := Option.map_eq_some_iff.mp h
  obtain ⟨rfl, rfl⟩ := Prod.mk.inj heq
  exact hst

theorem outcome_refl (now : ℤ) (db : Db) : Outcome now db (db, []) :=
  .quiet (.refl now db) (List.forall_mem_nil _)

theorem clearSessionTimer_keeps (now : ℤ) (db : Db) (socket : ℕ) :
    Keeps now db (clearSessionTimer db socket) := by
  unfold clearSessionTimer
  cases hsession : sessionOf db socket with
  | none => exact .refl now db
  | some found =>
      exact keeps_setSession (sessionOf_row hsession) fun h => (clearTimer_finished _).trans h

theorem gameStart_outcome (config : Config) (db : Db) (socket : ℕ) (userId : Option ℕ)
    (gameSlug : String) (now : ℤ) :
    Outcome now db (gameStart config db socket userId gameSlug now) := by
  have hkeeps := clearSessionTimer_keeps now db socket
  unfold gameStart
  simp only
  split
  case h_1 =>
    refine .quiet hkeeps fun c hc => ?_
    split at hc
    case isTrue => cases hc
    case isFalse =>
      obtain rfl := List.mem_singleton.mp hc
      rfl
  case h_2 => exact .quiet hkeeps (List.forall_mem_nil _)

theorem pairFlipped_outcome {config : Config} {db : Db} {socket id : ℕ} {state : Session}
    {board : List Card} {c₁ c₂ : Card} {timer : Option ℕ} {now : ℤ}
    (hrow : db.sessions.row id = some state) :
    Outcome now db (pairFlipped config db socket id state board c₁ c₂ timer now) := by
  unfold pairFlipped
  split
  · simp only
    split
    · exact finishGame_outcome hrow rfl
    · exact .quiet (keeps_setSession hrow fun h => h) (List.forall_mem_nil _)
  · have hset : Keeps now db (setSession db id
        { state with play := .memory board [c₁.id, c₂.id] (some db.nextTimer) }) :=
      keeps_setSession hrow fun h => h
    refine .quiet ⟨hset.powers, hset.clock, hset.finished, hset.lastFinish⟩ fun c hc => ?_
    obtain rfl := List.mem_singleton.mp hc
    rfl

theorem flip_outcome (config : Config) (db : Db) (socket cardId : ℕ) (now : ℤ) :
    Outcome now db (flip config db socket cardId now) := by
  unfold flip
  split
  case h_1 => exact outcome_refl _ db
  case h_2 i state hsession =>
    have hrow := sessionOf_row hsession
    split
    case h_1 => exact outcome_refl _ db
    case h_2 =>
      split
      case isTrue => exact outcome_refl _ db
      case isFalse =>
        split
        case h_1 => exact outcome_refl _ db
        case h_2 =>
          split
          case isTrue => exact outcome_refl _ db
          case isFalse =>
            simp only
            split
            · exact pairFlipped_outcome hrow
            · exact .quiet (keeps_setSession hrow fun h => h) (List.forall_mem_nil _)

theorem swap_outcome {db : Db} {socket : ℕ} {fromX fromY toX toY : ℤ} {fills : List Fill} {now : ℤ}
    {out : Db × List Call} (h : swap db socket fromX fromY toX toY fills now = some out) :
    Outcome now db out := by
  unfold swap at h
  split at h
  case h_1 =>
    obtain rfl := Option.some.inj h
    exact outcome_refl _ db
  case h_2 i state hsession =>
    have hrow := sessionOf_row hsession
    split at h
    case h_1 =>
      obtain rfl := Option.some.inj h
      exact outcome_refl _ db
    case h_2 =>
      split at h
      case isTrue =>
        obtain rfl := Option.some.inj h
        exact outcome_refl _ db
      case isFalse =>
        obtain ⟨moved, -, rfl⟩ := Option.map_eq_some_iff.mp h
        cases moved with
        | none => exact outcome_refl _ db
        | some scored =>
            simp only
            split
            · exact finishGame_outcome hrow rfl
            · exact .quiet (keeps_setSession hrow fun h => h) (List.forall_mem_nil _)

theorem gameEnd_outcome (db : Db) (socket : ℕ) (now : ℤ) :
    Outcome now db (gameEnd db socket now) := by
  unfold gameEnd
  split
  case h_1 => exact outcome_refl _ db
  case h_2 i state hsession =>
    split
    · exact outcome_refl _ db
    · exact finishGame_outcome (sessionOf_row hsession) rfl

theorem disconnect_keeps (now : ℤ) (db : Db) (socket : ℕ) :
    Keeps now db (disconnect db socket) :=
  (clearSessionTimer_keeps now db socket).of_eq rfl rfl rfl rfl

/-- **Inversion** of the events of sockets. -/
theorem start_outcome {config : Config} {db : Db} {r : Request} {out : Db × List Call}
    (h : start config db r = some out) :
    db.clock ≤ r.now ∧ Outcome r.now { db with clock := r.now } out := by
  obtain ⟨hclock, h⟩ := Option.ite_none_right_eq_some.mp h
  refine ⟨hclock, ?_⟩
  cases r with
  | gameStart socket userId gameSlug now =>
      obtain rfl := Option.some.inj h
      exact gameStart_outcome ..
  | flip socket cardId now =>
      obtain rfl := Option.some.inj h
      exact flip_outcome ..
  | swap => exact swap_outcome h
  | gameEnd socket now =>
      obtain rfl := Option.some.inj h
      exact gameEnd_outcome ..
  | disconnect socket now =>
      obtain rfl := Option.some.inj h
      exact .quiet (disconnect_keeps _ _ socket) (List.forall_mem_nil _)

theorem mismatch_keeps (now : ℤ) (db : Db) (socket session timer id₁ id₂ : ℕ) :
    Keeps now db (mismatch db socket session timer id₁ id₂) := by
  unfold mismatch
  split
  case h_1 state hrow =>
    split
    case h_1 =>
      split
      case isTrue => exact .refl now db
      case isFalse =>
        split
        case isTrue => exact keeps_setSession hrow fun h => h
        case isFalse => split <;> exact keeps_setSession hrow fun h => h
    case h_2 => exact .refl now db
  case h_2 => exact .refl now db

theorem gameStarted_keeps (now : ℤ) (db : Db) (socket userId gameId : ℕ) (play : Play) :
    Keeps now db (gameStarted db socket userId gameId play now) where
  powers := rfl
  clock := rfl
  lastFinish _ _ := Or.inl rfl
  finished id := by
    rintro ⟨state, hrow, hdone⟩
    exact ⟨state, Table.insert_row_of_some hrow _, hdone⟩

/-- What an answer can come to: a call goes on with what it has won, or the
power is created. -/
inductive Answered (now : ℤ) (db : Db) (c : Call) : Db × Option Call → Prop
  | quiet {db' next} (h : Keeps now db db') (hnext : ∀ d ∈ next, d.win = c.win) :
      Answered now db c (db', next)
  | created {win playedAt expiresAt} (hc : c = .createPower win playedAt expiresAt) :
      Answered now db c (createPower db win playedAt expiresAt now, none)

/-- **Inversion** of the answers. -/
theorem resume_answered {config : Config} {db : Db} {c : Call} {a : Answer}
    {out : Db × Option Call} (h : resume config db c a = some out) :
    db.clock ≤ a.now db.clock
      ∧ Answered (a.now db.clock) { db with clock := a.now db.clock } c out := by
  obtain ⟨hclock, h⟩ := Option.ite_none_right_eq_some.mp h
  refine ⟨hclock, ?_⟩
  generalize hdb : { db with clock := a.now db.clock } = db₁ at h ⊢
  clear hdb
  unfold goOn at h
  split at h
  case h_1 => cases h
  case h_2 =>
    obtain rfl := Option.some.inj h
    exact .quiet (.refl _ _) (fun d hd => by cases hd)
  case h_3 =>
    split at h
    case isTrue =>
      obtain rfl := Option.some.inj h
      exact .quiet (.refl _ _) (fun d hd => by cases hd)
    case isFalse =>
      obtain ⟨play, -, rfl⟩ := Option.map_eq_some_iff.mp h
      exact .quiet (gameStarted_keeps ..) (fun d hd => by cases hd)
  case h_4 =>
    obtain ⟨-, h⟩ := Option.ite_none_right_eq_some.mp h
    obtain rfl := Option.some.inj h
    exact .quiet (mismatch_keeps ..) (fun d hd => by cases hd)
  case h_5 =>
    obtain rfl := Option.some.inj h
    refine .quiet (.refl _ _) fun d hd => ?_
    obtain rfl := Option.some.inj hd
    rfl
  case h_6 =>
    obtain rfl := Option.some.inj h
    exact .created rfl
  case h_7 => cases h

/-! ## What is won is won apart -/

/-- A relation between what two calls have won, if they have won. -/
def Related (P : Win → Win → Prop) (c c' : Call) : Prop :=
  ∀ win, c.win = some win → ∀ win', c'.win = some win' → P win win'

theorem related_of_win {P : Win → Win → Prop} {c d : Call} (h : d.win = c.win) (c' : Call) :
    (Related P c c' → Related P d c') ∧ (Related P c' c → Related P c' d) := by
  unfold Related
  rw [h]
  exact ⟨fun h => h, fun h => h⟩

theorem related_of_none {P : Win → Win → Prop} {d : Call} (h : d.win = none) (c : Call) :
    Related P c d ∧ Related P d c := by
  unfold Related
  rw [h]
  constructor
  · intro _ _ _ h'
    cases h'
  · intro _ h'
    cases h'

/-- The wins of `calls'` are among those of `calls`, and as far apart. -/
structure Fewer (calls calls' : Table Call) : Prop where
  win : ∀ i c win, calls'.row i = some c → c.win = some win →
    ∃ j c', calls.row j = some c' ∧ c'.win = some win
  apart : ∀ P, Service.Apart (Related P) calls → Service.Apart (Related P) calls'

theorem fewer_foldl {calls : Table Call} {cs : List Call} (hcs : ∀ c ∈ cs, c.win = none) :
    Fewer calls (cs.foldl Table.insert calls) where
  apart P h := h.foldl_insert fun d hd => related_of_none (hcs d hd)
  win i c win hrow hwin := by
    rcases Service.foldl_insert_row cs hrow with hmem | hold
    · rw [hcs c hmem] at hwin
      cases hwin
    · exact ⟨i, c, hold, hwin⟩

theorem fewer_advance {calls : Table Call} {call : ℕ} {c : Call} {next : Option Call}
    (hrow : calls.row call = some c) (hnext : ∀ d ∈ next, d.win = c.win) :
    Fewer calls (Service.advance calls call next) where
  apart P h := h.advance fun d hd i c' hi hrow' => by
    obtain ⟨hleft, hright⟩ := related_of_win (P := P) (hnext d hd) c'
    exact ⟨hright (h i call c' c hi hrow' hrow), hleft (h call i c c' hi.symm hrow hrow')⟩
  win i d win hi hwin := by
    rcases Service.advance_row hi with ⟨-, hd⟩ | ⟨-, hold⟩
    · rw [hnext d hd] at hwin
      exact ⟨call, c, hrow, hwin⟩
    · exact ⟨i, d, hold, hwin⟩

/-! ## A session is rewarded at most once -/

structure Sound (s : InFlight Db Call) : Prop where
  once : (s.db.powers.map UserPowerGame.session).Nodup
  rewarded : ∀ p ∈ s.db.powers, Finished s.db p.session
  pending : ∀ i c win, s.calls.row i = some c → c.win = some win →
    Finished s.db win.session ∧ ∀ p ∈ s.db.powers, p.session ≠ win.session
  apart : Service.Apart (Related fun win win' => win.session ≠ win'.session) s.calls

theorem Sound.keeps {now : ℤ} {db db' : Db} {calls calls' : Table Call} (h : Sound ⟨db, calls⟩)
    (hdb : Keeps now { db with clock := now } db') (hcalls : Fewer calls calls') :
    Sound ⟨db', calls'⟩ where
  once := by
    show (db'.powers.map UserPowerGame.session).Nodup
    rw [hdb.powers]
    exact h.once
  rewarded p hp := by
    have hp' : p ∈ db.powers := hdb.powers ▸ hp
    exact hdb.finished _ (h.rewarded p hp')
  pending i c win hrow hwin := by
    obtain ⟨j, c', hrow', hwin'⟩ := hcalls.win i c win hrow hwin
    obtain ⟨hdone, hnew⟩ := h.pending j c' win hrow' hwin'
    refine ⟨hdb.finished _ hdone, ?_⟩
    show ∀ p ∈ db'.powers, p.session ≠ win.session
    rw [hdb.powers]
    exact hnew
  apart := hcalls.apart _ h.apart

theorem sound_start {config : Config} {s : InFlight Db Call} {r : Request} {out : Db × List Call}
    (h : Sound s) (hstart : start config s.db r = some out) :
    Sound ⟨out.1, out.2.foldl Table.insert s.calls⟩ := by
  obtain ⟨-, hout⟩ := start_outcome hstart
  cases hout with
  | quiet hkeeps hcs => exact h.keeps hkeeps (fewer_foldl hcs)
  | @won db' win state hkeeps hrow hopen hdone _ _ _ =>
      have hsound : Sound ⟨db', s.calls⟩ := h.keeps hkeeps ⟨fun i c win hi hw => ⟨i, c, hi, hw⟩,
        fun _ h => h⟩
      -- a session that is still open is neither rewarded nor about to be
      have hnot : ¬ Finished s.db win.session := by
        rintro ⟨state', hrow', hfinished⟩
        obtain rfl := Option.some.inj (Eq.trans hrow.symm hrow')
        rw [hopen] at hfinished
        cases hfinished
      have hunpaid : ∀ p ∈ db'.powers, p.session ≠ win.session := by
        intro p hp heq
        have hp' : p ∈ s.db.powers := hkeeps.powers ▸ hp
        exact hnot (heq ▸ h.rewarded p hp')
      refine ⟨hsound.once, hsound.rewarded, ?_, ?_⟩
      · intro i c win' hi hw
        rcases Table.insert_row_eq_some.mp hi with ⟨-, rfl⟩ | hold
        · obtain rfl := Option.some.inj hw
          exact ⟨hdone, hunpaid⟩
        · exact hsound.pending i c win' hold hw
      · refine hsound.apart.insert fun i c hi => ⟨?_, ?_⟩
        · intro w hw win' hw'
          obtain rfl := Option.some.inj hw'
          intro heq
          exact hnot (heq ▸ (h.pending i c w hi hw).1)
        · intro win' hw' w hw
          obtain rfl := Option.some.inj hw'
          intro heq
          exact hnot (heq.symm ▸ (h.pending i c w hi hw).1)

theorem sound_resume {config : Config} {s : InFlight Db Call} {call : ℕ} {c : Call} {a : Answer}
    {out : Db × Option Call} (h : Sound s) (hrow : s.calls.row call = some c)
    (hresume : resume config s.db c a = some out) :
    Sound ⟨out.1, Service.advance s.calls call out.2⟩ := by
  obtain ⟨-, hout⟩ := resume_answered hresume
  cases hout with
  | quiet hkeeps hnext => exact h.keeps hkeeps (fewer_advance hrow hnext)
  | @created win playedAt expiresAt hc =>
      subst hc
      obtain ⟨hdone, hnew⟩ := h.pending call _ win hrow rfl
      have hfewer : Fewer s.calls (Service.advance s.calls call none) :=
        fewer_advance hrow fun d hd => by cases hd
      refine ⟨?_, ?_, ?_, hfewer.apart _ h.apart⟩
      · refine List.nodup_cons.mpr ⟨fun hmem => ?_, h.once⟩
        obtain ⟨p, hp, heq⟩ := List.mem_map.mp hmem
        exact hnew p hp heq
      · intro p hp
        rcases List.mem_cons.mp hp with rfl | hold
        · exact hdone
        · exact h.rewarded p hold
      · intro i d win' hi hw
        have hi' : (Service.advance s.calls call none).row i = some d := hi
        obtain ⟨hne, hold⟩ := Service.advance_none_row hi'
        obtain ⟨hdone', hnew'⟩ := h.pending i d win' hold hw
        refine ⟨hdone', fun p hp => ?_⟩
        rcases List.mem_cons.mp hp with rfl | holdp
        · exact h.apart call i _ d hne.symm hrow hold win rfl win' hw
        · exact hnew' p holdp

/-! ## The cooldown between the rewards -/

/-- The rows of the one are a cooldown before any of the other. -/
def FarApart (config : Config) (win win' : Win) : Prop :=
  win.userId = win'.userId → win.game = win'.game →
    win.wonAt + config.GAME_COOLDOWN_MS + MIN_PLAY_MS ≤ win'.wonAt
      ∨ win'.wonAt + config.GAME_COOLDOWN_MS + MIN_PLAY_MS ≤ win.wonAt

/-- A finish at or after the win is recorded, and the powers that are there
are far from it, on either side. -/
structure Pending (config : Config) (db : Db) (win : Win) : Prop where
  past : win.wonAt ≤ db.clock
  recorded : ∃ last, db.lastFinish win.userId win.game = some last ∧ win.wonAt ≤ last
  apart : ∀ p ∈ db.powers, p.userId = win.userId → p.game = win.game →
    p.createdAt + config.GAME_COOLDOWN_MS ≤ win.wonAt
      ∨ win.wonAt + config.GAME_COOLDOWN_MS + MIN_PLAY_MS ≤ p.createdAt

structure Timed (config : Config) (s : InFlight Db Call) : Prop where
  spaced : s.db.powers.Pairwise fun p earlier =>
    p.userId = earlier.userId → p.game = earlier.game →
      earlier.createdAt + config.GAME_COOLDOWN_MS ≤ p.createdAt
  past : ∀ p ∈ s.db.powers, p.createdAt ≤ s.db.clock
  recorded : ∀ p ∈ s.db.powers, ∃ last, s.db.lastFinish p.userId p.game = some last
    ∧ p.createdAt < last + MIN_PLAY_MS
  pending : ∀ i c win, s.calls.row i = some c → c.win = some win → Pending config s.db win
  apart : Service.Apart (Related (FarApart config)) s.calls

theorem Timed.keeps {config : Config} {now : ℤ} {db db' : Db} {calls calls' : Table Call}
    (h : Timed config ⟨db, calls⟩) (hclock : db.clock ≤ now)
    (hdb : Keeps now { db with clock := now } db') (hcalls : Fewer calls calls') :
    Timed config ⟨db', calls'⟩ where
  spaced := by
    show db'.powers.Pairwise _
    rw [hdb.powers]
    exact h.spaced
  past p hp := by
    have hp' : p ∈ db.powers := hdb.powers ▸ hp
    have hpast : p.createdAt ≤ db.clock := h.past p hp'
    have hnow : db'.clock = now := hdb.clock
    show p.createdAt ≤ db'.clock
    omega
  recorded p hp := by
    have hp' : p ∈ db.powers := hdb.powers ▸ hp
    have hpast : p.createdAt ≤ db.clock := h.past p hp'
    obtain ⟨last, hlast, hlt⟩ := h.recorded p hp'
    rcases hdb.lastFinish p.userId p.game with heq | heq
    · exact ⟨last, heq.trans hlast, hlt⟩
    · refine ⟨now, heq, ?_⟩
      simp only [MIN_PLAY_MS]
      omega
  pending i c win hrow hwin := by
    obtain ⟨j, c', hrow', hwin'⟩ := hcalls.win i c win hrow hwin
    obtain ⟨hpast, ⟨last, hlast, hle⟩, hapart⟩ := h.pending j c' win hrow' hwin'
    simp only at hpast hlast hapart
    have hnow : db'.clock = now := hdb.clock
    refine ⟨by show win.wonAt ≤ db'.clock; omega, ?_, ?_⟩
    · rcases hdb.lastFinish win.userId win.game with heq | heq
      · exact ⟨last, heq.trans hlast, hle⟩
      · exact ⟨now, heq, by omega⟩
    · show ∀ p ∈ db'.powers, _
      rw [hdb.powers]
      exact hapart
  apart := hcalls.apart _ h.apart

theorem won_eq {config : Config} {db db' : Db} {r : Request} {win : Win}
    (h : start config db r = some (db', [.findCheckin win])) : won config db r = some win := by
  rw [won, h]
  rfl

theorem timed_start {config : Config} {s : InFlight Db Call} {r : Request} {out : Db × List Call}
    (h : Timed config s) (hC : Respects config s (.start r))
    (hstart : start config s.db r = some out) :
    Timed config ⟨out.1, out.2.foldl Table.insert s.calls⟩ := by
  obtain ⟨hclock, hout⟩ := start_outcome hstart
  cases hout with
  | quiet hkeeps hcs => exact h.keeps hclock hkeeps (fewer_foldl hcs)
  | @won db' win state hkeeps _ _ _ hplayed hnow hlast =>
      have htimed : Timed config ⟨db', s.calls⟩ := h.keeps hclock hkeeps
        ⟨fun i c win hi hw => ⟨i, c, hi, hw⟩, fun _ h => h⟩
      -- what has finished so far was a cooldown and the time of a play ago
      have hold : ∀ last, s.db.lastFinish win.userId win.game = some last →
          last + config.GAME_COOLDOWN_MS + MIN_PLAY_MS ≤ win.wonAt := by
        intro last hlast'
        have hrest := hC win (won_eq hstart)
        simp only [onCooldown, hlast', Option.any_some, decide_eq_false_iff_not] at hrest
        omega
      have hnew : Pending config db' win := by
        refine ⟨?_, ⟨_, hlast, le_of_eq hnow⟩, ?_⟩
        · have hdbclock : db'.clock = r.now := hkeeps.clock
          omega
        · intro p hp hu hg
          have hp' : p ∈ s.db.powers := hkeeps.powers ▸ hp
          obtain ⟨last, hlast', hlt⟩ := h.recorded p hp'
          rw [hu, hg] at hlast'
          have hfar := hold last hlast'
          exact Or.inl (by omega)
      have hfar : ∀ i c w, s.calls.row i = some c → c.win = some w → w.userId = win.userId →
          w.game = win.game → w.wonAt + config.GAME_COOLDOWN_MS + MIN_PLAY_MS ≤ win.wonAt := by
        intro i c w hi hw hu hg
        obtain ⟨-, ⟨last, hlast', hle⟩, -⟩ := h.pending i c w hi hw
        rw [hu, hg] at hlast'
        have hrest := hold last hlast'
        omega
      refine ⟨htimed.spaced, htimed.past, htimed.recorded, ?_, ?_⟩
      · intro i c win' hi hw
        rcases Table.insert_row_eq_some.mp hi with ⟨-, rfl⟩ | hold'
        · obtain rfl := Option.some.inj hw
          exact hnew
        · exact htimed.pending i c win' hold' hw
      · refine htimed.apart.insert fun i c hi => ⟨?_, ?_⟩
        · intro w hw win' hw' hu hg
          obtain rfl := Option.some.inj hw'
          exact Or.inl (hfar i c w hi hw hu hg)
        · intro win' hw' w hw hu hg
          obtain rfl := Option.some.inj hw'
          exact Or.inr (hfar i c w hi hw hu.symm hg.symm)

theorem timed_resume {config : Config} {s : InFlight Db Call} {call : ℕ} {c : Call} {a : Answer}
    {out : Db × Option Call} (h : Timed config s) (hrow : s.calls.row call = some c)
    (hC : WrittenSoon c a) (hresume : resume config s.db c a = some out) :
    Timed config ⟨out.1, Service.advance s.calls call out.2⟩ := by
  obtain ⟨hclock, hout⟩ := resume_answered hresume
  cases hout with
  | quiet hkeeps hnext => exact h.keeps hclock hkeeps (fewer_advance hrow hnext)
  | @created win playedAt expiresAt hc =>
      subst hc
      have hfewer : Fewer s.calls (Service.advance s.calls call none) :=
        fewer_advance hrow fun d hd => by cases hd
      have hsoon : a.now s.db.clock < win.wonAt + MIN_PLAY_MS := by
        cases a with
        | ok now => exact hC
        | game => cases (Option.ite_none_right_eq_some.mp hresume).2
        | checkin => cases (Option.ite_none_right_eq_some.mp hresume).2
        | error =>
            have hout := Option.some.inj (Option.ite_none_right_eq_some.mp hresume).2
            have hpowers := congrArg (fun out => out.1.powers.length) hout
            simp [createPower] at hpowers
      generalize a.now s.db.clock = now at hclock hsoon ⊢
      obtain ⟨hwon, ⟨last, hlast, hle⟩, hapart⟩ := h.pending call _ win hrow rfl
      refine ⟨?_, ?_, ?_, ?_, hfewer.apart _ h.apart⟩
      · refine List.pairwise_cons.mpr ⟨fun p hp hu hg => ?_, h.spaced⟩
        have hpast := h.past p hp
        show p.createdAt + config.GAME_COOLDOWN_MS ≤ now
        rcases hapart p hp hu.symm hg.symm with hbefore | hafter
        · omega
        · omega
      · intro p hp
        show p.createdAt ≤ now
        rcases List.mem_cons.mp hp with rfl | hold
        · exact le_rfl
        · exact (h.past p hold).trans hclock
      · intro p hp
        rcases List.mem_cons.mp hp with rfl | hold
        · exact ⟨last, hlast, by show now < last + MIN_PLAY_MS; omega⟩
        · exact h.recorded p hold
      · intro i d win' hi hw
        have hi' : (Service.advance s.calls call none).row i = some d := hi
        obtain ⟨hne, hold⟩ := Service.advance_none_row hi'
        obtain ⟨hwon', hlast', hapart'⟩ := h.pending i d win' hold hw
        refine ⟨hwon'.trans hclock, hlast', fun p hp hu hg => ?_⟩
        rcases List.mem_cons.mp hp with rfl | holdp
        · show now + _ ≤ win'.wonAt ∨ win'.wonAt + _ + _ ≤ now
          rcases h.apart call i _ d hne.symm hrow hold win rfl win' hw hu hg with hfar | hfar
          · exact Or.inl (by omega)
          · exact Or.inr (by omega)
        · exact hapart' p holdp hu hg

/-! ## Runs -/

def opening (clock : ℤ) : InFlight Db Call :=
  ⟨⟨.empty, fun _ => none, fun _ _ => none, [], 0, clock⟩, .empty⟩

theorem opening_sound (clock : ℤ) : Sound (opening clock) where
  once := List.nodup_nil
  rewarded p hp := by cases hp
  pending i c win hi := by cases hi
  apart i j c c' _ hi := by cases hi

theorem opening_timed (config : Config) (clock : ℤ) : Timed config (opening clock) where
  spaced := List.Pairwise.nil
  past p hp := by cases hp
  recorded p hp := by cases hp
  pending i c win hi := by cases hi
  apart i j c c' _ hi := by cases hi

/-- In every run at all, no session is rewarded twice. -/
theorem rewarded_once {config : Config} {clock : ℤ} {events : List (Event Request Answer)}
    {s : InFlight Db Call} (hrun : (service config).sys.run (opening clock) events = some s) :
    Sound s := by
  refine (service config).sys.run_kept (I := Sound) ?_ (opening_sound clock) hrun
  intro s e s' hs h
  cases e with
  | start r =>
      obtain ⟨db, cs, hstart, rfl⟩ := Service.step_start _ h
      exact sound_start hs hstart
  | resume call a =>
      obtain ⟨c, db, next, hrow, hresume, rfl⟩ := Service.step_resume _ h
      exact sound_resume hs hrow hresume

/-- **Socket games respect the cooldown** in the runs in which a session is
only won if no finish came in the way of its start, and powers are written
soon; and each session is rewarded once. -/
theorem socketGames_fair {config : Config} {clock : ℤ} {events : List (Event Request Answer)}
    {s : InFlight Db Call}
    (hrespects : (service config).sys.Meets (Respects config) (opening clock) events)
    (hrun : (service config).sys.run (opening clock) events = some s) : Fair config s.db := by
  refine ⟨(rewarded_once hrun).once, ?_⟩
  refine ((service config).sys.run_invariant (I := Timed config) ?_ (opening_timed config clock)
    hrespects hrun).spaced
  intro s e s' hs hC h
  cases e with
  | start r =>
      obtain ⟨db, cs, hstart, rfl⟩ := Service.step_start _ h
      exact timed_start hs hC hstart
  | resume call a =>
      obtain ⟨c, db, next, hrow, hresume, rfl⟩ := Service.step_resume _ h
      exact timed_resume hs hrow (hC c hrow) hresume

def defaults : Config where
  GAME_COOLDOWN_MS := 180000
  GAME_POWER_DAYS := 7
  MEMORY_MISMATCH_TOTAL_MS := 1120

/-- A memory game of user 7 is started on a socket, by the `call`-th call. -/
def started (socket call : ℕ) (now : ℤ) : List (Event Request Answer) :=
  [.start (.gameStart socket (some 7) "crypto-memory" now),
    .resume call (.game 1 true (SYMBOLS ++ SYMBOLS) (fun _ _ => 0) now)]

/-- All its pairs are found. -/
def solved (socket : ℕ) (now : ℤ) : List (Event Request Answer) :=
  (List.range 8).flatMap fun i => [.start (.flip socket i now), .start (.flip socket (i + 8) now)]

/-- The power of a session that was won is created. -/
def rewarded (call : ℕ) (now : ℤ) : List (Event Request Answer) :=
  [.resume call (.checkin true now), .resume call (.ok (now + 1))]

/-- One game after the other. -/
def inTurn : List (Event Request Answer) :=
  started 1 1 1000 ++ (solved 1 20000 ++ (rewarded 2 20001
    ++ (started 1 3 200000 ++ (solved 1 220000 ++ rewarded 4 220001))))

theorem socketGames_fair_inTurn :
    ∃ s, (service defaults).sys.run (opening 0) inTurn = some s
      ∧ s.db.powers.map (fun p => (p.userId, p.createdAt)) = [(7, 220002), (7, 20002)]
      ∧ Fair defaults s.db := by
  have hrun : ((service defaults).sys.run (opening 0) inTurn).isSome := by decide +kernel
  exact ⟨_, (Option.some_get hrun).symm, by decide +kernel +revert,
    socketGames_fair (by decide +kernel) (Option.some_get hrun).symm⟩

/-- Two games at once, on two sockets. -/
def atOnce : List (Event Request Answer) :=
  started 1 1 1000 ++ (started 2 2 1000 ++ (solved 1 20000 ++ (solved 2 20000
    ++ (rewarded 3 20001 ++ rewarded 4 20002))))

/-- Two rewards of one game, a millisecond apart. -/
theorem socketGames_overlap :
    ∃ s, (service defaults).sys.run (opening 0) atOnce = some s
      ∧ s.db.powers.map (fun p => (p.userId, p.game, p.session, p.createdAt))
        = [(7, .cryptoMemory, 2, 20003), (7, .cryptoMemory, 1, 20002)]
      ∧ ¬ Fair defaults s.db := by
  have hrun : ((service defaults).sys.run (opening 0) atOnce).isSome := by decide +kernel
  have hpowers : (((service defaults).sys.run (opening 0) atOnce).get hrun).db.powers.map
      (fun p => (p.userId, p.game, p.session, p.createdAt))
        = [(7, .cryptoMemory, 2, 20003), (7, .cryptoMemory, 1, 20002)] := by
    decide +kernel +revert
  refine ⟨_, (Option.some_get hrun).symm, hpowers, fun h => ?_⟩
  obtain ⟨p, rest, heq, hp, hrest⟩ := List.map_eq_cons_iff.mp hpowers
  obtain ⟨q, _, rfl, hq, -⟩ := List.map_eq_cons_iff.mp hrest
  have hspaced := h.spaced
  rw [heq] at hspaced
  have hapart := (List.pairwise_cons.mp hspaced).1 q List.mem_cons_self
  simp only [Prod.mk.injEq] at hp hq
  obtain ⟨hpu, hpg, -, hpc⟩ := hp
  obtain ⟨hqu, hqg, -, hqc⟩ := hq
  have hcool := hapart (hpu.trans hqu.symm) (hpg.trans hqg.symm)
  rw [hpc, hqc] at hcool
  exact absurd hcool (by decide)

end BlockMiner.SocketGames
