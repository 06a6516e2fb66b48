import BlockMiner.Minigame
import Mathlib.Data.List.Nodup

/-!
# A session is rewarded at most once

`Sound` says how the sessions of a user and the powers granted for them fit
together. Two of its fields carry the cooldown: `rested` keeps an active
session a full cooldown away from every rewarded one, because the session
was only created after the cooldown had ended, and `spaced` is what becomes
of it when the active session is completed. A completion is accepted from
67.5 s after the start on, so `rested` leaves room to spare.

Sessions change in three ways: active ones expire (`Retires`), a new active
one is inserted, an active one is completed. There is one preservation lemma
for each; the endpoints are taken apart into them by `start_cases` and
`complete_cases`. No step uses that clocks advance.
-/

namespace BlockMiner.Minigame

/-! ## The queries -/

theorem activeSession_eq_none {db : Db} {userId : ℕ} (h : db.activeSession userId = none) {i : ℕ}
    {s : MinigameSession} (hs : db.sessions.row i = some s) (hu : s.userId = userId) :
    s.status ≠ .ACTIVE := by
  intro hactive
  rw [Db.activeSession, List.getLast?_eq_none_iff] at h
  have hmem : (i, s) ∈ db.sessions.findMany
      fun _ s => s.userId = userId && s.status = .ACTIVE :=
    Table.mem_findMany.mpr ⟨hs, by simp [hu, hactive]⟩
  rw [h] at hmem
  cases hmem

/-- No cooldown: a full cooldown has passed since every rewarded session. -/
theorem cooldown_over {db : Db} {userId : ℕ} {now : ℤ}
    (hdone : ∀ i s, db.sessions.row i = some s → s.status = .COMPLETED →
      s.rewardGranted = true ∧ s.completedAt.isSome)
    (h : computeCooldownEndsAt (db.lastRewardedAt userId) now = none) {i : ℕ}
    {s : MinigameSession} {c : ℤ} (hs : db.sessions.row i = some s) (hu : s.userId = userId)
    (hstatus : s.status = .COMPLETED) (hc : s.completedAt = some c) :
    c + MINIGAME_COOLDOWN_MS ≤ now := by
  have hmem : (i, s) ∈ db.sessions.findMany
      fun _ s => s.userId = userId && s.status = .COMPLETED && s.rewardGranted :=
    Table.mem_findMany.mpr ⟨hs, by simp [hu, hstatus, (hdone i s hs hstatus).1]⟩
  have hall : ¬ ((db.sessions.findMany fun _ s =>
      s.userId = userId && s.status = .COMPLETED && s.rewardGranted).any
        fun r => r.2.completedAt = none) = true := by
    rw [List.any_eq_true]
    rintro ⟨⟨j, r⟩, hr, hnone⟩
    obtain ⟨hrow, hp⟩ := Table.mem_findMany.mp hr
    simp only [Bool.and_eq_true, decide_eq_true_eq] at hp hnone
    have hsome := (hdone j r hrow hp.1.2).2
    rw [hnone] at hsome
    cases hsome
  have hc' : c ∈ (db.sessions.findMany fun _ s =>
      s.userId = userId && s.status = .COMPLETED && s.rewardGranted).filterMap
        fun r => r.2.completedAt := List.mem_filterMap.mpr ⟨(i, s), hmem, hc⟩
  obtain ⟨last, hlast⟩ := Option.isSome_iff_exists.mp (List.isSome_max?_of_mem hc')
  have hle : c ≤ last := (List.max?_eq_some_iff.mp hlast).2 c hc'
  simp only [Db.lastRewardedAt, if_neg hall, hlast, computeCooldownEndsAt,
    Option.bind_some] at h
  split at h
  case isTrue => cases h
  case isFalse hnot => omega

/-! ## The invariant -/

structure Sound (db : Db) : Prop where
  numbered : 0 < db.sessions.nextId ∧ db.sessions.row 0 = none
  ends : ∀ i s, db.sessions.row i = some s → s.endsAt = s.startedAt + MINIGAME_DURATION_MS
  done : ∀ i s, db.sessions.row i = some s → s.status = .COMPLETED →
    s.rewardGranted = true ∧ s.completedAt.isSome
  active_unique : ∀ i j s r, db.sessions.row i = some s → db.sessions.row j = some r →
    s.userId = r.userId → s.status = .ACTIVE → r.status = .ACTIVE → i = j
  /-- A power belongs to the completed session it was granted for. -/
  granted : ∀ p ∈ db.powers, ∃ s, db.sessions.row p.session = some s ∧ s.userId = p.userId
    ∧ s.status = .COMPLETED ∧ s.completedAt = some p.playedAt
    ∧ isWithinCompleteWindow s.endsAt p.playedAt = true
  once : (db.powers.map (·.session)).Nodup
  rested : ∀ i j a s c, db.sessions.row i = some a → db.sessions.row j = some s →
    a.userId = s.userId → a.status = .ACTIVE → s.status = .COMPLETED → s.completedAt = some c →
    c + MINIGAME_COOLDOWN_MS ≤ a.startedAt
  spaced : ∀ i j s r c d, i ≠ j → db.sessions.row i = some s → db.sessions.row j = some r →
    s.userId = r.userId → s.status = .COMPLETED → r.status = .COMPLETED →
    s.completedAt = some c → r.completedAt = some d → MINIGAME_COOLDOWN_MS ≤ |c - d|

theorem sound_empty : Sound .empty where
  numbered := ⟨Nat.one_pos, rfl⟩
  ends i s h := by cases h
  done i s h := by cases h
  active_unique i j s r h := by cases h
  granted p h := by cases h
  once := List.nodup_nil
  rested i j a s c h := by cases h
  spaced i j s r c d _ h := by cases h

/-- Some active sessions expire; the other rows stay. -/
def Retires (t t' : Table MinigameSession) : Prop :=
  ∀ i, t'.row i = t.row i
    ∨ ∃ s, t.row i = some s ∧ s.status = .ACTIVE ∧ t'.row i = some (expired s)

/-- A row that is not expired was there before. -/
theorem Retires.old {t t' : Table MinigameSession} (h : Retires t t') {i : ℕ}
    {s : MinigameSession} (hs : t'.row i = some s) (hne : s.status ≠ .EXPIRED) :
    t.row i = some s := by
  rcases h i with heq | ⟨r, -, -, heq⟩
  · exact heq ▸ hs
  · obtain rfl := Option.some.inj (heq.symm.trans hs)
    exact absurd rfl hne

theorem Retires.ends {t t' : Table MinigameSession} (h : Retires t t') {i : ℕ}
    {s : MinigameSession} (hs : t'.row i = some s) :
    ∃ r, t.row i = some r ∧ r.endsAt = s.endsAt ∧ r.startedAt = s.startedAt := by
  rcases h i with heq | ⟨r, hr, -, heq⟩
  · exact ⟨s, heq ▸ hs, rfl, rfl⟩
  · obtain rfl := Option.some.inj (heq.symm.trans hs)
    exact ⟨r, hr, rfl, rfl⟩

theorem Retires.keeps {t t' : Table MinigameSession} (h : Retires t t') {i : ℕ}
    {s : MinigameSession} (hs : t.row i = some s) (hne : s.status ≠ .ACTIVE) :
    t'.row i = some s := by
  rcases h i with heq | ⟨r, hr, hactive, -⟩
  · exact heq.trans hs
  · obtain rfl := Option.some.inj (hr.symm.trans hs)
    exact absurd hactive hne

theorem Sound.retire {db : Db} (h : Sound db) {t : Table MinigameSession}
    (hr : Retires db.sessions t) (hnext : t.nextId = db.sessions.nextId) :
    Sound { db with sessions := t } where
  numbered := by
    obtain ⟨hpos, hzero⟩ := h.numbered
    refine ⟨hnext ▸ hpos, ?_⟩
    rcases hr 0 with heq | ⟨s, hs, -, -⟩
    · exact heq.trans hzero
    · rw [hzero] at hs
      cases hs
  ends i s hs := by
    obtain ⟨r, hrow, hend, hstart⟩ := hr.ends hs
    rw [← hend, ← hstart]
    exact h.ends i r hrow
  done i s hs hstatus := h.done i s (hr.old hs (by simp [hstatus])) hstatus
  active_unique i j s r hs hr' hu hsa hra :=
    h.active_unique i j s r (hr.old hs (by simp [hsa])) (hr.old hr' (by simp [hra])) hu hsa hra
  granted p hp := by
    obtain ⟨s, hs, hu, hstatus, hrest⟩ := h.granted p hp
    exact ⟨s, hr.keeps hs (by simp [hstatus]), hu, hstatus, hrest⟩
  once := h.once
  rested i j a s c ha hs hu haa hsc hc :=
    h.rested i j a s c (hr.old ha (by simp [haa])) (hr.old hs (by simp [hsc])) hu haa hsc hc
  spaced i j s r c d hij hs hr' hu hsc hrc hc hd :=
    h.spaced i j s r c d hij (hr.old hs (by simp [hsc])) (hr.old hr' (by simp [hrc])) hu hsc hrc
      hc hd

theorem retires_expireStale (db : Db) (userId : ℕ) (now : ℤ) :
    Retires db.sessions (db.expireStaleActiveSessions userId now).sessions := by
  intro i
  simp only [Db.expireStaleActiveSessions, Table.updateMany_row]
  cases hrow : db.sessions.row i with
  | none => exact Or.inl rfl
  | some s =>
      rw [Option.map_some]
      by_cases hstale : (s.userId = userId && s.status = .ACTIVE
          && s.endsAt ≤ now - MINIGAME_COMPLETE_LATE_MS) = true
      · rw [if_pos hstale]
        simp only [Bool.and_eq_true, decide_eq_true_eq] at hstale
        exact Or.inr ⟨s, rfl, hstale.1.2, rfl⟩
      · rw [if_neg hstale]
        exact Or.inl rfl

theorem Sound.expireStale {db : Db} (h : Sound db) (userId : ℕ) (now : ℤ) :
    Sound (db.expireStaleActiveSessions userId now) :=
  h.retire (retires_expireStale db userId now) rfl

/-! ## A new session -/

theorem Sound.create {db : Db} (h : Sound db) {userId : ℕ} {now : ℤ}
    (hcd : computeCooldownEndsAt (db.lastRewardedAt userId) now = none)
    (hnone : db.activeSession userId = none) :
    Sound { db with sessions := db.sessions.insert (newSession userId now) } where
  numbered := ⟨Nat.succ_pos _, (if_neg h.numbered.1.ne).trans h.numbered.2⟩
  ends := Table.forall_insert h.ends rfl
  done := Table.forall_insert h.done fun hstatus => by cases hstatus
  active_unique i j s r hs hr hu hsa hra := by
    rcases Table.insert_row_eq_some.mp hs with ⟨hi, hnew⟩ | hold
    · subst hnew
      rcases Table.insert_row_eq_some.mp hr with ⟨hj, -⟩ | hold'
      · rw [hi, hj]
      · exact absurd hra (activeSession_eq_none hnone hold' hu.symm)
    · rcases Table.insert_row_eq_some.mp hr with ⟨-, hnew⟩ | hold'
      · subst hnew
        exact absurd hsa (activeSession_eq_none hnone hold hu)
      · exact h.active_unique i j s r hold hold' hu hsa hra
  granted p hp := by
    obtain ⟨s, hs, hrest⟩ := h.granted p hp
    exact ⟨s, Table.insert_row_of_some hs _, hrest⟩
  once := h.once
  rested i j a s c ha hs hu haa hsc hc := by
    have hs' : db.sessions.row j = some s := by
      rcases Table.insert_row_eq_some.mp hs with ⟨-, rfl⟩ | hold
      · cases hsc
      · exact hold
    rcases Table.insert_row_eq_some.mp ha with ⟨-, hnew⟩ | hold
    · subst hnew
      exact cooldown_over h.done hcd hs' hu.symm hsc hc
    · exact h.rested i j a s c hold hs' hu haa hsc hc
  spaced i j s r c d hij hs hr hu hsc hrc hc hd := by
    rcases Table.insert_row_eq_some.mp hs with ⟨-, rfl⟩ | hold
    · cases hsc
    · rcases Table.insert_row_eq_some.mp hr with ⟨-, rfl⟩ | hold'
      · cases hrc
      · exact h.spaced i j s r c d hij hold hold' hu hsc hrc hc hd

/-- The three ends of `startMinigameSession`. -/
theorem start_cases (db : Db) (userId : ℕ) (now : ℤ) :
    (startMinigameSession db userId now).1 = db.expireStaleActiveSessions userId now
      ∨ (computeCooldownEndsAt
            ((db.expireStaleActiveSessions userId now).lastRewardedAt userId) now = none
          ∧ (db.expireStaleActiveSessions userId now).activeSession userId = none
          ∧ (startMinigameSession db userId now).1
            = { db.expireStaleActiveSessions userId now with
                sessions := (db.expireStaleActiveSessions userId now).sessions.insert
                  (newSession userId now) }) := by
  unfold startMinigameSession
  cases hcd : computeCooldownEndsAt
      ((db.expireStaleActiveSessions userId now).lastRewardedAt userId) now with
  | some cd => exact Or.inl (by simp only [hcd])
  | none =>
      cases hact : (db.expireStaleActiveSessions userId now).activeSession userId with
      | some r => exact Or.inl (by simp only [hcd, hact])
      | none => exact Or.inr ⟨rfl, rfl, by simp only [hcd, hact]⟩

theorem Sound.start {db : Db} (h : Sound db) (userId : ℕ) (now : ℤ) :
    Sound (startMinigameSession db userId now).1 := by
  have hexp := h.expireStale userId now
  rcases start_cases db userId now with heq | ⟨hcd, hnone, heq⟩
  · rw [heq]
    exact hexp
  · rw [heq]
    exact hexp.create hcd hnone

/-! ## A completion -/

/-- The four ends of `completeMinigameSession`: nothing beyond the expiry, the
session is already rewarded, it is too late, or the reward is granted. -/
theorem complete_cases (env : Env) (db : Db) (userId sid : ℕ) (clientMeta : ClientMeta) (now : ℤ) :
    (completeMinigameSession env db userId sid clientMeta now).1 = db
      ∨ (completeMinigameSession env db userId sid clientMeta now).1
          = db.expireStaleActiveSessions userId now
      ∨ ∃ s, (db.expireStaleActiveSessions userId now).sessions.row sid = some s
        ∧ s.userId = userId ∧ s.status = .ACTIVE
        ∧ ((completeMinigameSession env db userId sid clientMeta now).1
              = setStatus (db.expireStaleActiveSessions userId now) sid expired
          ∨ (isWithinCompleteWindow s.endsAt now = true
            ∧ (completeMinigameSession env db userId sid clientMeta now).1
              = grantReward env (db.expireStaleActiveSessions userId now) userId sid clientMeta
                  now)) := by
  unfold completeMinigameSession
  by_cases hsid : sid = 0
  · exact Or.inl (by rw [if_pos hsid])
  · rw [if_neg hsid]
    refine Or.inr ?_
    cases hfind : (db.expireStaleActiveSessions userId now).sessions.findFirst
        fun id s => id = sid && s.userId = userId with
    | none => exact Or.inl (by simp only [hfind])
    | some r =>
        obtain ⟨id, s⟩ := r
        obtain ⟨hrow, hp⟩ := Table.findFirst_eq_some hfind
        simp only [Bool.and_eq_true, decide_eq_true_eq] at hp
        obtain ⟨rfl, hu⟩ := hp
        simp only [hfind]
        by_cases hdone : s.status = .COMPLETED ∧ s.rewardGranted
        · exact Or.inl (by rw [if_pos hdone])
        · rw [if_neg hdone]
          by_cases hactive : s.status = .ACTIVE
          · rw [if_neg (not_not.mpr hactive)]
            cases hwin : isWithinCompleteWindow s.endsAt now with
            | false =>
                by_cases hearly : now < s.endsAt - MINIGAME_COMPLETE_EARLY_MS
                · exact Or.inl (by simp only [Bool.not_false, if_pos hearly, if_true])
                · exact Or.inr ⟨s, hrow, hu, hactive,
                    Or.inl (by simp only [Bool.not_false, if_neg hearly, if_true])⟩
            | true =>
                exact Or.inr ⟨s, hrow, hu, hactive, Or.inr ⟨hwin, by
                  simp only [Bool.not_true, if_false, Bool.false_eq_true]⟩⟩
          · exact Or.inl (by rw [if_pos hactive])

theorem retires_setStatus {db : Db} {sid : ℕ} {s : MinigameSession}
    (hs : db.sessions.row sid = some s) (hactive : s.status = .ACTIVE) :
    Retires db.sessions (setStatus db sid expired).sessions := by
  intro i
  rw [setStatus, Table.modify_row]
  split
  case isTrue hi =>
    subst hi
    rw [hs]
    exact Or.inr ⟨s, rfl, hactive, rfl⟩
  case isFalse => exact Or.inl rfl

theorem grantReward_writes (env : Env) (db : Db) (userId sid : ℕ) (clientMeta : ClientMeta)
    (now : ℤ) :
    (grantReward env db userId sid clientMeta now).sessions
        = db.sessions.modify sid (rewarded now)
      ∧ ∃ p, p.userId = userId ∧ p.session = sid ∧ p.playedAt = now
        ∧ (grantReward env db userId sid clientMeta now).powers = p :: db.powers := by
  unfold grantReward Db.getOrCreateMinigameGameId
  cases db.games.findFirst fun _ slug => slug = MINIGAME_GAME_SLUG with
  | none => exact ⟨rfl, _, rfl, rfl, rfl, rfl⟩
  | some r => exact ⟨rfl, _, rfl, rfl, rfl, rfl⟩

/-- A rewarded row is the one just rewarded or was there before. -/
theorem rewarded_row {t : Table MinigameSession} {sid i : ℕ} {now : ℤ} {s : MinigameSession}
    (h : (t.modify sid (rewarded now)).row i = some s) :
    (i = sid ∧ ∃ r, t.row sid = some r ∧ s = rewarded now r) ∨ (i ≠ sid ∧ t.row i = some s) := by
  rcases Table.modify_row_eq_some.mp h with ⟨hi, r, hr, hs⟩ | hother
  · exact Or.inl ⟨hi, r, hi ▸ hr, hs.symm⟩
  · exact Or.inr hother

/-- Completing the active session of a user inside its window. -/
theorem Sound.reward {db : Db} (h : Sound db) {userId sid : ℕ} {now : ℤ} {s : MinigameSession}
    (hs : db.sessions.row sid = some s) (hu : s.userId = userId) (hactive : s.status = .ACTIVE)
    (hwin : isWithinCompleteWindow s.endsAt now = true) {db' : Db} {p : UserPowerGame}
    (hsessions : db'.sessions = db.sessions.modify sid (rewarded now))
    (hpowers : db'.powers = p :: db.powers) (hpu : p.userId = userId) (hps : p.session = sid)
    (hpt : p.playedAt = now) : Sound db' := by
  -- the completion comes a full cooldown after every earlier one
  have hlate : ∀ j r d, db.sessions.row j = some r → r.userId = s.userId →
      r.status = .COMPLETED → r.completedAt = some d → MINIGAME_COOLDOWN_MS ≤ now - d := by
    intro j r d hr hru hrc hd
    have hrest := h.rested sid j s r d hs hr hru.symm hactive hrc hd
    have hend := h.ends sid s hs
    have hearly : s.endsAt - MINIGAME_COMPLETE_EARLY_MS ≤ now := by
      unfold isWithinCompleteWindow at hwin
      exact of_decide_eq_true (Bool.and_eq_true_iff.mp hwin).1
    unfold MINIGAME_COOLDOWN_MS at hrest ⊢
    unfold MINIGAME_DURATION_MS at hend
    unfold MINIGAME_COMPLETE_EARLY_MS at hearly
    omega
  refine ⟨?_, ?_, ?_, ?_, ?_, ?_, ?_, ?_⟩
  · rw [hsessions, Table.modify_row, h.numbered.2, Option.map_none, ite_self]
    exact ⟨h.numbered.1, rfl⟩
  · intro i r hr
    rw [hsessions] at hr
    rcases rewarded_row hr with ⟨-, r0, hr0, rfl⟩ | ⟨-, hold⟩
    · exact h.ends sid r0 hr0
    · exact h.ends i r hold
  · intro i r hr hrc
    rw [hsessions] at hr
    rcases rewarded_row hr with ⟨-, r0, -, rfl⟩ | ⟨-, hold⟩
    · exact ⟨rfl, rfl⟩
    · exact h.done i r hold hrc
  · intro i j a b ha hb hab haa hba
    rw [hsessions] at ha hb
    rcases rewarded_row ha with ⟨-, r0, -, rfl⟩ | ⟨-, hold⟩
    · cases haa
    · rcases rewarded_row hb with ⟨-, r0, -, rfl⟩ | ⟨-, hold'⟩
      · cases hba
      · exact h.active_unique i j a b hold hold' hab haa hba
  · intro q hq
    rw [hpowers] at hq
    rw [hsessions]
    rcases List.mem_cons.mp hq with rfl | hold
    · refine ⟨rewarded now s, ?_, hu.trans hpu.symm, rfl, congrArg some hpt.symm, hpt ▸ hwin⟩
      rw [hps, Table.modify_row, if_pos rfl, hs, Option.map_some]
    · obtain ⟨r, hr, hru, hrc, hrest⟩ := h.granted q hold
      have hne : q.session ≠ sid := by
        intro heq
        obtain rfl := Option.some.inj ((heq ▸ hr).symm.trans hs)
        rw [hactive] at hrc
        cases hrc
      exact ⟨r, by rw [Table.modify_row, if_neg hne, hr], hru, hrc, hrest⟩
  · rw [hpowers, List.map_cons, hps, List.nodup_cons]
    refine ⟨fun hmem => ?_, h.once⟩
    obtain ⟨q, hq, hqs⟩ := List.mem_map.mp hmem
    obtain ⟨r, hr, -, hrc, -⟩ := h.granted q hq
    obtain rfl := Option.some.inj ((hqs ▸ hr).symm.trans hs)
    rw [hactive] at hrc
    cases hrc
  · intro i j a r c ha hr har haa hrc hc
    rw [hsessions] at ha hr
    rcases rewarded_row ha with ⟨-, r0, -, rfl⟩ | ⟨hi, hold⟩
    · cases haa
    · rcases rewarded_row hr with ⟨-, r0, hr0, rfl⟩ | ⟨-, hold'⟩
      · -- the user would have had two active sessions
        obtain rfl := Option.some.inj (hr0.symm.trans hs)
        exact absurd (h.active_unique i sid a r0 hold hs har haa hactive) hi
      · exact h.rested i j a r c hold hold' har haa hrc hc
  · intro i j a b c d hij ha hb hab hac hbc hc hd
    rw [hsessions] at ha hb
    rcases rewarded_row ha with ⟨hi, r0, hr0, rfl⟩ | ⟨-, hold⟩
    · rcases rewarded_row hb with ⟨hj, -⟩ | ⟨-, hold'⟩
      · exact absurd (hi.trans hj.symm) hij
      · obtain rfl := Option.some.inj (hr0.symm.trans hs)
        obtain rfl := Option.some.inj hc
        exact (hlate j b d hold' hab.symm hbc hd).trans (le_abs_self _)
    · rcases rewarded_row hb with ⟨-, r0, hr0, rfl⟩ | ⟨-, hold'⟩
      · obtain rfl := Option.some.inj (hr0.symm.trans hs)
        obtain rfl := Option.some.inj hd
        rw [abs_sub_comm]
        exact (hlate i a c hold hab hac hc).trans (le_abs_self _)
      · exact h.spaced i j a b c d hij hold hold' hab hac hbc hc hd

theorem Sound.complete {db : Db} (h : Sound db) (env : Env) (userId sid : ℕ)
    (clientMeta : ClientMeta) (now : ℤ) :
    Sound (completeMinigameSession env db userId sid clientMeta now).1 := by
  have hexp := h.expireStale userId now
  rcases complete_cases env db userId sid clientMeta now with
    heq | heq | ⟨s, hs, hu, hactive, heq | ⟨hwin, heq⟩⟩
  · rw [heq]
    exact h
  · rw [heq]
    exact hexp
  · rw [heq]
    exact hexp.retire (retires_setStatus hs hactive) rfl
  · rw [heq]
    obtain ⟨hsessions, p, hpu, hps, hpt, hpowers⟩ := grantReward_writes env
      (db.expireStaleActiveSessions userId now) userId sid clientMeta now
    exact hexp.reward hs hu hactive hwin hsessions hpowers hpu hps hpt

/-! ## Runs -/

theorem Sound.handle {db : Db} (h : Sound db) (env : Env) (request : Request) :
    Sound (handle env db request) := by
  cases request with
  | getMinigameStatus userId now => exact h.expireStale userId now
  | startMinigameSession userId now => exact h.start userId now
  | completeMinigameSession userId sid clientMeta now =>
      exact h.complete env userId sid clientMeta now

theorem run_sound {env : Env} {requests : List Request} {db : Db}
    (hrun : (system env).run Db.empty requests = some db) : Sound db :=
  (system env).run_kept
    (fun _ request _ h hstep => Option.some.inj hstep ▸ h.handle env request) sound_empty hrun

/-- Completing a rewarded session again answers as the first time did, and
grants nothing. -/
theorem complete_rewarded {env : Env} {db : Db} {sid : ℕ} {s : MinigameSession}
    (hs : db.sessions.row sid = some s) (hstatus : s.status = .COMPLETED)
    (hgranted : s.rewardGranted = true) (hsid : sid ≠ 0) (clientMeta : ClientMeta) (now : ℤ) :
    completeMinigameSession env db s.userId sid clientMeta now
      = (db.expireStaleActiveSessions s.userId now,
        .ok true MINIGAME_REWARD_HASHRATE (powerDaysFromEnv env)
          (computeCooldownEndsAt s.completedAt now)
          (cooldownSecondsRemaining (computeCooldownEndsAt s.completedAt now) now)) := by
  have hrow := (retires_expireStale db s.userId now).keeps hs (by simp [hstatus])
  have hfind : ((db.expireStaleActiveSessions s.userId now).sessions.findFirst
      fun id r => id = sid && r.userId = s.userId) = some (sid, s) :=
    Table.findFirst_of_unique hrow (by simp) fun j r _ hp => by simp_all
  unfold completeMinigameSession
  simp only [if_neg hsid, hfind, if_pos (And.intro hstatus hgranted)]

/-- What holds of the sessions of every user, in every state. -/
structure RewardedOnce (env : Env) (db : Db) : Prop where
  one_active : ∀ i j s r, db.sessions.row i = some s → db.sessions.row j = some r →
    s.userId = r.userId → s.status = .ACTIVE → r.status = .ACTIVE → i = j
  one_grant : ∀ sid, (db.powers.filter (·.session = sid)).length ≤ 1
  idempotent : ∀ sid s, db.sessions.row sid = some s → s.status = .COMPLETED →
    s.rewardGranted = true → ∀ clientMeta now,
      (∃ powerDays next seconds,
          (completeMinigameSession env db s.userId sid clientMeta now).2
            = .ok true MINIGAME_REWARD_HASHRATE powerDays next seconds)
        ∧ (completeMinigameSession env db s.userId sid clientMeta now).1.powers = db.powers
  apart : db.powers.Pairwise fun p q =>
    p.userId = q.userId → MINIGAME_COOLDOWN_MS ≤ |p.playedAt - q.playedAt|
  in_window : ∀ p ∈ db.powers, ∃ s, db.sessions.row p.session = some s ∧ s.userId = p.userId
    ∧ s.endsAt - MINIGAME_COMPLETE_EARLY_MS ≤ p.playedAt
    ∧ p.playedAt ≤ s.endsAt + MINIGAME_COMPLETE_LATE_MS

theorem Sound.one_grant {db : Db} (h : Sound db) (sid : ℕ) :
    (db.powers.filter (·.session = sid)).length ≤ 1 := by
  have hcount := List.nodup_iff_count_le_one.mp h.once sid
  rw [List.count_eq_length_filter, List.filter_map, List.length_map] at hcount
  exact hcount

theorem Sound.apart {db : Db} (h : Sound db) :
    db.powers.Pairwise fun p q =>
      p.userId = q.userId → MINIGAME_COOLDOWN_MS ≤ |p.playedAt - q.playedAt| := by
  have hdistinct : db.powers.Pairwise fun p q => p.session ≠ q.session :=
    List.pairwise_map.mp h.once
  refine hdistinct.imp_of_mem fun hp hq hne hu => ?_
  obtain ⟨s, hs, hsu, hstatus, hc, -⟩ := h.granted _ hp
  obtain ⟨r, hr, hru, hrstatus, hd, -⟩ := h.granted _ hq
  exact h.spaced _ _ s r _ _ hne hs hr (hsu.trans (hu.trans hru.symm)) hstatus hrstatus hc hd

/-- **A minigame session is rewarded at most once.** In every state that any
requests of any users lead to: a user has at most one active session, a
session has granted at most one power and completing it again grants none,
the powers of a user are a full cooldown apart, and each was granted inside
the completion window of its session. -/
theorem minigame_rewarded_once (env : Env) (requests : List Request) (db : Db)
    (hrun : (system env).run Db.empty requests = some db) : RewardedOnce env db := by
  have h := run_sound hrun
  refine ⟨h.active_unique, h.one_grant, ?_, h.apart, ?_⟩
  · intro sid s hs hstatus hgranted clientMeta now
    have hsid : sid ≠ 0 := by
      rintro rfl
      rw [h.numbered.2] at hs
      cases hs
    rw [complete_rewarded hs hstatus hgranted hsid clientMeta now]
    exact ⟨⟨_, _, _, rfl⟩, rfl⟩
  · intro p hp
    obtain ⟨s, hs, hu, -, -, hwin⟩ := h.granted p hp
    obtain ⟨hearly, hlate⟩ := Bool.and_eq_true_iff.mp hwin
    exact ⟨s, hs, hu, of_decide_eq_true hearly, of_decide_eq_true hlate⟩

/-- One round that is played, completed twice, and asked for again too early. -/
theorem minigame_rewarded_once_round :
    ∃ db, (system ⟨none⟩).run Db.empty
        [.startMinigameSession 7 0, .completeMinigameSession 7 1 ⟨none, none⟩ 69000,
          .completeMinigameSession 7 1 ⟨none, none⟩ 69500, .startMinigameSession 7 200000]
        = some db
      ∧ db.powers.length = 1 ∧ RewardedOnce ⟨none⟩ db := by
  have hrun : ((system ⟨none⟩).run Db.empty
      [.startMinigameSession 7 0, .completeMinigameSession 7 1 ⟨none, none⟩ 69000,
        .completeMinigameSession 7 1 ⟨none, none⟩ 69500,
        .startMinigameSession 7 200000]).isSome := by decide +kernel
  exact ⟨_, (Option.some_get hrun).symm, by decide +kernel +revert,
    minigame_rewarded_once ⟨none⟩ _ _ (Option.some_get hrun).symm⟩

end BlockMiner.Minigame
