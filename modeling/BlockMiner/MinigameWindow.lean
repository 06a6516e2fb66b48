import BlockMiner.MinigameOnce

/-!
# The window of a completion

`isWithinCompleteWindow` takes both of its ends in. But a completion first lets the
stale sessions of the user expire, and their bound takes the same instant in: at
`endsAt + MINIGAME_COMPLETE_LATE_MS` the session that the window still allows has just
been expired. That instant is the only one where the two disagree.
-/

namespace BlockMiner.Minigame

/-- The reward was granted by this very call. -/
def CompleteReply.grants : CompleteReply → Bool
  | .ok idempotent .. => !idempotent
  | _ => false

/-- The session of the user that can be completed now. -/
def Completable (db : Db) (userId sid : ℕ) (now : ℤ) : Prop :=
  ∃ s, db.sessions.row sid = some s ∧ s.userId = userId ∧ s.status = .ACTIVE
    ∧ isWithinCompleteWindow s.endsAt now = true

/-- An active session of the user, at the last instant of its window. -/
def AtDeadline (db : Db) (userId sid : ℕ) (now : ℤ) : Prop :=
  ∃ s, db.sessions.row sid = some s ∧ s.userId = userId ∧ s.status = .ACTIVE
    ∧ now = s.endsAt + MINIGAME_COMPLETE_LATE_MS

section Complete

variable (env : Env) (db : Db) (userId sid : ℕ) (clientMeta : ClientMeta) (now : ℤ)

/-- The call answers with a new reward and creates the power it is for. -/
def Grants : Prop :=
  (completeMinigameSession env db userId sid clientMeta now).2.grants = true
    ∧ ∃ p, p.userId = userId ∧ p.session = sid ∧ p.playedAt = now
      ∧ (completeMinigameSession env db userId sid clientMeta now).1.powers = p :: db.powers

/-- The call is rejected, or answered as one that came before, and creates no power. -/
def GrantsNothing : Prop :=
  (completeMinigameSession env db userId sid clientMeta now).2.grants = false
    ∧ (completeMinigameSession env db userId sid clientMeta now).1.powers = db.powers

end Complete

section Window

variable {env : Env} {db : Db} {userId sid : ℕ} {clientMeta : ClientMeta} {now : ℤ}

theorem GrantsNothing.not_grants (h : GrantsNothing env db userId sid clientMeta now) :
    ¬Grants env db userId sid clientMeta now := by
  rintro ⟨hgrants, -⟩
  rw [h.1] at hgrants
  cases hgrants

theorem within_iff {endsAt : ℤ} : isWithinCompleteWindow endsAt now = true ↔
    endsAt - MINIGAME_COMPLETE_EARLY_MS ≤ now ∧ now ≤ endsAt + MINIGAME_COMPLETE_LATE_MS := by
  simp [isWithinCompleteWindow]

theorem AtDeadline.completable (h : AtDeadline db userId sid now) :
    Completable db userId sid now := by
  obtain ⟨s, hs, hu, hactive, rfl⟩ := h
  refine ⟨s, hs, hu, hactive, within_iff.mpr ⟨?_, le_refl _⟩⟩
  unfold MINIGAME_COMPLETE_EARLY_MS MINIGAME_COMPLETE_LATE_MS
  omega

/-- What the expiry leaves of the sessions that can be completed. -/
theorem completable_expireStale :
    Completable (db.expireStaleActiveSessions userId now) userId sid now
      ↔ Completable db userId sid now ∧ ¬AtDeadline db userId sid now := by
  constructor
  · rintro ⟨s, hs, hu, hactive, hwin⟩
    obtain ⟨s₀, hs₀, hs⟩ := Option.map_eq_some_iff.mp hs
    split at hs
    case isTrue =>
      rw [← hs] at hactive
      cases hactive
    case isFalse hstale =>
      subst hs
      refine ⟨⟨s₀, hs₀, hu, hactive, hwin⟩, ?_⟩
      rintro ⟨s', hs', -, -, rfl⟩
      obtain rfl := Option.some.inj (hs₀.symm.trans hs')
      simp [hu, hactive] at hstale
  · rintro ⟨⟨s, hs, hu, hactive, hwin⟩, hnot⟩
    refine ⟨s, ?_, hu, hactive, hwin⟩
    have hfresh : ¬s.endsAt ≤ now - MINIGAME_COMPLETE_LATE_MS := by
      intro hle
      have hlate := (within_iff.mp hwin).2
      exact hnot ⟨s, hs, hu, hactive, by omega⟩
    simp [Db.expireStaleActiveSessions, Table.updateMany_row, hs, hfresh]

/-- A call grants what is still completable once the stale sessions have expired. -/
theorem grants_of_completable (hsid : sid ≠ 0)
    (h : Completable (db.expireStaleActiveSessions userId now) userId sid now) :
    Grants env db userId sid clientMeta now := by
  obtain ⟨s, hs, hu, hactive, hwin⟩ := h
  have hfind : (db.expireStaleActiveSessions userId now).sessions.findFirst
      (fun id r => id = sid && r.userId = userId) = some (sid, s) :=
    Table.findFirst_of_unique hs (by simp [hu]) fun j r _ hp => by simp_all
  have heq : completeMinigameSession env db userId sid clientMeta now
      = (grantReward env (db.expireStaleActiveSessions userId now) userId sid clientMeta now,
        .ok false MINIGAME_REWARD_HASHRATE (powerDaysFromEnv env)
          (some (now + MINIGAME_COOLDOWN_MS))
          (cooldownSecondsRemaining (some (now + MINIGAME_COOLDOWN_MS)) now)) := by
    simp [completeMinigameSession, hsid, hfind, hactive, hwin]
  obtain ⟨-, p, hpu, hps, hpt, hpowers⟩ := grantReward_writes env
    (db.expireStaleActiveSessions userId now) userId sid clientMeta now
  rw [Grants, heq]
  exact ⟨rfl, p, hpu, hps, hpt, hpowers⟩

/-- Every other call ends before the reward. -/
theorem grantsNothing_of_not_completable
    (h : ¬Completable (db.expireStaleActiveSessions userId now) userId sid now) :
    GrantsNothing env db userId sid clientMeta now := by
  unfold GrantsNothing completeMinigameSession
  by_cases hsid : sid = 0
  · rw [if_pos hsid]
    exact ⟨rfl, rfl⟩
  · rw [if_neg hsid]
    cases hfind : (db.expireStaleActiveSessions userId now).sessions.findFirst
        fun id s => id = sid && s.userId = userId with
    | none =>
        simp only [hfind]
        exact ⟨rfl, rfl⟩
    | some r =>
        obtain ⟨id, s⟩ := r
        obtain ⟨hrow, hp⟩ := Table.findFirst_eq_some hfind
        simp only [Bool.and_eq_true, decide_eq_true_eq] at hp
        obtain ⟨rfl, hu⟩ := hp
        simp only [hfind]
        by_cases hdone : s.status = .COMPLETED ∧ s.rewardGranted
        · rw [if_pos hdone]
          exact ⟨rfl, rfl⟩
        · rw [if_neg hdone]
          by_cases hactive : s.status = .ACTIVE
          · have hwin : isWithinCompleteWindow s.endsAt now = false :=
              Bool.eq_false_iff.mpr fun hwin => h ⟨s, hrow, hu, hactive, hwin⟩
            rw [if_neg (not_not.mpr hactive), hwin]
            simp only [Bool.not_false, if_true]
            split <;> exact ⟨rfl, rfl⟩
          · rw [if_pos hactive]
            exact ⟨rfl, rfl⟩

/-- A call grants the reward exactly for a session of the user that can be completed
now, and in every other case it grants nothing. -/
structure GrantsInWindow (env : Env) (db : Db) (userId sid : ℕ) (clientMeta : ClientMeta)
    (now : ℤ) : Prop where
  grants_iff : Grants env db userId sid clientMeta now ↔ Completable db userId sid now
  otherwise : ¬Completable db userId sid now → GrantsNothing env db userId sid clientMeta now

/-- The call keeps to its window but at the last instant of one. -/
theorem grantsInWindow_iff (hsid : sid ≠ 0) :
    GrantsInWindow env db userId sid clientMeta now ↔ ¬AtDeadline db userId sid now := by
  constructor
  · intro h hlast
    have hnot : ¬Completable (db.expireStaleActiveSessions userId now) userId sid now :=
      fun hc => (completable_expireStale.mp hc).2 hlast
    exact (grantsNothing_of_not_completable hnot).not_grants (h.grants_iff.mpr hlast.completable)
  · intro hlast
    have hiff : Completable (db.expireStaleActiveSessions userId now) userId sid now
        ↔ Completable db userId sid now := by
      rw [completable_expireStale, and_iff_left hlast]
    refine ⟨⟨fun hgrants => ?_, fun hc => ?_⟩, fun hc => ?_⟩
    · by_contra hc
      exact (grantsNothing_of_not_completable (mt hiff.mp hc)).not_grants hgrants
    · exact grants_of_completable hsid (hiff.mpr hc)
    · exact grantsNothing_of_not_completable (mt hiff.mp hc)

end Window

/-- A round of player 7 that was started at 0. -/
def started : Db := (startMinigameSession .empty 7 0).1

/-- A millisecond before the deadline nothing is lost. -/
theorem grantsInWindow_iff_started :
    GrantsInWindow ⟨none⟩ started 7 1 ⟨none, none⟩ 188999 :=
  (grantsInWindow_iff Nat.one_ne_zero).mpr <| by
    rintro ⟨s, hs, -, -, hnow⟩
    obtain rfl := Option.some.inj hs
    exact absurd hnow (by decide)

/-- At the deadline the window is open and the call is refused. -/
theorem refused_at_deadline :
    Completable started 7 1 189000
      ∧ ¬Grants ⟨none⟩ started 7 1 ⟨none, none⟩ 189000
      ∧ (completeMinigameSession ⟨none⟩ started 7 1 ⟨none, none⟩ 189000).2 = .SESSION_NOT_ACTIVE
      := by
  refine ⟨⟨newSession 7 0, rfl, rfl, rfl, rfl⟩, ?_, rfl⟩
  rintro ⟨hgrants, -⟩
  cases hgrants

end BlockMiner.Minigame
