import BlockMiner.AutoMining
import BlockMiner.Run
import Mathlib.Algebra.Order.Group.Unbundled.Abs

/-!
# The limits of auto mining

A claim writes where its session is as it has read it: with one active
session for each user, no other claim of the user has been granted in
between, so the sum of the day and the impression are still as they were
read, and the next claim time is ahead of every grant. `Later` says what a
write of any request leaves to the claims that are under way.

The limits rest on there being one active session. `startSession` collects
the active sessions before it creates its own, so two of them that overlap
leave two active, and one that waits creates a session that is due by a clock
from before the last grant. `StartsAlone` excludes this.
-/

namespace BlockMiner.AutoMining

/-! ## What a write leaves alone -/

/-- The session is as the request has read it. -/
def Current (db : Db) (seen : Seen) : Prop :=
  ∃ s, db.sessions.row seen.sessionId = some s ∧ unchanged seen s = true

/-- A write by any request. Where it leaves an active session unchanged, it
leaves its user's day and its impressions unclaimed as well. -/
structure Later (db db' : Db) : Prop where
  session : ∀ i s, db.sessions.row i = some s → ∃ s', db'.sessions.row i = some s'
    ∧ s'.userId = s.userId ∧ s.nextClaimAt ≤ s'.nextClaimAt
    ∧ (s'.isActive = true → s.isActive = true)
  impression : ∀ k r, db.impressions.row k = some r →
    ∃ r', db'.impressions.row k = some r' ∧ r'.sessionId = r.sessionId
  day : ∀ i s s', db.sessions.row i = some s → db'.sessions.row i = some s' →
    s'.isActive = true → s'.nextClaimAt = s.nextClaimAt →
    ∀ t, sumDailyGrantedHash db' s.userId t = sumDailyGrantedHash db s.userId t
  unclaimed : ∀ i s s', db.sessions.row i = some s → db'.sessions.row i = some s' →
    s'.isActive = true → s'.nextClaimAt = s.nextClaimAt →
    ∀ k r r', db.impressions.row k = some r → db'.impressions.row k = some r' →
      r.sessionId = i → r'.grantId = r.grantId

/-- The impressions keep their sessions and their grants. -/
def SameImpressions (db db' : Db) : Prop :=
  ∀ k r, db.impressions.row k = some r → ∃ r', db'.impressions.row k = some r'
    ∧ r'.sessionId = r.sessionId ∧ r'.grantId = r.grantId

/-- A write that grants nothing. -/
theorem Later.quiet {db db' : Db} (hgrants : db'.grants = db.grants)
    (himp : SameImpressions db db')
    (hsession : ∀ i s, db.sessions.row i = some s → ∃ s', db'.sessions.row i = some s'
      ∧ s'.userId = s.userId ∧ s.nextClaimAt ≤ s'.nextClaimAt
      ∧ (s'.isActive = true → s.isActive = true)) : Later db db' where
  session := hsession
  impression k r hr := by
    obtain ⟨r', hr', hsame, -⟩ := himp k r hr
    exact ⟨r', hr', hsame⟩
  day _ _ _ _ _ _ _ t := by rw [sumDailyGrantedHash, hgrants, sumDailyGrantedHash]
  unclaimed _ _ _ _ _ _ _ k r r' hr hr' _ := by
    obtain ⟨x, hx, -, hgrant⟩ := himp k r hr
    rwa [← Option.some.inj (hx.symm.trans hr')]

theorem SameImpressions.rfl' {db db' : Db} (h : db'.impressions = db.impressions) :
    SameImpressions db db' :=
  fun _ r hr => ⟨r, by rw [h, hr], rfl, rfl⟩

theorem deactivateRows_row (ids : List ℕ) (t : Table Session) (i : ℕ) :
    (deactivateRows t ids).row i
      = (t.row i).map fun s => if i ∈ ids then { s with isActive := false } else s := by
  induction ids generalizing t with
  | nil => simp [deactivateRows]
  | cons id ids ih =>
      have hstep : deactivateRows t (id :: ids)
        = deactivateRows (t.modify id fun s => { s with isActive := false }) ids := rfl
      rw [hstep, ih, Table.modify_row]
      by_cases hid : i = id
      · subst hid
        rw [if_pos rfl, Option.map_map]
        congr 1
        funext s
        by_cases hmem : i ∈ ids <;> simp [hmem]
      · rw [if_neg hid]
        congr 1
        funext s
        by_cases hmem : i ∈ ids <;> simp [hmem, hid]

theorem createSession_later (db : Db) (userId : ℕ) (mode : MiningMode) (now : ℤ) (ids : List ℕ) :
    Later db (createSession db userId mode now ids) := by
  refine Later.quiet rfl (.rfl' rfl) fun i s hs => ?_
  have hrow := deactivateRows_row ids db.sessions i
  rw [hs, Option.map_some] at hrow
  refine ⟨_, Table.insert_row_of_some hrow _, ?_⟩
  by_cases hmem : i ∈ ids
  · simp [hmem]
  · simp [hmem]

theorem stopSession_later (db : Db) (userId : ℕ) : Later db (stopSession db userId) := by
  refine Later.quiet rfl (.rfl' rfl) fun i s hs => ?_
  have hrow : (stopSession db userId).sessions.row i = _ := Table.updateMany_row ..
  rw [hs, Option.map_some] at hrow
  refine ⟨_, hrow, ?_⟩
  by_cases hactive : isActiveOf userId s = true
  · simp [hactive]
  · simp [hactive]

theorem sameImpressions_create (db : Db) (userId : ℕ) (seen : Seen) (banner : Banner)
    (createdAt : ℤ) : SameImpressions db (createImpression db userId seen banner createdAt) :=
  fun _ r hr => ⟨r, Table.insert_row_of_some hr _, rfl, rfl⟩

theorem sameImpressions_click (db : Db) (impressionId : ℕ) (now : ℤ) :
    SameImpressions db (updateClick db impressionId now) := by
  intro k r hr
  have hrow : (updateClick db impressionId now).impressions.row k = _ := Table.modify_row ..
  rw [hr] at hrow
  by_cases hk : k = impressionId
  · rw [if_pos hk, Option.map_some] at hrow
    exact ⟨_, hrow, rfl, rfl⟩
  · rw [if_neg hk] at hrow
    exact ⟨r, hrow, rfl, rfl⟩

theorem Later.sessions_same {db db' : Db} (hgrants : db'.grants = db.grants)
    (hsessions : db'.sessions = db.sessions) (himp : SameImpressions db db') : Later db db' :=
  Later.quiet hgrants himp fun _ s hs => ⟨s, by rw [hsessions, hs], rfl, le_refl _, id⟩

/-! ## The limits -/

/-- The four limits. -/
structure WithinLimits (db : Db) : Prop where
  oneActive : ∀ i j s s', db.sessions.row i = some s → db.sessions.row j = some s' →
    s.isActive = true → s'.isActive = true → s.userId = s'.userId → i = j
  spaced : ∀ i j g g', db.grants.row i = some g → db.grants.row j = some g' →
    g.userId = g'.userId → i ≠ j → CYCLE_SECONDS * 1000 - skewMs ≤ |g.earnedAt - g'.earnedAt|
  daily : ∀ userId t, sumDailyGrantedHash db userId t ≤ DAILY_LIMIT_HASH
  backed : ∀ i j g g' k, db.grants.row i = some g → db.grants.row j = some g' →
    g.impressionId = some k → g'.impressionId = some k → i = j

/-- With what carries them: the next claim is a cycle ahead of every grant,
and an impression knows the grant it was claimed for. -/
structure Limited (db : Db) : Prop extends WithinLimits db where
  ahead : ∀ i s j g, db.sessions.row i = some s → s.isActive = true →
    db.grants.row j = some g → g.userId = s.userId →
    g.earnedAt + CYCLE_SECONDS * 1000 ≤ s.nextClaimAt
  claimed : ∀ j g k, db.grants.row j = some g → g.impressionId = some k →
    ∃ r, db.impressions.row k = some r ∧ r.grantId = some j

/-- A write that grants nothing and opens no session. -/
theorem Limited.quiet {db db' : Db} (h : Limited db) (hgrants : db'.grants = db.grants)
    (himp : SameImpressions db db')
    (hsession : ∀ i s', db'.sessions.row i = some s' → s'.isActive = true →
      ∃ s, db.sessions.row i = some s ∧ s.isActive = true ∧ s.userId = s'.userId
        ∧ s.nextClaimAt = s'.nextClaimAt) : Limited db' where
  oneActive i j s s' hs hs' ha ha' hu := by
    obtain ⟨x, hx, hxa, hxu, -⟩ := hsession i s hs ha
    obtain ⟨y, hy, hya, hyu, -⟩ := hsession j s' hs' ha'
    exact h.oneActive i j x y hx hy hxa hya (hxu.trans (hu.trans hyu.symm))
  spaced := by
    rw [hgrants]
    exact h.spaced
  daily userId t := by
    rw [sumDailyGrantedHash, hgrants]
    exact h.daily userId t
  backed := by
    rw [hgrants]
    exact h.backed
  ahead i s j g hs ha hg hu := by
    rw [hgrants] at hg
    obtain ⟨x, hx, hxa, hxu, hxn⟩ := hsession i s hs ha
    rw [← hxn]
    exact h.ahead i x j g hx hxa hg (hu.trans hxu.symm)
  claimed j g k hg hk := by
    rw [hgrants] at hg
    obtain ⟨r, hr, hgrant⟩ := h.claimed j g k hg hk
    obtain ⟨r', hr', -, hsame⟩ := himp k r hr
    exact ⟨r', hr', hsame.trans hgrant⟩

theorem Limited.sessions_same {db db' : Db} (h : Limited db) (hgrants : db'.grants = db.grants)
    (hsessions : db'.sessions = db.sessions) (himp : SameImpressions db db') : Limited db' :=
  h.quiet hgrants himp fun _ s' hs' ha => ⟨s', hsessions ▸ hs', ha, rfl, rfl⟩

theorem Limited.stopSession {db : Db} (h : Limited db) (userId : ℕ) :
    Limited (stopSession db userId) := by
  refine h.quiet rfl (.rfl' rfl) fun i s' hs' ha => ?_
  have hrow : (AutoMining.stopSession db userId).sessions.row i = _ := Table.updateMany_row ..
  rw [hs'] at hrow
  obtain ⟨s, hs, heq⟩ := Option.map_eq_some_iff.mp hrow.symm
  split at heq
  · subst heq
    cases ha
  · subst heq
    exact ⟨s, hs, ha, rfl, rfl⟩

/-- Of the rows after `createSession`, the active ones. -/
theorem createSession_active {db : Db} {userId : ℕ} {mode : MiningMode} {now : ℤ} {ids : List ℕ}
    {i : ℕ} {s : Session}
    (hs : (createSession db userId mode now ids).sessions.row i = some s)
    (ha : s.isActive = true) :
    (i = (deactivateRows db.sessions ids).nextId ∧ s.userId = userId
        ∧ s.nextClaimAt = now + CYCLE_SECONDS * 1000)
      ∨ (db.sessions.row i = some s ∧ i ∉ ids) := by
  rcases Table.insert_row_eq_some.mp hs with ⟨hi, rfl⟩ | hold
  · exact Or.inl ⟨hi, rfl, rfl⟩
  · rw [deactivateRows_row] at hold
    obtain ⟨x, hx, heq⟩ := Option.map_eq_some_iff.mp hold
    split at heq
    case isTrue =>
      subst heq
      cases ha
    case isFalse hmem =>
      subst heq
      exact Or.inr ⟨hx, hmem⟩

/-- Where a session is created, the active sessions of its user are the
collected ones, and no grant of the user is later than its clock. -/
def StartsAlone (db : Db) (c : Call) (_ : Answer) : Prop :=
  match c with
  | .create userId _ now deactivated =>
      (∀ x ∈ db.sessions.rows, isActiveOf userId x.2 = true → x.1 ∈ deactivated)
        ∧ ∀ x ∈ db.grants.rows, x.2.userId = userId → x.2.earnedAt ≤ now
  | _ => True

instance (db : Db) (c : Call) (answer : Answer) : Decidable (StartsAlone db c answer) := by
  unfold StartsAlone
  cases c <;> infer_instance

theorem Limited.createSession {db : Db} (h : Limited db) {userId : ℕ} {mode : MiningMode} {now : ℤ}
    {ids : List ℕ} {answer : Answer}
    (halone : StartsAlone db (.create userId mode now ids) answer) :
    Limited (createSession db userId mode now ids) where
  oneActive i j s s' hs hs' ha ha' hu := by
    have hother {k : ℕ} {x : Session} (hx : db.sessions.row k = some x) (hk : k ∉ ids)
        (hxa : x.isActive = true) : x.userId ≠ userId := fun hxu =>
      hk (halone.1 (k, x) (Table.mem_rows.mpr hx) (by simp [isActiveOf, hxa, hxu]))
    rcases createSession_active hs ha with ⟨hi, hiu, -⟩ | ⟨hold, hi⟩
    · rcases createSession_active hs' ha' with ⟨hj, -, -⟩ | ⟨hold', hj⟩
      · rw [hi, hj]
      · exact absurd (hu.symm.trans hiu) (hother hold' hj ha')
    · rcases createSession_active hs' ha' with ⟨-, hju, -⟩ | ⟨hold', -⟩
      · exact absurd (hu.trans hju) (hother hold hi ha)
      · exact h.oneActive i j s s' hold hold' ha ha' hu
  spaced := h.spaced
  daily := h.daily
  backed := h.backed
  ahead i s j g hs ha hg hu := by
    rcases createSession_active hs ha with ⟨-, hiu, hnext⟩ | ⟨hold, -⟩
    · rw [hnext]
      have hle : g.earnedAt ≤ now := halone.2 (j, g) (Table.mem_rows.mpr hg) (hu.trans hiu)
      omega
    · exact h.ahead i s j g hold ha hg hu
  claimed := h.claimed

/-! ## Claims under way -/

/-- The session of a claim, no later than read. -/
def SawSession (db : Db) (claim : Claim) (seen : Seen) : Prop :=
  ∃ s, db.sessions.row seen.sessionId = some s ∧ s.userId = claim.userId
    ∧ seen.nextClaimAt ≤ s.nextClaimAt

/-- The impression of a claim belongs to its session, and is open as long as
the session is as it was read. -/
def SawImpression (db : Db) (claim : Claim) (seen : Seen) : Prop :=
  ∀ k ∈ claim.impressionId, ∃ r, db.impressions.row k = some r ∧ r.sessionId = seen.sessionId
    ∧ (Current db seen → r.grantId = none)

/-- What a request remembers. -/
def Remembers (db : Db) : Call → Prop
  | .impression claim seen k => SawSession db claim seen ∧ claim.impressionId = some k
  | .daily claim seen => SawSession db claim seen ∧ SawImpression db claim seen
      ∧ isClaimDue seen.nextClaimAt claim.now = true
  | .bump claim seen => SawSession db claim seen ∧ SawImpression db claim seen
      ∧ isClaimDue seen.nextClaimAt claim.now = true
      ∧ (Current db seen → sumDailyGrantedHash db claim.userId claim.now
        + hashRateForMode claim.mode ≤ DAILY_LIMIT_HASH)
  | _ => True

section Later

variable {db db' : Db} (h : Later db db') {claim : Claim} {seen : Seen}
include h

theorem SawSession.later (hsaw : SawSession db claim seen) : SawSession db' claim seen := by
  obtain ⟨s, hs, hu, hle⟩ := hsaw
  obtain ⟨s', hs', hu', hle', -⟩ := h.session _ s hs
  exact ⟨s', hs', hu'.trans hu, hle.trans hle'⟩

/-- A session that is as it was read has been so all the time. -/
theorem current_of_later (hsaw : SawSession db claim seen) (hcur : Current db' seen) :
    ∃ s s', db.sessions.row seen.sessionId = some s ∧ db'.sessions.row seen.sessionId = some s'
      ∧ unchanged seen s = true ∧ s.userId = claim.userId ∧ s'.isActive = true
      ∧ s'.nextClaimAt = s.nextClaimAt := by
  obtain ⟨s, hs, hu, hle⟩ := hsaw
  obtain ⟨s', hs', -, hle', hactive⟩ := h.session _ s hs
  obtain ⟨x, hx, hsame⟩ := hcur
  obtain rfl := Option.some.inj (hx.symm.trans hs')
  simp only [unchanged, Bool.and_eq_true, decide_eq_true_eq] at hsame ⊢
  have hnext : s.nextClaimAt = seen.nextClaimAt := le_antisymm (hle'.trans hsame.1.le) hle
  exact ⟨s, x, hs, hx, ⟨hnext, hactive hsame.2⟩, hu, hsame.2, hsame.1.trans hnext.symm⟩

theorem SawImpression.later (hsaw : SawSession db claim seen) (himp : SawImpression db claim seen) :
    SawImpression db' claim seen := by
  intro k hk
  obtain ⟨r, hr, hsession, hopen⟩ := himp k hk
  obtain ⟨r', hr', hsession'⟩ := h.impression k r hr
  refine ⟨r', hr', hsession'.trans hsession, fun hcur => ?_⟩
  obtain ⟨s, s', hs, hs', hsame, -, hactive, hnext⟩ := current_of_later h hsaw hcur
  rw [h.unclaimed _ s s' hs hs' hactive hnext k r r' hr hr' hsession]
  exact hopen ⟨s, hs, hsame⟩

theorem Remembers.later {c : Call} (hc : Remembers db c) : Remembers db' c := by
  cases c with
  | impression claim seen k => exact ⟨hc.1.later h, hc.2⟩
  | daily claim seen => exact ⟨hc.1.later h, hc.2.1.later h hc.1, hc.2.2⟩
  | bump claim seen =>
      obtain ⟨hsaw, himp, hdue, hday⟩ := hc
      refine ⟨hsaw.later h, himp.later h hsaw, hdue, fun hcur => ?_⟩
      obtain ⟨s, s', hs, hs', hsame, hu, hactive, hnext⟩ := current_of_later h hsaw hcur
      rw [← hu, h.day _ s s' hs hs' hactive hnext claim.now, hu]
      exact hday ⟨s, hs, hsame⟩
  | _ => trivial

end Later

/-! ## A grant -/

theorem sumDailyGrantedHash_grant (db : Db) (claim : Claim) (seen : Seen) (userId : ℕ) (t : ℤ) :
    sumDailyGrantedHash (grant db claim seen) userId t = sumDailyGrantedHash db userId t
      + if claim.userId = userId ∧ startOfUtcDay t ≤ claim.now
          ∧ claim.now < startOfUtcDay t + 86400000 then hashRateForMode claim.mode else 0 :=
  Table.sum_insert ..

/-- A day has one sum. -/
theorem sumDailyGrantedHash_day {db : Db} {userId : ℕ} {t now : ℤ}
    (hstart : startOfUtcDay t ≤ now) (hend : now < startOfUtcDay t + 86400000) :
    sumDailyGrantedHash db userId t = sumDailyGrantedHash db userId now := by
  have hday : startOfUtcDay t = startOfUtcDay now := by
    unfold startOfUtcDay at *
    omega
  rw [sumDailyGrantedHash, hday, sumDailyGrantedHash]

/-- What a claim that finds its session unchanged knows. -/
structure Granting (db : Db) (claim : Claim) (seen : Seen) (s : Session) : Prop where
  row : db.sessions.row seen.sessionId = some s
  userId : s.userId = claim.userId
  active : s.isActive = true
  next : s.nextClaimAt = seen.nextClaimAt
  due : seen.nextClaimAt - skewMs ≤ claim.now
  day : sumDailyGrantedHash db claim.userId claim.now + hashRateForMode claim.mode
    ≤ DAILY_LIMIT_HASH
  impression : ∀ k ∈ claim.impressionId, ∃ r, db.impressions.row k = some r
    ∧ r.sessionId = seen.sessionId ∧ r.grantId = none

theorem Remembers.granting {db : Db} {claim : Claim} {seen : Seen}
    (h : Remembers db (.bump claim seen))
    (hcur : (db.sessions.row seen.sessionId).any (unchanged seen) = true) :
    ∃ s, Granting db claim seen s := by
  obtain ⟨⟨s, hs, hu, -⟩, himp, hdue, hday⟩ := h
  rw [hs, Option.any_some] at hcur
  have hcurrent : Current db seen := ⟨s, hs, hcur⟩
  simp only [unchanged, Bool.and_eq_true, decide_eq_true_eq] at hcur
  refine ⟨s, hs, hu, hcur.2, hcur.1, of_decide_eq_true hdue, hday hcurrent, fun k hk => ?_⟩
  obtain ⟨r, hr, hsession, hopen⟩ := himp k hk
  exact ⟨r, hr, hsession, hopen hcurrent⟩

section Grant

variable {db : Db} (hdb : Limited db) {claim : Claim} {seen : Seen} {s₀ : Session}
  (h : Granting db claim seen s₀)

/-- The sessions after the grant. -/
theorem grant_session {i : ℕ} {s' : Session}
    (hs' : (grant db claim seen).sessions.row i = some s') :
    ∃ s, db.sessions.row i = some s ∧ s'.userId = s.userId ∧ s'.isActive = s.isActive
      ∧ (i ≠ seen.sessionId → s' = s)
      ∧ (i = seen.sessionId → s'.nextClaimAt = nextClaimAfterSuccess claim.now) := by
  rcases Table.modify_row_eq_some.mp hs' with ⟨hi, s, hs, rfl⟩ | ⟨hi, hs⟩
  · exact ⟨s, hs, rfl, rfl, fun hne => absurd hi hne, fun _ => rfl⟩
  · exact ⟨s', hs, rfl, rfl, fun _ => rfl, fun heq => absurd heq hi⟩

include h in
/-- The claimed impression is open before the grant, and the others stay. -/
theorem grant_impression {k : ℕ} {r : BannerImpression} (hr : db.impressions.row k = some r) :
    ∃ r', (grant db claim seen).impressions.row k = some r' ∧ r'.sessionId = r.sessionId
      ∧ (k ∉ claim.impressionId → r'.grantId = r.grantId)
      ∧ (k ∈ claim.impressionId → r.grantId = none ∧ r.sessionId = seen.sessionId
        ∧ r'.grantId = some db.grants.nextId) := by
  cases hclaim : claim.impressionId with
  | none =>
      have hsame : (grant db claim seen).impressions = db.impressions := by
        unfold grant
        rw [hclaim]
      exact ⟨r, by rw [hsame, hr], rfl, fun _ => rfl, fun hk => by cases hk⟩
  | some k₀ =>
      have hrow : (grant db claim seen).impressions.row k
          = if k = k₀ then (db.impressions.row k).map fun r =>
              { r with grantId := some db.grants.nextId }
            else db.impressions.row k := by
        unfold grant
        rw [hclaim]
        exact Table.modify_row ..
      by_cases hk : k = k₀
      · subst hk
        rw [if_pos rfl, hr, Option.map_some] at hrow
        obtain ⟨x, hx, hsession, hopen⟩ := h.impression k hclaim
        obtain rfl := Option.some.inj (hx.symm.trans hr)
        exact ⟨_, hrow, rfl, fun hk => absurd rfl hk, fun _ => ⟨hopen, hsession, rfl⟩⟩
      · rw [if_neg hk, hr] at hrow
        exact ⟨r, hrow, rfl, fun _ => rfl, fun hmem => absurd (Option.some.inj hmem).symm hk⟩

include h in
theorem grant_next_lt : seen.nextClaimAt < nextClaimAfterSuccess claim.now := by
  have hdue := h.due
  unfold skewMs at hdue
  unfold nextClaimAfterSuccess CYCLE_SECONDS
  omega

include hdb h in
/-- Another session that is active belongs to another user. -/
theorem grant_other {i : ℕ} {s : Session} (hs : db.sessions.row i = some s)
    (hactive : s.isActive = true) (hi : i ≠ seen.sessionId) : claim.userId ≠ s.userId := by
  intro hu
  exact hi (hdb.oneActive i _ s s₀ hs h.row hactive h.active (hu.symm.trans h.userId.symm))

include hdb h in
/-- An active session that the grant leaves unchanged is one of another user. -/
theorem grant_elsewhere {i : ℕ} {s s' : Session} (hs : db.sessions.row i = some s)
    (hs' : (grant db claim seen).sessions.row i = some s') (hactive : s'.isActive = true)
    (hnext : s'.nextClaimAt = s.nextClaimAt) :
    i ≠ seen.sessionId ∧ claim.userId ≠ s.userId := by
  obtain ⟨x, hx, -, hxactive, -, hbumped⟩ := grant_session hs'
  obtain rfl := Option.some.inj (hx.symm.trans hs)
  have hi : i ≠ seen.sessionId := by
    rintro rfl
    obtain rfl := Option.some.inj (hs.symm.trans h.row)
    exact absurd ((hbumped rfl).symm.trans (hnext.trans h.next)) (grant_next_lt h).ne'
  exact ⟨hi, grant_other hdb h hs (hxactive ▸ hactive) hi⟩

include hdb h in
theorem grant_later : Later db (grant db claim seen) where
  session i s hs := by
    by_cases hi : i = seen.sessionId
    · subst hi
      obtain rfl := Option.some.inj (hs.symm.trans h.row)
      have hrow : (grant db claim seen).sessions.row seen.sessionId = _ := Table.modify_row ..
      rw [if_pos rfl, hs, Option.map_some] at hrow
      exact ⟨_, hrow, rfl, h.next.le.trans (grant_next_lt h).le, id⟩
    · have hrow : (grant db claim seen).sessions.row i = _ := Table.modify_row ..
      rw [if_neg hi, hs] at hrow
      exact ⟨s, hrow, rfl, le_refl _, id⟩
  impression k r hr := by
    obtain ⟨r', hr', hsession, -⟩ := grant_impression h hr
    exact ⟨r', hr', hsession⟩
  day i s s' hs hs' hactive hnext t := by
    have hu := (grant_elsewhere hdb h hs hs' hactive hnext).2
    rw [sumDailyGrantedHash_grant, if_neg fun hcond => hu hcond.1, add_zero]
  unclaimed i s s' hs hs' hactive hnext k r r' hr hr' hsession := by
    have hi := (grant_elsewhere hdb h hs hs' hactive hnext).1
    obtain ⟨y, hy, -, hsame, hclaimed⟩ := grant_impression h hr
    obtain rfl := Option.some.inj (hy.symm.trans hr')
    exact hsame fun hk => hi (hsession.symm.trans (hclaimed hk).2.1)

/-- The new row among the grants. -/
theorem grant_grants {j : ℕ} {g : PowerGrant}
    (hg : (grant db claim seen).grants.row j = some g) :
    (j = db.grants.nextId ∧ g.userId = claim.userId ∧ g.earnedAt = claim.now
        ∧ g.impressionId = claim.impressionId)
      ∨ db.grants.row j = some g := by
  rcases Table.insert_row_eq_some.mp hg with ⟨hj, rfl⟩ | hold
  · exact Or.inl ⟨hj, rfl, rfl, rfl⟩
  · exact Or.inr hold

include hdb h in
/-- Every earlier grant of the user is a cycle behind, but for the skew. -/
theorem grant_spaced {j : ℕ} {g : PowerGrant} (hg : db.grants.row j = some g)
    (hu : g.userId = claim.userId) :
    CYCLE_SECONDS * 1000 - skewMs ≤ claim.now - g.earnedAt := by
  have hahead := hdb.ahead _ s₀ j g h.row h.active hg (hu.trans h.userId.symm)
  have hnext := h.next
  have hdue := h.due
  omega

include hdb h in
/-- No earlier grant was made with the impression of the claim. -/
theorem grant_unclaimed {j k : ℕ} {g : PowerGrant} (hg : db.grants.row j = some g)
    (hk : g.impressionId = some k) : k ∉ claim.impressionId := by
  intro hmem
  obtain ⟨r, hr, hgrant⟩ := hdb.claimed j g k hg hk
  obtain ⟨x, hx, -, hopen⟩ := h.impression k hmem
  obtain rfl := Option.some.inj (hx.symm.trans hr)
  rw [hopen] at hgrant
  cases hgrant

include hdb h in
theorem grant_limited : Limited (grant db claim seen) where
  oneActive i j s s' hs hs' ha ha' hu := by
    obtain ⟨x, hx, hxu, hxa, -, -⟩ := grant_session hs
    obtain ⟨y, hy, hyu, hya, -, -⟩ := grant_session hs'
    exact hdb.oneActive i j x y hx hy (hxa ▸ ha) (hya ▸ ha') (hxu.symm.trans (hu.trans hyu))
  spaced i j g g' hg hg' hu hij := by
    rcases grant_grants hg with ⟨hi, hgu, hge, -⟩ | hold
    · rcases grant_grants hg' with ⟨hj, -⟩ | hold'
      · exact absurd (hi.trans hj.symm) hij
      · rw [hge]
        exact (grant_spaced hdb h hold' (hu.symm.trans hgu)).trans (le_abs_self _)
    · rcases grant_grants hg' with ⟨-, hgu', hge', -⟩ | hold'
      · rw [hge', abs_sub_comm]
        exact (grant_spaced hdb h hold (hu.trans hgu')).trans (le_abs_self _)
      · exact hdb.spaced i j g g' hold hold' hu hij
  daily userId t := by
    rw [sumDailyGrantedHash_grant]
    split
    case isTrue hcond =>
      obtain ⟨rfl, hstart, hend⟩ := hcond
      rw [sumDailyGrantedHash_day hstart hend]
      exact h.day
    case isFalse =>
      rw [add_zero]
      exact hdb.daily userId t
  backed i j g g' k hg hg' hk hk' := by
    rcases grant_grants hg with ⟨hi, -, -, hgk⟩ | hold
    · rcases grant_grants hg' with ⟨hj, -⟩ | hold'
      · rw [hi, hj]
      · exact absurd (hgk.symm.trans hk) (grant_unclaimed hdb h hold' hk')
    · rcases grant_grants hg' with ⟨-, -, -, hgk'⟩ | hold'
      · exact absurd (hgk'.symm.trans hk') (grant_unclaimed hdb h hold hk)
      · exact hdb.backed i j g g' k hold hold' hk hk'
  ahead i s j g hs ha hg hu := by
    obtain ⟨x, hx, hxu, hxa, hsame, hbumped⟩ := grant_session hs
    by_cases hi : i = seen.sessionId
    · rw [hbumped hi]
      subst hi
      obtain rfl := Option.some.inj (hx.symm.trans h.row)
      have hclaimUser := hu.trans (hxu.trans h.userId)
      unfold nextClaimAfterSuccess
      rcases grant_grants hg with ⟨-, -, hge, -⟩ | hold
      · rw [hge]
      · have hspaced := grant_spaced hdb h hold hclaimUser
        unfold CYCLE_SECONDS skewMs at hspaced
        omega
    · obtain rfl := hsame hi
      have hother := grant_other hdb h hx ha hi
      rcases grant_grants hg with ⟨-, hgu, -, -⟩ | hold
      · exact absurd (hgu.symm.trans hu) hother
      · exact hdb.ahead i s j g hx ha hold hu
  claimed j g k hg hk := by
    rcases grant_grants hg with ⟨hj, -, -, hgk⟩ | hold
    · have hmem : k ∈ claim.impressionId := hgk.symm.trans hk
      obtain ⟨r, hr, -, -⟩ := h.impression k hmem
      obtain ⟨r', hr', -, -, hclaimed⟩ := grant_impression h hr
      exact ⟨r', hr', (hclaimed hmem).2.2.trans (congrArg some hj.symm)⟩
    · obtain ⟨r, hr, hgrant⟩ := hdb.claimed j g k hold hk
      obtain ⟨r', hr', -, hsame, -⟩ := grant_impression h hr
      exact ⟨r', hr', (hsame (grant_unclaimed hdb h hold hk)).trans hgrant⟩

end Grant

/-! ## Steps -/

theorem write_limited {db db' : Db} {c : Call} {answer : Answer} (h : Limited db)
    (hc : Remembers db c) (halone : StartsAlone db c answer)
    (hwrite : write db c answer = some db') : Limited db' ∧ Later db db' := by
  cases answer with
  | ok =>
      cases c with
      | create userId mode now ids =>
          obtain rfl := Option.some.inj hwrite
          exact ⟨h.createSession halone, createSession_later ..⟩
      | stop userId =>
          obtain rfl := Option.some.inj hwrite
          exact ⟨h.stopSession userId, stopSession_later ..⟩
      | bump claim seen =>
          obtain rfl := Option.some.inj hwrite
          unfold bumpSession
          split
          case isTrue hcur =>
            obtain ⟨s, hs⟩ := hc.granting hcur
            exact ⟨grant_limited h hs, grant_later h hs⟩
          case isFalse => exact ⟨h, .sessions_same rfl rfl (.rfl' rfl)⟩
      | clickUpdate impressionId now =>
          obtain rfl := Option.some.inj hwrite
          have himp := sameImpressions_click db impressionId now
          exact ⟨h.sessions_same rfl rfl himp, .sessions_same rfl rfl himp⟩
      | _ => cases hwrite
  | picked banner createdAt =>
      cases c with
      | bannerCreate userId seen =>
          obtain rfl := Option.some.inj hwrite
          have himp := sameImpressions_create db userId seen banner createdAt
          exact ⟨h.sessions_same rfl rfl himp, .sessions_same rfl rfl himp⟩
      | _ => cases hwrite
  | row | error => cases c <;> cases hwrite

theorem checkSession_eq_ok {db : Db} {claim : Claim} {found : Option ℕ} {mode : MiningMode}
    {seen : Seen} (hfound : findsSession db claim.userId found = true)
    (h : checkSession db found mode = .ok seen) : SawSession db claim seen := by
  unfold checkSession at h
  cases found with
  | none => cases h
  | some id =>
      cases hrow : db.sessions.row id with
      | none =>
          rw [Option.bind_some, hrow] at h
          cases h
      | some s =>
          rw [Option.bind_some, hrow, Option.map_some] at h
          simp only at h
          split at h
          case isTrue => cases h
          case isFalse =>
            obtain rfl := Except.ok.inj h
            simp only [findsSession, hrow, Option.any_some, isActiveOf, Bool.and_eq_true,
              decide_eq_true_eq] at hfound
            exact ⟨s, hrow, hfound.1, le_refl _⟩

theorem readSession_remembers {db : Db} {claim : Claim} {found : Option ℕ} {c : Call}
    (hfound : findsSession db claim.userId found = true)
    (h : readSession db claim found = .ok c) : Remembers db c := by
  unfold readSession at h
  cases hcheck : checkSession db found claim.mode with
  | error =>
      rw [hcheck] at h
      cases h
  | ok seen =>
      rw [hcheck] at h
      have hsaw := checkSession_eq_ok hfound hcheck
      cases himp : claim.impressionId with
      | none =>
          simp only [himp] at h
          obtain ⟨hdue, rfl⟩ := ite_ok_eq_ok.mp h
          exact ⟨hsaw, fun k hk => by simp [himp] at hk, hdue⟩
      | some k =>
          simp only [himp] at h
          obtain rfl := Except.ok.inj h
          exact ⟨hsaw, himp⟩

theorem readImpression_remembers {db : Db} {claim : Claim} {seen : Seen} {k : ℕ} {c : Call}
    (hc : Remembers db (.impression claim seen k)) (h : readImpression db claim seen k = .ok c) :
    Remembers db c := by
  unfold readImpression at h
  split at h
  case h_1 => cases h
  case h_2 r hfilter =>
    obtain ⟨hr, hmatch⟩ := Option.filter_eq_some_iff.mp hfilter
    simp only [Bool.and_eq_true, decide_eq_true_eq] at hmatch
    cases hvalid : validateImpressionForTurboClaim r claim.now with
    | error =>
        rw [hvalid] at h
        cases h
    | ok =>
        rw [hvalid] at h
        obtain ⟨hdue, rfl⟩ := ite_ok_eq_ok.mp h
        refine ⟨hc.1, fun k' hk' => ?_, hdue⟩
        obtain rfl := Option.some.inj (hc.2.symm.trans hk')
        refine ⟨r, hr, hmatch.2, fun _ => ?_⟩
        unfold validateImpressionForTurboClaim at hvalid
        cases hclick : r.clickedAt with
        | none =>
            rw [hclick] at hvalid
            cases hvalid
        | some clickedAt =>
            rw [hclick] at hvalid
            by_contra hgrant
            simp [Option.isSome_iff_ne_none.mpr hgrant] at hvalid

theorem daily_remembers {db : Db} {claim : Claim} {seen : Seen} {c : Call}
    (hc : Remembers db (.daily claim seen))
    (h : checkDaily db claim.userId claim.now claim.mode (.bump claim seen) = .ok c) :
    Remembers db c := by
  obtain ⟨hday, rfl⟩ := ite_ok_eq_ok.mp h
  obtain ⟨hsaw, himp, hdue⟩ := hc
  exact ⟨hsaw, himp, hdue, fun _ => of_decide_eq_true hday⟩

/-- The banner requests have nothing to remember. -/
theorem bannerSession_remembers {db : Db} {userId : ℕ} {now : ℤ} {found : Option ℕ} {c : Call}
    (h : (do
      let seen ← checkSession db found .TURBO
      (checkDue seen now (.bannerDaily userId now seen)).map some) = .ok (some c)) :
    Remembers db c := by
  cases hcheck : checkSession db found .TURBO with
  | error =>
      rw [hcheck] at h
      cases h
  | ok seen =>
      rw [hcheck] at h
      obtain ⟨-, rfl⟩ := ite_ok_eq_ok.mp (map_some_eq_ok h)
      trivial

theorem readClick_remembers {db : Db} {userId impressionId : ℕ} {now : ℤ} {c : Call}
    (h : readClick db userId impressionId now = .ok (some c)) : Remembers db c := by
  unfold readClick at h
  split at h
  · cases h
  · split_ifs at h
    · cases Except.ok.inj h
    · obtain rfl := Option.some.inj (Except.ok.inj h)
      trivial

theorem query_remembers {db : Db} {c c' : Call} {answer : Answer}
    (hc : Remembers db c) (h : query db c answer = some (.ok (some c'))) : Remembers db c' := by
  cases answer with
  | ok =>
      cases c with
      | deactivate userId mode now =>
          cases h
          trivial
      | impression claim seen k =>
          exact readImpression_remembers hc (map_some_eq_ok (Option.some.inj h))
      | daily claim seen => exact daily_remembers hc (map_some_eq_ok (Option.some.inj h))
      | bannerDaily userId now seen =>
          obtain ⟨-, rfl⟩ := ite_ok_eq_ok.mp (map_some_eq_ok (Option.some.inj h))
          trivial
      | clickRead userId impressionId now => exact readClick_remembers (Option.some.inj h)
      | _ => cases h
  | row found =>
      cases c with
      | session claim =>
          obtain ⟨hfound, h⟩ := Option.ite_none_right_eq_some.mp h
          exact readSession_remembers hfound (map_some_eq_ok (Option.some.inj h))
      | bannerSession userId now =>
          obtain ⟨-, h⟩ := Option.ite_none_right_eq_some.mp h
          exact bannerSession_remembers (Option.some.inj h)
      | bannerExisting userId now seen =>
          obtain ⟨-, h⟩ := Option.ite_none_right_eq_some.mp h
          have hnext := Except.ok.inj (Option.some.inj h)
          split at hnext
          · cases hnext
          · obtain rfl := Option.some.inj hnext
            trivial
      | _ => cases h
  | picked | error => cases c <;> cases h

theorem start_remembers {db db' : Db} {request : Request} {calls : List Call}
    (h : start db request = some (db', calls)) : db' = db ∧ ∀ c ∈ calls, Remembers db c := by
  cases request with
  | startSession userId mode now =>
      obtain ⟨rfl, rfl⟩ := Prod.mk.inj (Option.some.inj h)
      refine ⟨rfl, fun c hc => ?_⟩
      obtain ⟨m, -, rfl⟩ := Option.map_eq_some_iff.mp (Option.mem_toList.mp hc)
      trivial
  | _ =>
      obtain ⟨rfl, rfl⟩ := Prod.mk.inj (Option.some.inj h)
      refine ⟨rfl, fun c hc => ?_⟩
      obtain rfl := List.mem_singleton.mp hc
      trivial

/-- A step writes and ends, or reads and goes on, or gives up. -/
theorem resume_cases {db db' : Db} {c : Call} {answer : Answer} {next : Option Call}
    (h : resume db c answer = some (db', next)) :
    (write db c answer = some db' ∧ next = none)
      ∨ (db' = db ∧ ∀ c' ∈ next, query db c answer = some (.ok (some c'))) := by
  unfold resume at h
  split at h
  case h_1 =>
    obtain ⟨rfl, rfl⟩ := Prod.mk.inj (Option.some.inj h)
    exact Or.inr ⟨rfl, fun _ hc' => by cases hc'⟩
  case h_2 =>
    split at h
    case h_1 db₁ hwrite =>
      obtain ⟨rfl, rfl⟩ := Prod.mk.inj (Option.some.inj h)
      exact Or.inl ⟨hwrite, rfl⟩
    case h_2 =>
      obtain ⟨out, hquery, heq⟩ := Option.map_eq_some_iff.mp h
      obtain ⟨rfl, rfl⟩ := Prod.mk.inj heq
      refine Or.inr ⟨rfl, fun c' hc' => ?_⟩
      rw [hquery]
      cases out with
      | error => cases hc'
      | ok o =>
          have ho : o = some c' := hc'
          rw [ho]

/-- Nobody has mined yet. -/
def fresh : InFlight Db Call := ⟨⟨.empty, .empty, .empty⟩, .empty⟩

theorem fresh_limited : Limited fresh.db where
  oneActive _ _ _ _ h := by cases h
  spaced _ _ _ _ h := by cases h
  daily userId t := by
    have hzero : sumDailyGrantedHash fresh.db userId t = 0 :=
      Table.sum_eq_zero fun _ _ h => by cases h
    rw [hzero]
    decide
  backed _ _ _ _ _ h := by cases h
  ahead _ _ _ _ h := by cases h
  claimed _ _ _ h := by cases h

/-- **Auto mining limits.** In a run in which every session is created alone,
the four limits hold. -/
theorem autoMining_limited {events : List (Event Request Answer)} {s : InFlight Db Call}
    (halone : service.sys.Meets (Service.Guard StartsAlone) fresh events)
    (hrun : service.sys.run fresh events = some s) : WithinLimits s.db := by
  refine (service.invariant (I := Limited) (J := Remembers) ?_ ?_
    ⟨fresh_limited, fun _ _ hc => by cases hc⟩ halone hrun).1.toWithinLimits
  · intro db r db' cs hdb h
    obtain ⟨rfl, hcs⟩ := start_remembers h
    exact ⟨hdb, fun _ hd => hd, hcs⟩
  · intro db c a db' next hdb hc hC h
    rcases resume_cases h with ⟨hwrite, rfl⟩ | ⟨rfl, hnext⟩
    · obtain ⟨hdb', hlater⟩ := write_limited hdb hc hC hwrite
      exact ⟨hdb', fun _ hd => hd.later hlater, fun _ hc' => by cases hc'⟩
    · exact ⟨hdb, fun _ hd => hd, fun c' hc' => query_remembers hc (hnext c' hc')⟩

/-- Two claims, a restart in the turbo mode and a turbo claim. -/
def minedInTurn : List (Event Request Answer) :=
  [.start (.startSession 1 "NORMAL" 0), .resume 1 .ok, .resume 1 .ok,
    .start (.claimNormal 1 55000), .start (.claimNormal 1 56000),
    .resume 2 (.row (some 1)), .resume 3 (.row (some 1)), .resume 2 .ok, .resume 3 .ok,
    .resume 3 .ok, .resume 2 .ok,
    .start (.startSession 1 "TURBO" 60000), .resume 4 .ok, .resume 4 .ok,
    .start (.getOrCreateBannerImpression 1 115000), .resume 5 (.row (some 2)), .resume 5 .ok,
    .resume 5 (.row none), .resume 5 (.picked ⟨"fallback", "/", "Partner", none⟩ 115000),
    .start (.registerBannerClick 1 1 115400), .resume 6 .ok, .resume 6 .ok,
    .start (.claimTurbo 1 1 116000), .resume 7 (.row (some 2)), .resume 7 .ok, .resume 7 .ok,
    .resume 7 .ok]

theorem autoMining_limited_inTurn :
    ∃ s, service.sys.run fresh minedInTurn = some s
      ∧ s.db.grants.rows.map (fun x => (x.2.earnedAt, x.2.hashRate, x.2.impressionId))
        = [(56000, 10, none), (116000, 20, some 1)]
      ∧ WithinLimits s.db := by
  have hrun : (service.sys.run fresh minedInTurn).isSome := by decide +kernel
  exact ⟨_, (Option.some_get hrun).symm, by decide +kernel +revert,
    autoMining_limited (by decide +kernel) (Option.some_get hrun).symm⟩

/-- Two starts that overlap, and a claim on each session. -/
def startedAtOnce : List (Event Request Answer) :=
  [.start (.startSession 1 "NORMAL" 0), .start (.startSession 1 "NORMAL" 0), .resume 1 .ok,
    .resume 2 .ok, .resume 1 .ok, .resume 2 .ok,
    .start (.claimNormal 1 55000), .start (.claimNormal 1 55000), .resume 3 (.row (some 1)),
    .resume 4 (.row (some 2)), .resume 3 .ok, .resume 4 .ok, .resume 3 .ok, .resume 4 .ok]

theorem autoMining_twoSessions :
    ∃ s, service.sys.run fresh startedAtOnce = some s
      ∧ s.db.sessions.rows.map (fun x => (x.1, x.2.userId, x.2.isActive))
        = [(1, 1, true), (2, 1, true)]
      ∧ s.db.grants.rows.map (fun x => (x.2.userId, x.2.earnedAt)) = [(1, 55000), (1, 55000)]
      ∧ ¬ WithinLimits s.db := by
  have hrun : (service.sys.run fresh startedAtOnce).isSome := by decide +kernel
  have hfirst : ((service.sys.run fresh startedAtOnce).get hrun).db.sessions.row 1
      = some ⟨1, .NORMAL, 115000, true⟩ := by decide +kernel +revert
  have hsecond : ((service.sys.run fresh startedAtOnce).get hrun).db.sessions.row 2
      = some ⟨1, .NORMAL, 115000, true⟩ := by decide +kernel +revert
  refine ⟨_, (Option.some_get hrun).symm, by decide +kernel +revert, by decide +kernel +revert,
    fun h => ?_⟩
  cases h.oneActive 1 2 _ _ hfirst hsecond rfl rfl rfl

end BlockMiner.AutoMining
