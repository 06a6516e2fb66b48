import BlockMiner.WatchTime
import Mathlib.Algebra.Order.BigOperators.Group.Finset

/-!
# Watch time backs every reward

Each write moves the balance by what it is worth, so the balance is always
ten seconds for each accepted heartbeat less sixty for each granted claim
(`Counted`). That it does not go negative, the spacing of the heartbeats and
the limit of a rolling day are checked on rows that another request of the
user may change before the write, so they hold in the runs in which a request
that writes finds its checks standing (`ChecksStand`). `Sound` carries them:
the last heartbeat of a user is the latest one, and all rows of the history
have the same rate.
-/

namespace BlockMiner.WatchTime

/-! ## What is to hold -/

/-- A heartbeat of user `i` that counts for videos. -/
def countsFor (i : ℕ) (beat : Heartbeat) : Bool := beat.userId = i && beat.type = .youtube

def youtubeHeartbeats (db : Db) (i : ℕ) : ℕ := db.heartbeats.countP (countsFor i)

def grantedClaims (db : Db) (i : ℕ) : ℤ := db.history.sum fun _ c => if c.userId = i then 1 else 0

/-- The hash rate granted in the day up to `t`. -/
def windowHash (db : Db) (userId : ℕ) (t : ℤ) : ℤ :=
  db.history.sum fun _ c =>
    if c.userId = userId ∧ t - DAY_MS < c.createdAt ∧ c.createdAt ≤ t then c.hashRate else 0

/-- The balance is accounted for. -/
def Counted (db : Db) : Prop :=
  ∀ i user, db.users.row i = some user →
    user.ytSecondsBalance = 10 * youtubeHeartbeats db i - 60 * grantedClaims db i

structure Backed (db : Db) : Prop where
  counted : Counted db
  nonneg : ∀ i user, db.users.row i = some user → 0 ≤ user.ytSecondsBalance
  spaced : db.heartbeats.Pairwise fun beat beat' =>
    beat.userId = beat'.userId → 8000 ≤ |beat.sentAt - beat'.sentAt|
  limited : ∀ userId t, windowHash db userId t ≤ DAILY_LIMIT_HASH

/-- The checks of a request that writes still pass. -/
def ChecksStand (db : Db) : Call → Answer → Prop
  | .heartbeat beat, .ok _ => ∀ user ∈ db.users.row beat.userId, tooFast user beat.sentAt = false
  | .grant claim _ _, .committed createdAt _ =>
      enoughWatched db claim.userId = true ∧ dailyLimitReached db claim.userId createdAt = false
  | _, _ => True

instance (db : Db) (c : Call) (a : Answer) : Decidable (ChecksStand db c a) := by
  unfold ChecksStand
  split <;> infer_instance

/-! ## The users -/

theorem beat_balance (beat : Heartbeat) (user : User) :
    (user.beat beat).ytSecondsBalance
      = user.ytSecondsBalance + if beat.type = .youtube then 10 else 0 := by
  unfold User.beat
  cases beat.type <;> simp

theorem beat_last (beat : Heartbeat) (user : User) :
    (user.beat beat).lastHeartbeatAt = some beat.sentAt := by
  unfold User.beat
  cases beat.type <;> rfl

@[simp] theorem charge_balance (user : User) :
    user.charge.ytSecondsBalance = user.ytSecondsBalance - 60 := rfl

@[simp] theorem charge_last (user : User) : user.charge.lastHeartbeatAt = user.lastHeartbeatAt :=
  rfl

/-! ## Every write is accounted for -/

theorem Counted.heartbeat {db : Db} (h : Counted db) (beat : Heartbeat) :
    Counted (acceptHeartbeat db beat) := by
  unfold acceptHeartbeat
  split
  case isFalse => exact h
  case isTrue =>
    intro i user hrow
    have hgrants : grantedClaims { db with
        users := db.users.modify beat.userId (User.beat beat)
        heartbeats := beat :: db.heartbeats } i = grantedClaims db i := rfl
    rw [hgrants, youtubeHeartbeats, List.countP_cons]
    rcases Table.modify_row_eq_some.mp hrow with ⟨rfl, old, hold, rfl⟩ | ⟨hne, hold⟩
    · have hbal := h _ old hold
      rw [beat_balance, hbal, youtubeHeartbeats]
      by_cases hyt : beat.type = .youtube
      · simp only [countsFor, hyt, decide_true, Bool.and_self, if_true]
        omega
      · simp [countsFor, hyt]
    · have hbal := h i user hold
      rw [if_neg (by simp [countsFor, Ne.symm hne])]
      exact hbal

theorem Counted.grant {db : Db} (h : Counted db) (claim : Claim) (expiresAt createdAt : ℤ) :
    Counted (grantReward db claim expiresAt createdAt) := by
  unfold grantReward
  split
  case isFalse => exact h
  case isTrue =>
    intro i user hrow
    rw [grantedClaims, Table.sum_insert]
    rcases Table.modify_row_eq_some.mp hrow with ⟨rfl, old, hold, rfl⟩ | ⟨hne, hold⟩
    · have hbal := h _ old hold
      simp only [grantedClaims, youtubeHeartbeats] at hbal
      simp only [charge_balance, youtubeHeartbeats, if_true]
      omega
    · have hbal := h i user hold
      simp only [grantedClaims] at hbal
      rw [if_neg (Ne.symm hne), add_zero]
      exact hbal

/-! ## The invariant -/

structure Sound (db : Db) : Prop extends Backed db where
  latest : ∀ beat ∈ db.heartbeats, ∃ user last, db.users.row beat.userId = some user
    ∧ user.lastHeartbeatAt = some last ∧ beat.sentAt ≤ last
  rates : ∀ i c, db.history.row i = some c → c.hashRate = REWARD_PER_CLAIM

/-- The clock is not part of it. -/
theorem Sound.tick {db : Db} (h : Sound db) (now : ℤ) : Sound { db with clock := now } :=
  { counted := h.counted, nonneg := h.nonneg, spaced := h.spaced, limited := h.limited
    latest := h.latest, rates := h.rates }

/-- A heartbeat that is not too fast is ahead of all others of its user. -/
theorem Sound.ahead {db : Db} (h : Sound db) {beat : Heartbeat}
    (hstand : ∀ user ∈ db.users.row beat.userId, tooFast user beat.sentAt = false)
    {old : Heartbeat} (hold : old ∈ db.heartbeats) (hu : old.userId = beat.userId) :
    old.sentAt + 8000 ≤ beat.sentAt := by
  obtain ⟨user, last, hrow, hlast, hle⟩ := h.latest old hold
  rw [hu] at hrow
  have hslow := hstand user hrow
  simp only [tooFast, hlast, Option.any_some, decide_eq_false_iff_not] at hslow
  omega

theorem Sound.heartbeat {db : Db} (h : Sound db) {beat : Heartbeat}
    (hstand : ∀ user ∈ db.users.row beat.userId, tooFast user beat.sentAt = false) :
    Sound (acceptHeartbeat db beat) := by
  have hcounted := h.counted.heartbeat beat
  unfold acceptHeartbeat at hcounted ⊢
  by_cases hsome : (db.users.row beat.userId).isSome = true
  · rw [if_pos hsome] at hcounted ⊢
    refine ⟨⟨hcounted, ?_, ?_, h.limited⟩, ?_, h.rates⟩
    · refine Table.forall_modify h.nonneg fun user hrow => ?_
      have hnonneg := h.nonneg _ user hrow
      rw [beat_balance]
      split <;> omega
    · refine List.pairwise_cons.mpr ⟨fun old hold hu => ?_, h.spaced⟩
      have hahead := h.ahead hstand hold hu.symm
      have habs := le_abs_self (beat.sentAt - old.sentAt)
      omega
    · intro old hmem
      obtain ⟨user, huser⟩ := Option.isSome_iff_exists.mp hsome
      have hnew : (db.users.modify beat.userId (User.beat beat)).row beat.userId
          = some (user.beat beat) := by
        rw [Table.modify_row, if_pos rfl, huser, Option.map_some]
      rcases List.mem_cons.mp hmem with rfl | hold
      · exact ⟨_, _, hnew, beat_last .., le_rfl⟩
      · by_cases hu : old.userId = beat.userId
        · have hahead := h.ahead hstand hold hu
          refine ⟨user.beat beat, beat.sentAt, ?_, beat_last .., by omega⟩
          rw [hu]
          exact hnew
        · obtain ⟨other, last, hrow, hlast⟩ := h.latest old hold
          exact ⟨other, last, (if_neg hu).trans hrow, hlast⟩
  · rw [if_neg hsome]
    exact h

/-- A day's window is within what the check of a claim adds up. -/
theorem window_le_daily {db : Db} (h : Sound db) (userId : ℕ) {t createdAt : ℤ}
    (ht : createdAt ≤ t) : windowHash db userId t ≤ currentDailyHash db userId createdAt := by
  unfold windowHash currentDailyHash
  refine Finset.sum_le_sum fun i _ => ?_
  cases hrow : db.history.row i with
  | none => exact le_rfl
  | some c =>
      have hrate := h.rates i c hrow
      simp only [Option.elim_some, hrate, REWARD_PER_CLAIM]
      split_ifs <;> omega

theorem Sound.grant {db : Db} (h : Sound db) {claim : Claim} {expiresAt createdAt : ℤ}
    (hwatched : enoughWatched db claim.userId = true)
    (hlimit : dailyLimitReached db claim.userId createdAt = false) :
    Sound (grantReward db claim expiresAt createdAt) := by
  have hcounted := h.counted.grant claim expiresAt createdAt
  unfold grantReward at hcounted ⊢
  by_cases hsome : (db.users.row claim.userId).isSome = true
  · rw [if_pos hsome] at hcounted ⊢
    refine ⟨⟨hcounted, ?_, h.spaced, ?_⟩, ?_, Table.forall_insert h.rates rfl⟩
    · refine Table.forall_modify h.nonneg fun user hrow => ?_
      simp only [enoughWatched, hrow, Option.any_some, decide_eq_true_eq] at hwatched
      rw [charge_balance]
      omega
    · intro user t
      simp only [windowHash, Table.sum_insert]
      have hbefore := h.limited user t
      simp only [windowHash] at hbefore
      split
      case isFalse => omega
      case isTrue hin =>
        obtain ⟨rfl, -, hle⟩ := hin
        have hdaily := window_le_daily h claim.userId hle
        simp only [dailyLimitReached, decide_eq_false_iff_not, not_lt] at hlimit
        simp only [windowHash] at hdaily
        omega
    · intro beat hmem
      obtain ⟨user, last, hrow, hlast, hle⟩ := h.latest beat hmem
      by_cases hu : beat.userId = claim.userId
      · refine ⟨user.charge, last, ?_, hlast, hle⟩
        rw [Table.modify_row, if_pos hu, hrow, Option.map_some]
      · exact ⟨user, last, (if_neg hu).trans hrow, hlast, hle⟩
  · rw [if_neg hsome]
    exact h

/-! ## Runs -/

theorem start_eq {db db' : Db} {r : Request} {cs : List Call} (h : start db r = some (db', cs)) :
    ∃ now, db' = { db with clock := now } := by
  cases r with
  | processHeartbeat userId type isBot fingerprint nowTs now =>
      obtain ⟨-, h⟩ := Option.ite_none_right_eq_some.mp h
      obtain ⟨rfl, -⟩ := Prod.mk.inj (Option.some.inj h)
      exact ⟨now, rfl⟩
  | claimReward userId videoId =>
      obtain ⟨rfl, -⟩ := Prod.mk.inj (Option.some.inj h)
      exact ⟨db.clock, rfl⟩

/-- A step writes, or only reads. -/
theorem resume_cases {env : Env} {db db' : Db} {c : Call} {a : Answer} {next : Option Call}
    (h : resume db env c a = some (db', next)) :
    ∃ now, db' = { (write c a).elim db (apply db) with clock := now } := by
  obtain ⟨now, -, heq⟩ := Option.map_eq_some_iff.mp h
  exact ⟨now, (Prod.mk.inj heq).1.symm⟩

theorem write_cases {c : Call} {a : Answer} {w : Write} (h : write c a = some w) :
    (∃ beat now, c = .heartbeat beat ∧ a = .ok now ∧ w = .heartbeat beat)
      ∨ ∃ claim expiresAt since createdAt now, c = .grant claim (some expiresAt) since
        ∧ a = .committed createdAt now ∧ w = .grant claim expiresAt createdAt := by
  unfold write at h
  split at h
  case h_1 beat now => exact Or.inl ⟨beat, now, rfl, rfl, (Option.some.inj h).symm⟩
  case h_2 claim expiresAt since createdAt now =>
    exact Or.inr ⟨claim, expiresAt, since, createdAt, now, rfl, rfl, (Option.some.inj h).symm⟩
  case h_3 => cases h

/-- Users who have not watched anything yet. -/
def newcomers (n : ℕ) : Table User :=
  (List.range n).foldl (fun users _ => users.insert ⟨0, 0, none⟩) .empty

def opening (users : Table User) (clock : ℤ) : InFlight Db Call :=
  ⟨⟨users, .empty, .empty, [], [], clock⟩, .empty⟩

/-- In every run at all, the balance is accounted for. -/
theorem watchTime_counted {env : Env} {users : Table User} {clock : ℤ}
    {events : List (Event Request Answer)} {s : InFlight Db Call}
    (husers : ∀ i user, users.row i = some user → user = ⟨0, 0, none⟩)
    (hrun : (service env).sys.run (opening users clock) events = some s) : Counted s.db := by
  refine (service env).db_invariant (C := fun _ _ _ => True) ?_ ?_ ?_
    ((service env).sys.meets_of_forall (fun _ e => ?_) _ _) hrun
  · intro db r db' cs hdb h
    obtain ⟨now, rfl⟩ := start_eq h
    exact hdb
  · intro db c a db' next hdb _ h
    obtain ⟨now, rfl⟩ := resume_cases h
    cases hw : write c a with
    | none => exact hdb
    | some w =>
        cases w with
        | heartbeat beat => exact hdb.heartbeat beat
        | grant claim expiresAt createdAt => exact hdb.grant claim expiresAt createdAt
  · intro i user hrow
    obtain rfl := husers i user hrow
    rfl
  · cases e with
    | start r => trivial
    | resume call a => exact fun _ _ => trivial

theorem opening_sound {users : Table User}
    (husers : ∀ i user, users.row i = some user → user = ⟨0, 0, none⟩) (clock : ℤ) :
    Sound (opening users clock).db where
  counted i user hrow := by
    obtain rfl := husers i user hrow
    rfl
  nonneg i user hrow := by
    obtain rfl := husers i user hrow
    exact le_rfl
  spaced := List.Pairwise.nil
  limited userId t := by
    have hzero : windowHash (opening users clock).db userId t = 0 :=
      Table.sum_eq_zero fun _ _ h => by cases h
    rw [hzero]
    decide
  latest beat hmem := by cases hmem
  rates i c h := by cases h

/-- **Watch time backs the rewards.** In a run in which every request that
writes finds its checks standing, for any users who begin with nothing. -/
theorem watchTime_backed {env : Env} {users : Table User} {clock : ℤ}
    {events : List (Event Request Answer)} {s : InFlight Db Call}
    (husers : ∀ i user, users.row i = some user → user = ⟨0, 0, none⟩)
    (hstand : (service env).sys.Meets (Service.Guard ChecksStand) (opening users clock) events)
    (hrun : (service env).sys.run (opening users clock) events = some s) : Backed s.db := by
  refine ((service env).db_invariant (I := Sound) ?_ ?_ (opening_sound husers clock) hstand
    hrun).toBacked
  · intro db r db' cs hdb h
    obtain ⟨now, rfl⟩ := start_eq h
    exact hdb.tick now
  · intro db c a db' next hdb hC h
    obtain ⟨now, rfl⟩ := resume_cases h
    refine Sound.tick ?_ now
    cases hw : write c a with
    | none => exact hdb
    | some w =>
        rcases write_cases hw with ⟨beat, now', rfl, rfl, rfl⟩
          | ⟨claim, expiresAt, since, createdAt, now', rfl, rfl, rfl⟩
        · exact hdb.heartbeat hC
        · exact hdb.grant hC.1 hC.2

/-- A YouTube heartbeat of user 1, alone, as the `call`-th request. -/
def watched (call : ℕ) (now : ℤ) : List (Event Request Answer) :=
  [.start (.processHeartbeat 1 "youtube" false (.ts (some now)) now now), .resume call (.ok now),
    .resume call (.ok now)]

/-- Six heartbeats and a claim. -/
def claimedOnce : List (Event Request Answer) :=
  watched 1 10000 ++ (watched 2 20000 ++ (watched 3 30000 ++ (watched 4 40000 ++ (watched 5 50000
    ++ (watched 6 60000 ++ [.start (.claimReward 1 "v"), .resume 7 (.ok 60001),
      .resume 7 (.ok 60002), .resume 7 (.committed 60003 60004)])))))

theorem newcomers_eq (n i : ℕ) (user : User) (h : (newcomers n).row i = some user) :
    user = ⟨0, 0, none⟩ := by
  obtain ⟨-, hrow⟩ := Table.foldl_insert_range (fun _ => (⟨0, 0, none⟩ : User)) .empty n
  have hrow' := hrow i
  rw [show (newcomers n).row i = _ from hrow'] at h
  split at h
  · exact (Option.some.inj h).symm
  · cases h

theorem watchTime_backed_once :
    ∃ s, (service ⟨some 24⟩).sys.run (opening (newcomers 1) 0) claimedOnce = some s
      ∧ s.db.heartbeats.length = 6 ∧ s.db.history.rows.map (·.2.hashRate) = [3] ∧ Backed s.db := by
  have hrun : ((service ⟨some 24⟩).sys.run (opening (newcomers 1) 0) claimedOnce).isSome := by
    decide +kernel
  exact ⟨_, (Option.some_get hrun).symm, by decide +kernel +revert, by decide +kernel +revert,
    watchTime_backed (newcomers_eq 1) (by decide +kernel) (Option.some_get hrun).symm⟩

/-- Two heartbeats at once, four more, and two claims at once. -/
def claimedTwice : List (Event Request Answer) :=
  [.start (.processHeartbeat 1 "youtube" false (.ts none) 10000 10000),
    .start (.processHeartbeat 1 "youtube" false (.ts none) 10000 10000), .resume 1 (.ok 10001),
    .resume 2 (.ok 10001), .resume 1 (.ok 10002), .resume 2 (.ok 10002)]
    ++ (watched 3 30000 ++ (watched 4 40000 ++ (watched 5 50000 ++ (watched 6 60000
    ++ [.start (.claimReward 1 "v"), .start (.claimReward 1 "v"),
      .resume 7 (.ok 60001), .resume 8 (.ok 60001), .resume 7 (.ok 60002), .resume 8 (.ok 60002),
      .resume 7 (.committed 60003 60004), .resume 8 (.committed 60003 60004)]))))

/-- Sixty seconds of watch time, ten of them counted twice, pay for both. -/
theorem watchTime_overdrawn :
    ∃ s, (service ⟨some 24⟩).sys.run (opening (newcomers 1) 0) claimedTwice = some s
      ∧ s.db.users.row 1 = some ⟨-60, 0, some 60000⟩
      ∧ s.db.heartbeats.map (·.sentAt) = [60000, 50000, 40000, 30000, 10000, 10000]
      ∧ s.db.history.rows.map (·.2.hashRate) = [3, 3] ∧ ¬ Backed s.db := by
  have hrun : ((service ⟨some 24⟩).sys.run (opening (newcomers 1) 0) claimedTwice).isSome := by
    decide +kernel
  have hneg : (((service ⟨some 24⟩).sys.run (opening (newcomers 1) 0) claimedTwice).get
      hrun).db.users.row 1 = some ⟨-60, 0, some 60000⟩ := by decide +kernel +revert
  exact ⟨_, (Option.some_get hrun).symm, hneg, by decide +kernel +revert,
    by decide +kernel +revert, fun h => absurd (h.nonneg 1 _ hneg) (by decide)⟩

end BlockMiner.WatchTime
