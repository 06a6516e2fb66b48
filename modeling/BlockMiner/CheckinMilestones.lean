import BlockMiner.CheckinStreak
import BlockMiner.TransactionRules
import Mathlib

/-!
# Rewards for streaks

`services/checkinMilestoneService.js`: `applyStreakMilestoneRewards`, with one
transaction for each milestone that the streak reaches, and the states that
`buildMilestoneStatusForUser` shows. A row of `user_checkin_streak_rewards` is
unique for its user and milestone; a unique violation, or any other error in
the transaction, ends it, and the call goes on with the next milestone.

The check-ins and the milestones are only read here: what a call finds in
these tables is the answer to its statement, and may be anything. `number` is
the double that an amount is read as, and its text is its exact value. The row
of the game that the hash rate is booked under, and the reload of the engine,
are left out.

`granted` is not a table. It records what each transaction paid.
-/

namespace BlockMiner.CheckinMilestones

open CheckinStreak IsoDate

/-! ## Tables -/

structure Milestone where
  id : ℕ
  dayThreshold : ℤ
  rewardType : String
  rewardValue : ℚ
  validityDays : ℤ
  displayTitle : Option String
  description : Option String
  active : Bool
  sortOrder : ℤ

structure StreakReward where
  userId : ℕ
  milestoneId : ℕ
  streakWhenClaimed : ℕ
  createdAt : TimeValue

structure PowerGame where
  userId : ℕ
  hashRate : ℚ
  playedAt : ℤ
  expiresAt : ℤ

structure Config where
  zone : SaoPaulo
  number : ℚ → ℚ

section Calls

variable (config : Config)

/-- A call that has counted the streak. -/
structure Caller where
  userId : ℕ
  checkins : List (CheckinRow config.zone)
  now : Instant
  streak : ℕ
  counted : computeCheckinStreak config.zone checkins userId now = some streak

/-- A milestone that the streak of a call has reached. -/
structure Grant extends Caller config where
  milestone : Milestone
  reached : milestone.dayThreshold ≤ streak

structure Db where
  rewards : List StreakReward
  polBalance : ℕ → ℚ
  powerGames : List PowerGame
  granted : List (Grant config)

end Calls

variable {config : Config}

/-! ## Rewards -/

/-- `m.rewardType || "none"`, in lower case. -/
def rewardType (m : Milestone) : String :=
  String.ofList (((if m.rewardType = "" then "none" else m.rewardType).toList).map Char.toLower)

namespace Grant

variable (g : Grant config)

/-- The unique key. -/
def key : ℕ × ℕ := (g.userId, g.milestone.id)

def value : ℚ := config.number g.milestone.rewardValue

def polAmount : ℚ := if rewardType g.milestone = "pol" ∧ 0 < g.value then g.value else 0

def row (createdAt : TimeValue) : StreakReward where
  userId := g.userId
  milestoneId := g.milestone.id
  streakWhenClaimed := g.streak
  createdAt := createdAt

def powerGame (playedAt : ℤ) : Option PowerGame :=
  if rewardType g.milestone = "hashrate" ∧ 0 < g.value then
    let validity := if g.milestone.validityDays = 0 then 7 else g.milestone.validityDays
    some
      { userId := g.userId
        hashRate := g.value
        playedAt := playedAt
        expiresAt := playedAt + max 1 validity * 24 * 60 * 60 * 1000 }
  else none

end Grant

/-! ## Statements -/

inductive Write (config : Config) where
  | createReward (g : Grant config) (createdAt : TimeValue)
  | pay (g : Grant config) (playedAt : ℤ)

inductive Lock where
  | reward (key : ℕ × ℕ)
  | user (u : ℕ)
deriving DecidableEq

def apply (db : Db config) : Write config → Db config
  | .createReward g createdAt => { db with rewards := g.row createdAt :: db.rewards }
  | .pay g playedAt =>
      { db with
        polBalance := Function.update db.polBalance g.userId
          (db.polBalance g.userId + g.polAmount)
        powerGames := (g.powerGame playedAt).toList ++ db.powerGames
        granted := g :: db.granted }

def locks : Write config → List Lock
  | .createReward g _ => [.reward g.key]
  | .pay g _ => if g.polAmount = 0 then [] else [.user g.userId]

/-- A request is the user of the call. -/
inductive Point (config : Config) where
  | readCheckins (userId : ℕ)
  | findMilestones (c : Caller config)
  | findClaimed (c : Caller config) (milestones : List Milestone)
  | createReward (g : Grant config) (claimed : List ℕ) (rest : List Milestone)
  | pay (g : Grant config) (claimed : List ℕ) (rest : List Milestone)
  | commit (g : Grant config) (claimed : List ℕ) (rest : List Milestone)

inductive Answer (config : Config) where
  | checkins (rows : List (CheckinRow config.zone)) (now : Instant)
  | milestones (rows : List Milestone)
  | ok (now : TimeValue)
  | error

def activeMilestones (rows : List Milestone) : List Milestone :=
  (rows.filter fun m => m.active).insertionSort fun m m' =>
    m.sortOrder < m'.sortOrder ∨ (m.sortOrder = m'.sortOrder ∧ m.dayThreshold ≤ m'.dayThreshold)

/-- The loop goes on with the next milestone that is reached and not claimed. -/
def nextGrant (c : Caller config) (claimed : List ℕ) : List Milestone → Option (Point config)
  | [] => none
  | m :: rest =>
      if h : m.dayThreshold ≤ c.streak then
        if m.id ∈ claimed then nextGrant c claimed rest
        else some (.createReward ⟨c, m, h⟩ claimed rest)
      else nextGrant c claimed rest

def claimedBy (db : Db config) (userId : ℕ) : List ℕ :=
  (db.rewards.filter fun r => r.userId = userId).map fun r => r.milestoneId

def needs : Point config → Answer config → List Lock
  | .createReward g _ _, .ok _ => [.reward g.key]
  | .pay g _ _, .ok _ => if g.polAmount = 0 then [] else [.user g.userId]
  | _, _ => []

def rewardKeys (db : Db config) : List (ℕ × ℕ) :=
  db.rewards.map fun r => (r.userId, r.milestoneId)

local instance lawfulKey : LawfulBEq (ℕ × ℕ) := inferInstance

/-- An error between two transactions ends the call. -/
def step : Point config → Db config → Answer config →
    Option (Next (Db config) (Write config) (Point config))
  | .readCheckins userId, _, .checkins rows now =>
      match h : computeCheckinStreak config.zone rows userId now with
      | none => some (.rollback none)
      | some streak => some (.goto (.findMilestones ⟨userId, rows, now, streak, h⟩))
  | .findMilestones c, _, .milestones rows =>
      match activeMilestones rows with
      | [] => some (.rollback none)
      | milestones => some (.goto (.findClaimed c milestones))
  | .findClaimed c milestones, db, .ok _ =>
      match nextGrant c (claimedBy db c.userId) milestones with
      | none => some (.rollback none)
      | some p => some (.goto p)
  | .createReward g claimed rest, db, .ok now =>
      if g.key ∈ rewardKeys db then some (.rollback (nextGrant g.toCaller claimed rest))
      else some (.write (.createReward g now) (.pay g claimed rest))
  | .pay g claimed rest, _, .ok now => some (.write (.pay g now.ms) (.commit g claimed rest))
  | .commit g claimed rest, _, .ok _ =>
      some (.commit (nextGrant g.toCaller (g.milestone.id :: claimed) rest))
  | .createReward g claimed rest, _, .error | .pay g claimed rest, _, .error
  | .commit g claimed rest, _, .error => some (.rollback (nextGrant g.toCaller claimed rest))
  | _, _, .error => some (.rollback none)
  | _, _, _ => none

/-! ## What is shown -/

inductive MilestoneState where
  | locked
  | eligible
  | claimed
deriving DecidableEq

structure MilestoneStatus where
  id : ℕ
  dayThreshold : ℤ
  rewardType : String
  rewardValue : ℚ
  validityDays : ℤ
  displayTitle : Option String
  description : Option String
  sortOrder : ℤ
  state : MilestoneState
  claimedAt : Option String

/-- `claims` are the rows of the user; the last one of a milestone counts. -/
def milestoneStatus (config : Config) (claims : List StreakReward) (streak : ℕ) (m : Milestone) :
    MilestoneStatus :=
  let claim := claims.reverse.find? fun c => c.milestoneId = m.id
  { id := m.id
    dayThreshold := m.dayThreshold
    rewardType := m.rewardType
    rewardValue := config.number m.rewardValue
    validityDays := m.validityDays
    displayTitle := m.displayTitle
    description := m.description
    sortOrder := m.sortOrder
    state :=
      if claim.isSome then .claimed else if m.dayThreshold ≤ streak then .eligible else .locked
    claimedAt := claim.map fun c => toISOString c.createdAt }

/-- The two tables may be read at two moments. -/
def buildMilestoneStatusForUser (config : Config) (milestones : List Milestone)
    (rewards : List StreakReward) (userId streak : ℕ) : List MilestoneStatus :=
  (activeMilestones milestones).map
    (milestoneStatus config (rewards.filter fun r => r.userId = userId) streak)

/-! ## Inversion -/

/-- What the statement at a point can do, for the database it sees. -/
inductive Moves (v : Db config) : Point config →
    Next (Db config) (Write config) (Point config) → Prop
  | ended (p : Point config) : Moves v p (.rollback none)
  | failed (p : Point config) (g : Grant config) (claimed : List ℕ) (rest : List Milestone) :
      Moves v p (.rollback (some (.createReward g claimed rest)))
  | counted (userId : ℕ) (c : Caller config) (hc : c.userId = userId) :
      Moves v (.readCheckins userId) (.goto (.findMilestones c))
  | found (c : Caller config) (milestones : List Milestone) :
      Moves v (.findMilestones c) (.goto (.findClaimed c milestones))
  | begins (c : Caller config) (milestones : List Milestone) (g : Grant config)
      (claimed : List ℕ) (rest : List Milestone) :
      Moves v (.findClaimed c milestones) (.goto (.createReward g claimed rest))
  | creates (g : Grant config) (claimed : List ℕ) (rest : List Milestone) (now : TimeValue)
      (hnew : g.key ∉ rewardKeys v) :
      Moves v (.createReward g claimed rest) (.write (.createReward g now) (.pay g claimed rest))
  | pays (g : Grant config) (claimed : List ℕ) (rest : List Milestone) (now : TimeValue) :
      Moves v (.pay g claimed rest) (.write (.pay g now.ms) (.commit g claimed rest))
  | commitsLast (g : Grant config) (claimed : List ℕ) (rest : List Milestone) :
      Moves v (.commit g claimed rest) (.commit none)
  | commits (g g' : Grant config) (claimed claimed' : List ℕ) (rest rest' : List Milestone) :
      Moves v (.commit g claimed rest) (.commit (some (.createReward g' claimed' rest')))

/-- The loop goes on to the transaction of a milestone. -/
theorem nextGrant_cases (c : Caller config) (claimed : List ℕ) (milestones : List Milestone) :
    nextGrant c claimed milestones = none
      ∨ ∃ g claimed' rest,
        nextGrant c claimed milestones = some (.createReward g claimed' rest) := by
  induction milestones with
  | nil => exact .inl rfl
  | cons m rest ih =>
    rw [nextGrant]
    split
    case isTrue h =>
      split
      · exact ih
      · exact .inr ⟨_, _, _, rfl⟩
    case isFalse => exact ih

theorem moves_rollback (v : Db config) (p : Point config) (c : Caller config) (claimed : List ℕ)
    (milestones : List Milestone) : Moves v p (.rollback (nextGrant c claimed milestones)) := by
  rcases nextGrant_cases c claimed milestones with hnone | ⟨g, claimed', rest, hsome⟩
  · rw [hnone]
    exact .ended p
  · rw [hsome]
    exact .failed p g claimed' rest

theorem step_moves {p : Point config} {db : Db config} {a : Answer config}
    {next : Next (Db config) (Write config) (Point config)} (h : step p db a = some next) :
    Moves db p next := by
  cases p with
  | readCheckins userId =>
    cases a with
    | checkins rows now =>
      simp only [step] at h
      split at h <;> obtain rfl := Option.some.inj h
      · exact .ended _
      · exact .counted userId _ rfl
    | error =>
      obtain rfl := Option.some.inj h
      exact .ended _
    | milestones rows | ok now => cases h
  | findMilestones c =>
    cases a with
    | milestones rows =>
      simp only [step] at h
      split at h <;> obtain rfl := Option.some.inj h
      · exact .ended _
      · exact .found c _
    | error =>
      obtain rfl := Option.some.inj h
      exact .ended _
    | checkins rows now | ok now => cases h
  | findClaimed c milestones =>
    cases a with
    | ok now =>
      simp only [step] at h
      rcases nextGrant_cases c (claimedBy db c.userId) milestones with
        hnone | ⟨g, claimed', rest, hsome⟩
      · rw [hnone] at h
        obtain rfl := Option.some.inj h
        exact .ended _
      · rw [hsome] at h
        obtain rfl := Option.some.inj h
        exact .begins c milestones g claimed' rest
    | error =>
      obtain rfl := Option.some.inj h
      exact .ended _
    | checkins rows now | milestones rows => cases h
  | createReward g claimed rest =>
    cases a with
    | ok now =>
      simp only [step] at h
      split at h <;> obtain rfl := Option.some.inj h
      case isTrue => exact moves_rollback db _ g.toCaller claimed rest
      case isFalse hnew => exact .creates g claimed rest now hnew
    | error =>
      obtain rfl := Option.some.inj h
      exact moves_rollback db _ g.toCaller claimed rest
    | checkins rows now | milestones rows => cases h
  | pay g claimed rest =>
    cases a with
    | ok now =>
      obtain rfl := Option.some.inj h
      exact .pays g claimed rest now
    | error =>
      obtain rfl := Option.some.inj h
      exact moves_rollback db _ g.toCaller claimed rest
    | checkins rows now | milestones rows => cases h
  | commit g claimed rest =>
    cases a with
    | ok now =>
      obtain rfl := Option.some.inj h
      rcases nextGrant_cases g.toCaller (g.milestone.id :: claimed) rest with
        hnone | ⟨g', claimed', rest', hsome⟩
      · rw [hnone]
        exact .commitsLast g claimed rest
      · rw [hsome]
        exact .commits g g' claimed claimed' rest rest'
    | error =>
      obtain rfl := Option.some.inj h
      exact moves_rollback db _ g.toCaller claimed rest
    | checkins rows now | milestones rows => cases h

/-- A write takes the locks its statement waits for. -/
theorem covers {p p' : Point config} {db : Db config} {a : Answer config} {w : Write config}
    (h : step p db a = some (.write w p')) : ∀ k ∈ locks w, k ∈ needs p a := by
  intro k hk
  cases a with
  | ok now =>
    generalize hnext : Next.write w p' = next at h
    cases step_moves h with
    | creates | pays =>
      obtain ⟨rfl, -⟩ := Next.write.inj hnext
      exact hk
    | _ => cases hnext
  | _ => cases p <;> simp only [step] at h <;> (try split at h) <;> cases h

def transactions (config : Config) :
    Transactions (Db config) (Write config) Lock ℕ (Point config) (Answer config) where
  apply := apply
  locks := locks
  start userId := some (.readCheckins userId)
  needs := needs
  step := step
  covers := covers

/-! ## What has been paid -/

/-- The user and the hash rate of the game that a grant books. -/
def Grant.paidGame (g : Grant config) : Option (ℕ × ℚ) :=
  (g.powerGame 0).map fun p => (p.userId, p.hashRate)

/-- The rows, the balances and the games are those of the grants, on top of
what was there. -/
structure Books (pol : ℕ → ℚ) (games : List (ℕ × ℚ)) (db : Db config) : Prop where
  rewards : (db.rewards.map fun r => (r.userId, r.milestoneId, r.streakWhenClaimed))
    = db.granted.map fun g => (g.userId, g.milestone.id, g.streak)
  balances : ∀ u, db.polBalance u
    = pol u + (db.granted.map fun g => if g.userId = u then g.polAmount else 0).sum
  powerGames : (db.powerGames.map fun p => (p.userId, p.hashRate))
    = db.granted.filterMap Grant.paidGame ++ games

/-- The writes of a call in its transaction. -/
def Pending (tx : Tx (Write config) (Point config)) : Prop :=
  match tx.point with
  | .pay g _ _ => ∃ now, tx.writes = [.createReward g now]
  | .commit g _ _ => ∃ now playedAt, tx.writes = [.createReward g now, .pay g playedAt]
  | _ => tx.writes = []

theorem pending_step {db : Db config} {tx tx' : Tx (Write config) (Point config)}
    {next : Next (Db config) (Write config) (Point config)} (h : Pending tx)
    (hmoves : Moves db tx.point next) (htx' : tx.after next = some tx') : Pending tx' := by
  obtain ⟨p, ws⟩ := tx
  cases hmoves with
  | ended | commitsLast => cases htx'
  | failed | commits =>
    obtain rfl := Option.some.inj htx'
    rfl
  | counted | found | begins =>
    obtain rfl := Option.some.inj htx'
    exact h
  | creates g claimed rest now hnew =>
    obtain rfl := Option.some.inj htx'
    obtain rfl : ws = [] := h
    exact ⟨now, rfl⟩
  | pays g claimed rest now =>
    obtain rfl := Option.some.inj htx'
    obtain ⟨created, rfl⟩ : ∃ now, ws = [.createReward g now] := h
    exact ⟨created, now.ms, rfl⟩

/-- The game is the same whenever it is played. -/
theorem powerGame_paid (g : Grant config) (playedAt : ℤ) :
    g.paidGame = (g.powerGame playedAt).map fun p => (p.userId, p.hashRate) := by
  unfold Grant.paidGame Grant.powerGame
  split <;> rfl

theorem Books.granted {pol : ℕ → ℚ} {games : List (ℕ × ℚ)} {db : Db config}
    (h : Books pol games db) (g : Grant config) (now : TimeValue) (playedAt : ℤ) :
    Books pol games (apply (apply db (.createReward g now)) (.pay g playedAt)) where
  rewards := congrArg (_ :: ·) h.rewards
  balances u := by
    show Function.update db.polBalance g.userId (db.polBalance g.userId + g.polAmount) u
      = pol u + ((g :: db.granted).map fun g => if g.userId = u then g.polAmount else 0).sum
    rw [List.map_cons, List.sum_cons]
    by_cases hu : u = g.userId
    · subst hu
      rw [Function.update_self, h.balances, if_pos rfl]
      ring
    · rw [Function.update_of_ne hu, h.balances, if_neg (Ne.symm hu), zero_add]
  powerGames := by
    have hpaid := powerGame_paid g playedAt
    show ((g.powerGame playedAt).toList ++ db.powerGames).map _
      = (g :: db.granted).filterMap Grant.paidGame ++ games
    rw [List.map_append, h.powerGames]
    cases hgame : g.powerGame playedAt with
    | none =>
      rw [hgame] at hpaid
      rw [List.filterMap_cons_none hpaid]
      rfl
    | some game =>
      rw [hgame] at hpaid
      rw [List.filterMap_cons_some hpaid]
      rfl

theorem books_run {pol : ℕ → ℚ} {games : List (ℕ × ℚ)} {db : Db config} (hdb : Books pol games db)
    {es : List (Event ℕ (Answer config))}
    {t : InFlight (Db config) (Tx (Write config) (Point config))}
    (hrun : (transactions config).sys.run (Transactions.idle db) es = some t) :
    Books pol games t.db := by
  refine ((transactions config).kept_run (J := fun _ => Pending) ?_ ?_ ?_
    ((transactions config).holds_idle hdb) hrun).db
  · intro db userId p _ h
    obtain rfl := Option.some.inj h
    rfl
  · intro db tx a next hdb htx hstep
    have hmoves := step_moves hstep
    refine ⟨?_, fun tx' htx' => pending_step htx hmoves htx'⟩
    obtain ⟨p, ws⟩ := tx
    cases hmoves with
    | commitsLast g | commits g =>
      obtain ⟨now, playedAt, rfl⟩ :
        ∃ now playedAt, ws = [.createReward g now, .pay g playedAt] := htx
      exact hdb.granted g now playedAt
    | _ => exact hdb
  · exact fun _ _ _ _ _ _ _ _ htx' _ => htx'

/-- The unique index on user and milestone. -/
def rewardIndex (config : Config) : (transactions config).UniqueIndex (ℕ × ℕ) where
  keys := rewardKeys
  entered w := match w with
    | .createReward g _ => [g.key]
    | .pay _ _ => []
  lock := .reward
  keys_apply db w := by
    cases w <;> exact .refl _
  locked w k hk := by
    cases w with
    | createReward g now =>
      obtain rfl := List.mem_singleton.1 hk
      exact List.mem_singleton_self _
    | pay => cases hk
  admits {p v a next} h := by
    cases step_moves h with
    | creates g claimed rest now hnew =>
      refine ⟨List.nodup_singleton _, fun k hk => ?_⟩
      obtain rfl := List.mem_singleton.1 hk
      exact hnew
    | pays => exact ⟨List.nodup_nil, fun k hk => nomatch hk⟩
    | _ => trivial

/-! ## Milestones -/

theorem Books.keys {pol : ℕ → ℚ} {games : List (ℕ × ℚ)} {db : Db config} (h : Books pol games db) :
    rewardKeys db = db.granted.map Grant.key := by
  have hkeys := congrArg (List.map fun row : ℕ × ℕ × ℕ => (row.1, row.2.1)) h.rewards
  rw [List.map_map, List.map_map] at hkeys
  exact hkeys

theorem claimed_iff (config : Config) {milestones : List Milestone} {rewards : List StreakReward}
    {userId streak : ℕ} {s : MilestoneStatus}
    (h : s ∈ buildMilestoneStatusForUser config milestones rewards userId streak) :
    s.state = .claimed ↔ (userId, s.id) ∈ rewards.map fun r => (r.userId, r.milestoneId) := by
  obtain ⟨m, -, rfl⟩ := List.mem_map.1 h
  have hsome : ((rewards.filter fun r => r.userId = userId).reverse.find?
      fun c => c.milestoneId = m.id).isSome
        ↔ (userId, m.id) ∈ rewards.map fun r => (r.userId, r.milestoneId) := by
    simp only [List.find?_isSome, List.mem_reverse, List.mem_filter, decide_eq_true_eq,
      List.mem_map, Prod.mk.injEq, and_assoc]
  unfold milestoneStatus
  dsimp only
  rw [← hsome]
  split_ifs with hclaim hreached
  · exact iff_of_true rfl hclaim
  · exact iff_of_false not_false hclaim
  · exact iff_of_false not_false hclaim

/-- The day up to which a streak is counted. -/
def streakEnd (zone : SaoPaulo) (rows : List (CheckinRow zone)) (userId : ℕ) (now : Instant) : ℤ :=
  if localDay zone now.ms ∈ checkinDays zone rows userId then localDay zone now.ms
  else localDay zone now.ms - 1

/-- Three hours behind UTC. -/
def threeHours : Config where
  zone := ⟨fun _ => -3 * 3600000, fun _ => by decide, fun _ => by decide⟩
  number := id

/-- Noon in UTC on a day of 2026. -/
def noonOf (day : Fin 28) : Instant where
  ms := 1767225600000 + day * 86400000 + 12 * 3600000
  range := by
    rw [abs_le]
    omega
  late := by
    have h101 : newYear 101 = -682638 := by decide
    omega

def checkedIn (day : Fin 28) : CheckinRow threeHours.zone where
  userId := 1
  status := .confirmed
  checkinDate := getBrazilCheckinDateKey threeHours.zone (noonOf day).toTimeValue
  madeAt := noonOf day
  dated := rfl

def twoDays : Milestone where
  id := 7
  dayThreshold := 2
  rewardType := "POL"
  rewardValue := 5
  validityDays := 7
  displayTitle := none
  description := none
  active := true
  sortOrder := 0

def nothingGranted : Db threeHours := ⟨[], fun _ => 0, [], []⟩

def both (a : Answer threeHours) : List (Event ℕ (Answer threeHours)) :=
  [.resume 1 a, .resume 2 a]

/-- Both calls count two days and find no reward; the second one has to wait. -/
def bothGrant : List (Event ℕ (Answer threeHours)) :=
  let now := (noonOf 2).toTimeValue
  [.start 1, .start 1] ++ both (.checkins [checkedIn 1, checkedIn 2] (noonOf 2))
    ++ both (.milestones [twoDays]) ++ both (.ok now)
    ++ [.resume 1 (.ok now), .resume 1 (.ok now), .resume 1 (.ok now), .resume 2 (.ok now)]

end BlockMiner.CheckinMilestones
