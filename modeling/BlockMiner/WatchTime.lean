import BlockMiner.Service
import Mathlib.Algebra.Order.Floor.Ring
import Mathlib.Data.Rat.Floor

/-!
# Watch time and the YouTube reward

`controllers/sessionController.js` and `controllers/youtubeController.js`: a
heartbeat adds ten seconds to the balance of its kind, and 60 seconds of the
YouTube balance buy a power for a day. Both requests read what they check in
queries of their own and write without looking again, so the reads and the
write of a request are separate steps.

The reward is one transaction of writes. It is a step at its commit, and its
history row carries the instant the transaction was under way
(`Answer.committed`). Clocks do not run backwards: the state knows the last
instant that any request has seen. Times are milliseconds.

The accepted heartbeats are not a table.
-/

namespace BlockMiner.WatchTime

/-! ## Tables -/

inductive HeartbeatType where
  | youtube
  | autoMining
deriving DecidableEq

structure User where
  ytSecondsBalance : ℤ
  autoMiningSecondsBalance : ℤ
  lastHeartbeatAt : Option ℤ
deriving DecidableEq

structure YoutubeWatchPower where
  userId : ℕ
  sourceVideoId : String
  hashRate : ℤ
  claimedAt : ℤ
  expiresAt : ℤ

/-- All of them have the status "granted". -/
structure YoutubeWatchHistory where
  userId : ℕ
  sourceVideoId : String
  hashRate : ℤ
  claimedAt : ℤ
  expiresAt : ℤ
  createdAt : ℤ

/-- The `youtube_claim` rows of the audit log. -/
structure AuditLog where
  userId : ℕ
  videoId : String
  hashRate : ℤ
  expiresAt : ℤ

structure Heartbeat where
  userId : ℕ
  type : HeartbeatType
  sentAt : ℤ

structure Db where
  users : Table User
  powers : Table YoutubeWatchPower
  history : Table YoutubeWatchHistory
  auditLog : List AuditLog
  heartbeats : List Heartbeat
  clock : ℤ

/-- `none` where the text of the variable is not a number. -/
structure Env where
  DURATION_HOURS : Option ℚ

/-! ## Checks -/

/-- H/s per claim. -/
def REWARD_PER_CLAIM : ℤ := 3

/-- Most H/s granted by claims in a rolling day. -/
def DAILY_LIMIT_HASH : ℤ := 1440

def DAY_MS : ℤ := 24 * 60 * 60 * 1000

/-- What `JSON.parse` makes of a fingerprint: it throws (as does reading the
`ts` of `null`), or there is a `ts`, which is `none` where it compares as NaN. -/
inductive Fingerprint where
  | unreadable
  | ts (value : Option ℚ)

def Fingerprint.accepted (nowTs : ℤ) : Fingerprint → Bool
  | .unreadable => false
  | .ts value => value.all fun ts : ℚ => !((nowTs : ℚ) + 5000 < ts || ts < nowTs - 60000)

def heartbeatType : String → Option HeartbeatType
  | "youtube" => some .youtube
  | "auto-mining" => some .autoMining
  | _ => none

/-- `diff < 8`, in seconds. -/
def tooFast (user : User) (now : ℤ) : Bool :=
  user.lastHeartbeatAt.any fun last => now - last < 8000

/-- The sum over the history of the last day. -/
def currentDailyHash (db : Db) (userId : ℕ) (now : ℤ) : ℤ :=
  db.history.sum fun _ c => if c.userId = userId ∧ now - DAY_MS < c.createdAt then c.hashRate else 0

def dailyLimitReached (db : Db) (userId : ℕ) (now : ℤ) : Bool :=
  DAILY_LIMIT_HASH < currentDailyHash db userId now + REWARD_PER_CLAIM

def enoughWatched (db : Db) (userId : ℕ) : Bool :=
  (db.users.row userId).any fun user => 60 ≤ user.ytSecondsBalance

/-- `new Date` of an invalid time makes the transaction throw. -/
def Env.expiresAt (env : Env) (now : ℤ) : Option ℤ :=
  env.DURATION_HOURS.map fun hours => ⌊(now : ℚ) + hours * 60 * 60 * 1000⌋

/-! ## Requests -/

inductive Request where
  | processHeartbeat (userId : ℕ) (type : String) (isBot : Bool) (fingerprint : Fingerprint)
      (nowTs now : ℤ)
  | claimReward (userId : ℕ) (videoId : String)

inductive Answer where
  | ok (now : ℤ)
  | committed (createdAt now : ℤ)
  | error
deriving DecidableEq

structure Claim where
  userId : ℕ
  videoId : String
  now : ℤ

/-- A request, by the await it is at. -/
inductive Call where
  | lastHeartbeat (beat : Heartbeat)
  | heartbeat (beat : Heartbeat)
  | balance (userId : ℕ) (videoId : String)
  | history (claim : Claim)
  /-- `since` is when the transaction began. -/
  | grant (claim : Claim) (expiresAt : Option ℤ) (since : ℤ)

inductive Write where
  | heartbeat (beat : Heartbeat)
  | grant (claim : Claim) (expiresAt createdAt : ℤ)

variable (db : Db)

/-- The update of a heartbeat. -/
def User.beat (beat : Heartbeat) (user : User) : User :=
  match beat.type with
  | .youtube =>
      { user with
        lastHeartbeatAt := some beat.sentAt, ytSecondsBalance := user.ytSecondsBalance + 10 }
  | .autoMining =>
      { user with
        lastHeartbeatAt := some beat.sentAt
        autoMiningSecondsBalance := user.autoMiningSecondsBalance + 10 }

def User.charge (user : User) : User :=
  { user with ytSecondsBalance := user.ytSecondsBalance - 60 }

/-- An update throws where the user is missing. -/
def acceptHeartbeat (beat : Heartbeat) : Db :=
  if (db.users.row beat.userId).isSome then
    { db with
      users := db.users.modify beat.userId (User.beat beat)
      heartbeats := beat :: db.heartbeats }
  else db

/-- The transaction of a claim. -/
def grantReward (claim : Claim) (expiresAt createdAt : ℤ) : Db :=
  if (db.users.row claim.userId).isSome then
    { db with
      powers := db.powers.insert
        { userId := claim.userId, sourceVideoId := claim.videoId, hashRate := REWARD_PER_CLAIM
          claimedAt := claim.now, expiresAt }
      history := db.history.insert
        { userId := claim.userId, sourceVideoId := claim.videoId, hashRate := REWARD_PER_CLAIM
          claimedAt := claim.now, expiresAt, createdAt }
      users := db.users.modify claim.userId User.charge
      auditLog := ⟨claim.userId, claim.videoId, REWARD_PER_CLAIM, expiresAt⟩ :: db.auditLog }
  else db

def apply : Write → Db
  | .heartbeat beat => acceptHeartbeat db beat
  | .grant claim expiresAt createdAt => grantReward db claim expiresAt createdAt

/-! ## Steps -/

/-- What the queries of a request let it go on to. -/
def query (env : Env) (now : ℤ) : Call → Option Call
  | .lastHeartbeat beat => (db.users.row beat.userId).bind fun user =>
      if tooFast user beat.sentAt then none else some (.heartbeat beat)
  | .balance userId videoId =>
      if enoughWatched db userId then some (.history ⟨userId, videoId, now⟩) else none
  | .history claim =>
      if dailyLimitReached db claim.userId claim.now then none
      else some (.grant claim (env.expiresAt now) now)
  | .heartbeat _ | .grant .. => none

/-- What a request writes with an answer. -/
def write : Call → Answer → Option Write
  | .heartbeat beat, .ok _ => some (.heartbeat beat)
  | .grant claim (some expiresAt) _, .committed createdAt _ =>
      some (.grant claim expiresAt createdAt)
  | _, _ => none

/-- The instant an answer shows, where it can be the answer of the call. -/
def instant : Call → Answer → Option ℤ
  | _, .error => some db.clock
  | .grant _ _ since, .committed createdAt now =>
      if db.clock ≤ now ∧ since ≤ createdAt ∧ createdAt ≤ now then some now else none
  | .grant .., .ok _ | _, .committed .. => none
  | _, .ok now => if db.clock ≤ now then some now else none

def start : Request → Option (Db × List Call)
  | .processHeartbeat userId type isBot fingerprint nowTs now =>
      if db.clock ≤ nowTs ∧ nowTs ≤ now then
        some ({ db with clock := now },
          ((heartbeatType type).filter fun _ => !isBot && fingerprint.accepted nowTs).toList.map
            fun type => .lastHeartbeat ⟨userId, type, now⟩)
      else none
  | .claimReward userId videoId =>
      some (db, if videoId = "" then [] else [.balance userId videoId])

def resume (env : Env) (c : Call) (a : Answer) : Option (Db × Option Call) :=
  (instant db c a).map fun now =>
    ({ (write c a).elim db (apply db) with clock := now },
      if a = .error then none else query db env now c)

def service (env : Env) : Service Db Call Request Answer := ⟨start, (resume · env)⟩

end BlockMiner.WatchTime
