import Mathlib.Algebra.Order.Floor.Ring
import Mathlib.Data.Rat.Floor
import BlockMiner.Run
import BlockMiner.Table

/-!
# The Hash Tap Sprint minigame

`server/services/minigameService.js`: a player starts a session, plays for
its duration, and completes it for a temporary power. Each of the three
endpoints runs one transaction that first takes the row lock of the user
(`lockUserForMinigame`), so the transactions of one user happen one after
the other, and those of different users touch different rows. A transaction
is therefore one step. The `now` of a request is read when the request
arrives, before it waits for the lock, and is an argument of the step: it
need not grow from one step to the next.

Instants are milliseconds since the epoch.
-/

namespace BlockMiner.Minigame

/-! ## `utils/minigameConstants.js` -/

def MINIGAME_GAME_SLUG : String := "hash-tap-sprint"

/-- Play window enforced on the server (ms). -/
def MINIGAME_DURATION_MS : ℤ := 69000

/-- Cooldown after a rewarded completion (ms). -/
def MINIGAME_COOLDOWN_MS : ℤ := 180000

def MINIGAME_REWARD_HASHRATE : ℕ := 25

/-- Completion is allowed this many ms before `endsAt`. -/
def MINIGAME_COMPLETE_EARLY_MS : ℤ := 1500

/-- Completion is allowed this many ms after `endsAt`. -/
def MINIGAME_COMPLETE_LATE_MS : ℤ := 120000

/-! ## Tables -/

inductive SessionStatus where
  | ACTIVE
  | COMPLETED
  | EXPIRED
deriving DecidableEq

structure MinigameSession where
  userId : ℕ
  status : SessionStatus
  startedAt : ℤ
  endsAt : ℤ
  completedAt : Option ℤ
  rewardGranted : Bool
deriving DecidableEq

structure UserPowerGame where
  userId : ℕ
  gameId : ℕ
  hashRate : ℕ
  playedAt : ℤ
  expiresAt : ℤ
  /-- Not a column: the session whose completion granted the power. -/
  session : ℕ
deriving DecidableEq

/-- The `minigame_complete` row of the audit log. -/
structure AuditLog where
  userId : ℕ
  ip : Option String
  userAgent : Option String
  sessionId : ℕ
  hashRate : ℕ
  expiresAt : ℤ

structure Db where
  sessions : Table MinigameSession
  /-- The `games` table, by slug. -/
  games : Table String
  powers : List UserPowerGame
  auditLog : List AuditLog

def Db.empty : Db := ⟨.empty, .empty, [], []⟩

/-- `MINIGAME_POWER_DAYS`, or `YT_POWER_DAYS`, or 7; `none` where the text is
not a finite number. -/
structure Env where
  powerDays : Option ℚ

/-- The `meta` argument of a completion. -/
structure ClientMeta where
  ip : Option String
  userAgent : Option String

/-! ## Helpers -/

def computeCooldownEndsAt (completedAt : Option ℤ) (now : ℤ) : Option ℤ :=
  completedAt.bind fun completedAt =>
    if now < completedAt + MINIGAME_COOLDOWN_MS then some (completedAt + MINIGAME_COOLDOWN_MS)
    else none

def isWithinCompleteWindow (endsAt now : ℤ) : Bool :=
  endsAt - MINIGAME_COMPLETE_EARLY_MS ≤ now && now ≤ endsAt + MINIGAME_COMPLETE_LATE_MS

/-- `Math.max(0, Math.ceil((end - now) / 1000))`; no cooldown leaves 0. -/
def cooldownSecondsRemaining (cooldownEndsAt : Option ℤ) (now : ℤ) : ℤ :=
  cooldownEndsAt.elim 0 fun cd => max 0 ⌈((cd - now : ℤ) : ℚ) / 1000⌉

def powerDaysFromEnv (env : Env) : ℤ := max 1 (min 365 ⌊env.powerDays.getD 7⌋)

namespace Db

variable (db : Db)

/-- The `upsert` by slug. -/
def getOrCreateMinigameGameId : Db × ℕ :=
  match db.games.findFirst fun _ slug => slug = MINIGAME_GAME_SLUG with
  | some (id, _) => (db, id)
  | none => ({ db with games := db.games.insert MINIGAME_GAME_SLUG }, db.games.nextId)

/-- The sessions that are over their completion window expire. -/
def expireStaleActiveSessions (userId : ℕ) (now : ℤ) : Db :=
  { db with
    sessions := db.sessions.updateMany
      (fun s => s.userId = userId && s.status = .ACTIVE
        && s.endsAt ≤ now - MINIGAME_COMPLETE_LATE_MS)
      (fun s => { s with status := .EXPIRED }) }

/-- `lastRewarded?.completedAt ?? null`. The order is by `completedAt`
descending, which puts a row without one first. -/
def lastRewardedAt (userId : ℕ) : Option ℤ :=
  let rewarded := db.sessions.findMany fun _ s =>
    s.userId = userId && s.status = .COMPLETED && s.rewardGranted
  if rewarded.any fun r => r.2.completedAt = none then none
  else (rewarded.filterMap fun r => r.2.completedAt).max?

/-- The active session with the largest id. -/
def activeSession (userId : ℕ) : Option (ℕ × MinigameSession) :=
  (db.sessions.findMany fun _ s => s.userId = userId && s.status = .ACTIVE).getLast?

end Db

/-! ## getMinigameStatus -/

structure StatusReply where
  allowNewStart : Bool
  cooldownEndsAt : Option ℤ
  cooldownSecondsRemaining : ℤ
  activeSession : Option (ℕ × MinigameSession)
  rewardHashRate : ℕ
  durationSeconds : ℤ

/-- `Math.round(MINIGAME_DURATION_MS / 1000)`. -/
def durationSeconds : ℤ := ⌊(MINIGAME_DURATION_MS : ℚ) / 1000 + 1 / 2⌋

/-- The reads after the transaction has committed. -/
def statusReply (db : Db) (userId : ℕ) (now : ℤ) : StatusReply :=
  let cooldownEndsAt := computeCooldownEndsAt (db.lastRewardedAt userId) now
  let active := db.activeSession userId
  { allowNewStart := cooldownEndsAt.isNone && active.isNone
    cooldownEndsAt
    cooldownSecondsRemaining := cooldownSecondsRemaining cooldownEndsAt now
    activeSession := active
    rewardHashRate := MINIGAME_REWARD_HASHRATE
    durationSeconds }

def getMinigameStatus (db : Db) (userId : ℕ) (now : ℤ) : Db × StatusReply :=
  let db := db.expireStaleActiveSessions userId now
  (db, statusReply db userId now)

/-! ## startMinigameSession -/

inductive StartReply where
  | COOLDOWN_ACTIVE (cooldownEndsAt cooldownSecondsRemaining : ℤ)
  | ok (reused : Bool) (id : ℕ) (startedAt endsAt durationSeconds : ℤ) (rewardHashRate : ℕ)

/-- `create` with the data of a new session. -/
def newSession (userId : ℕ) (now : ℤ) : MinigameSession where
  userId
  status := .ACTIVE
  startedAt := now
  endsAt := now + MINIGAME_DURATION_MS
  completedAt := none
  rewardGranted := false

def startMinigameSession (db : Db) (userId : ℕ) (now : ℤ) : Db × StartReply :=
  let db := db.expireStaleActiveSessions userId now
  match computeCooldownEndsAt (db.lastRewardedAt userId) now with
  | some cd => (db, .COOLDOWN_ACTIVE cd (cooldownSecondsRemaining (some cd) now))
  | none =>
      match db.activeSession userId with
      | some (id, s) =>
          (db, .ok true id s.startedAt s.endsAt durationSeconds MINIGAME_REWARD_HASHRATE)
      | none =>
          let row := newSession userId now
          ({ db with sessions := db.sessions.insert row },
            .ok false db.sessions.nextId row.startedAt row.endsAt durationSeconds
              MINIGAME_REWARD_HASHRATE)

/-! ## completeMinigameSession -/

inductive CompleteReply where
  | INVALID_SESSION
  | SESSION_NOT_FOUND
  | SESSION_NOT_ACTIVE
  | TOO_EARLY
  | SESSION_EXPIRED
  | ok (idempotent : Bool) (rewardHashRate : ℕ) (powerDays : ℤ) (nextPlayAllowedAt : Option ℤ)
      (cooldownSecondsRemaining : ℤ)

/-- `update` of the session to a new status, without or with the reward. -/
def setStatus (db : Db) (id : ℕ) (f : MinigameSession → MinigameSession) : Db :=
  { db with sessions := db.sessions.modify id f }

def expired (s : MinigameSession) : MinigameSession := { s with status := .EXPIRED }

def rewarded (playedAt : ℤ) (s : MinigameSession) : MinigameSession :=
  { s with status := .COMPLETED, completedAt := some playedAt, rewardGranted := true }

/-- The writes of a rewarded completion. -/
def grantReward (env : Env) (db : Db) (userId sid : ℕ) (clientMeta : ClientMeta)
    (playedAt : ℤ) : Db :=
  let (db, gameId) := db.getOrCreateMinigameGameId
  let expiresAt := playedAt + powerDaysFromEnv env * 86400000
  let power : UserPowerGame :=
    { userId, gameId, hashRate := MINIGAME_REWARD_HASHRATE, playedAt, expiresAt, session := sid }
  let log : AuditLog :=
    { userId
      ip := clientMeta.ip.map fun ip => String.ofList (ip.toList.take 64)
      userAgent := clientMeta.userAgent.map fun agent => String.ofList (agent.toList.take 512)
      sessionId := sid
      hashRate := MINIGAME_REWARD_HASHRATE
      expiresAt }
  setStatus { db with powers := power :: db.powers, auditLog := log :: db.auditLog } sid
    (rewarded playedAt)

def completeMinigameSession (env : Env) (db : Db) (userId sid : ℕ) (clientMeta : ClientMeta)
    (now : ℤ) : Db × CompleteReply :=
  if sid = 0 then (db, .INVALID_SESSION)
  else
    let db := db.expireStaleActiveSessions userId now
    match db.sessions.findFirst fun id s => id = sid && s.userId = userId with
    | none => (db, .SESSION_NOT_FOUND)
    | some (_, row) =>
        if row.status = .COMPLETED ∧ row.rewardGranted then
          let cd := computeCooldownEndsAt row.completedAt now
          (db, .ok true MINIGAME_REWARD_HASHRATE (powerDaysFromEnv env) cd
            (cooldownSecondsRemaining cd now))
        else if row.status ≠ .ACTIVE then (db, .SESSION_NOT_ACTIVE)
        else if !isWithinCompleteWindow row.endsAt now then
          if now < row.endsAt - MINIGAME_COMPLETE_EARLY_MS then (db, .TOO_EARLY)
          else (setStatus db sid expired, .SESSION_EXPIRED)
        else
          let cd := now + MINIGAME_COOLDOWN_MS
          (grantReward env db userId sid clientMeta now,
            .ok false MINIGAME_REWARD_HASHRATE (powerDaysFromEnv env) (some cd)
              (cooldownSecondsRemaining (some cd) now))

/-! ## The system -/

inductive Request where
  | getMinigameStatus (userId : ℕ) (now : ℤ)
  | startMinigameSession (userId : ℕ) (now : ℤ)
  | completeMinigameSession (userId sid : ℕ) (clientMeta : ClientMeta) (now : ℤ)

def handle (env : Env) (db : Db) : Request → Db
  | .getMinigameStatus userId now => (getMinigameStatus db userId now).1
  | .startMinigameSession userId now => (startMinigameSession db userId now).1
  | .completeMinigameSession userId sid clientMeta now =>
      (completeMinigameSession env db userId sid clientMeta now).1

def system (env : Env) : System Db Request := ⟨fun db request => some (handle env db request)⟩

end BlockMiner.Minigame
