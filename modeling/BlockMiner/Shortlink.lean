import BlockMiner.Machines
import BlockMiner.Service
import BlockMiner.Spending

/-!
# The internal shortlink

`controllers/shortlinkController.js`: a run has a start and three steps, each
with the token that the one before it has handed out, and ends in a machine.
All progress of a user is one row, which a request reads, resets for a new day
if it must, and updates without looking again. The number of the step comes
from the client.

Tokens are SHA-256 sums with a secret, and a parameter. The active reward does
not change. Instants are milliseconds since the epoch; a step takes its own
when it arrives, a start as it writes. The starts and the accepted steps of a
user are kept beside the tables, the latest first.
-/

namespace BlockMiner.Shortlink

open Machines (Snapshot)
open Spending (startUtcDay)

def TOTAL_STEPS : ℤ := 3

def MAX_DAILY_RUNS : ℕ := 1

/-- The tolerance for a slow connection is already taken off. -/
def STEP_TIME_MS : ℤ := 8000

/-! ## Tables -/

/-- Of one user. -/
structure ShortlinkCompletion where
  currentStep : ℤ
  dailyRuns : ℕ
  sessionToken : Option String
  stepStartedAt : Option ℕ
  completedAt : Option ℕ
  resetAt : Option ℕ

/-- Not a column: what a user did. -/
inductive Mark where
  | started (doneAt : ℕ)
  | accepted (step : ℤ) (doneAt : ℕ)
deriving DecidableEq

inductive Incident where
  | token_mismatch
  | script_click
  | too_fast

/-- A `shortlink_cheat_attempt` of the audit log. -/
structure CheatAttempt where
  userId : ℕ
  step : Option ℤ
  incidents : List Incident
  timeElapsed : ℤ

structure Db where
  row : ℕ → Option ShortlinkCompletion
  machines : Machines.Db
  auditLog : List CheatAttempt
  marks : ℕ → List Mark

structure Config where
  generateStepToken : ℕ → ℤ → ℕ → String
  /-- The machine of the active reward's miner. -/
  reward : Option Snapshot

/-! ## Checks -/

/-- The row is of a day before that of `now`. -/
def needsReset (status : ShortlinkCompletion) (now : ℕ) : Bool :=
  0 < status.dailyRuns
    && (status.completedAt.or status.resetAt).any fun last => last < startUtcDay now

/-- `now` of a step less the start of the one before it. -/
def timeElapsed (status : ShortlinkCompletion) (now : ℕ) : ℤ :=
  now - (status.stepStartedAt.getD 0 : ℕ)

/-- `completeShortlinkStep`, with `Number(step)`: `none` for a text that is no
whole number. -/
structure StepRequest where
  userId : ℕ
  step : Option ℤ
  sessionToken : String
  isUntrustedEvent : Bool
  now : ℕ

def incidents (status : ShortlinkCompletion) (request : StepRequest) : List Incident :=
  (if status.sessionToken ≠ some request.sessionToken then [.token_mismatch] else [])
    ++ (if request.isUntrustedEvent then [.script_click] else [])
    ++ (if timeElapsed status request.now < STEP_TIME_MS then [.too_fast] else [])

def nextStep (step : ℤ) : ℤ := if step = TOTAL_STEPS then 0 else step + 1

/-- Fits the column. -/
def isInt32 (n : ℤ) : Bool := -2 ^ 31 ≤ n && n < 2 ^ 31

/-! ## Requests -/

inductive Request where
  | getShortlinkStatus (userId : ℕ)
  | startShortlink (userId : ℕ)
  | completeShortlinkStep (request : StepRequest)

inductive Answer where
  | ok (now : ℕ)
  | error
deriving DecidableEq

/-- A request, by the await it is at. -/
inductive Call where
  | statusFind (userId : ℕ)
  | statusCreate (userId : ℕ)
  | statusReset (userId resetAt : ℕ)
  | startFind (userId : ℕ)
  | startReset (userId resetAt : ℕ)
  | startUpsert (userId startedAt : ℕ) (sessionToken : String)
  | stepFind (request : StepRequest)
  | stepReset (request : StepRequest) (status : ShortlinkCompletion) (resetAt : ℕ)
  | stepAudit (attempt : CheatAttempt)
  | stepCommit (request : StepRequest) (step : ℤ) (nextSessionToken : Option String)

/-! ## Writes -/

section Writes

variable (db : Db)

def setRow (userId : ℕ) (status : ShortlinkCompletion) : Db :=
  { db with row := Function.update db.row userId (some status) }

def mark (userId : ℕ) (m : Mark) : Db :=
  { db with marks := Function.update db.marks userId (m :: db.marks userId) }

/-- The update of `resetDailyIfNeeded`; it throws where the row is missing. -/
def resetDaily (userId resetAt : ℕ) : Option (Db × ShortlinkCompletion) :=
  (db.row userId).map fun status =>
    let status := { status with dailyRuns := 0, resetAt := some resetAt }
    (setRow db userId status, status)

def ShortlinkCompletion.empty : ShortlinkCompletion := ⟨0, 0, none, none, none, none⟩

def upsertStart (userId startedAt : ℕ) (sessionToken : String) : Db :=
  mark (setRow db userId
    { (db.row userId).getD .empty with
      currentStep := 0, sessionToken := some sessionToken, stepStartedAt := some startedAt })
    userId (.started startedAt)

/-- The update of an accepted step. -/
def ShortlinkCompletion.complete (status : ShortlinkCompletion) (step : ℤ)
    (nextSessionToken : Option String) (now : ℕ) : ShortlinkCompletion :=
  { status with
    currentStep := nextStep step
    dailyRuns := if step = TOTAL_STEPS then status.dailyRuns + 1 else status.dailyRuns
    completedAt := if step = TOTAL_STEPS then some now else status.completedAt
    sessionToken := nextSessionToken
    stepStartedAt := some now }

/-- The transaction of an accepted step, which throws where the row or, after
the last step, the reward is missing. -/
def commitStep (config : Config) (userId : ℕ) (step : ℤ) (nextSessionToken : Option String)
    (now : ℕ) : Option Db := do
  guard (isInt32 (nextStep step))
  let status ← db.row userId
  let done := mark (setRow db userId (status.complete step nextSessionToken now)) userId
    (.accepted step now)
  if step = TOTAL_STEPS then
    let machine ← config.reward
    return { done with
      machines := done.machines.createInventoryWithOwnedMachine userId machine none }
  else return done

end Writes

/-! ## Steps -/

/-- A start with the row of today. -/
def checkStart (config : Config) (userId now : ℕ) (status : Option ShortlinkCompletion) :
    Option Call :=
  if status.any fun status => MAX_DAILY_RUNS ≤ status.dailyRuns then none
  else some (.startUpsert userId now (config.generateStepToken userId 1 now))

/-- A step with the row it has read, of which `freshStatus` is of today. -/
def checkStep (config : Config) (request : StepRequest) (now : ℕ)
    (status freshStatus : ShortlinkCompletion) : Option Call :=
  if MAX_DAILY_RUNS ≤ freshStatus.dailyRuns then none
  else
    let found := incidents status request
    if !found.isEmpty then
      some (.stepAudit ⟨request.userId, request.step, found, timeElapsed status request.now⟩)
    else request.step.map fun step =>
      .stepCommit request step (if step = TOTAL_STEPS then none
        else some (config.generateStepToken request.userId (nextStep step) now))

/-- What a call writes, and where it goes on; `none` where it throws. -/
def act (config : Config) (db : Db) (now : ℕ) : Call → Option (Db × Option Call)
  | .statusFind userId =>
      match db.row userId with
      | none => some (db, some (.statusCreate userId))
      | some status =>
          some (db, if needsReset status now then some (.statusReset userId now) else none)
  | .statusCreate userId =>
      -- the key of the user is unique
      if (db.row userId).isSome then none else some (setRow db userId .empty, none)
  | .statusReset userId resetAt => (resetDaily db userId resetAt).map fun out => (out.1, none)
  | .startFind userId =>
      let status := db.row userId
      some (db, if status.any (needsReset · now) then some (.startReset userId now)
        else checkStart config userId now status)
  | .startReset userId resetAt => (resetDaily db userId resetAt).map fun out =>
      (out.1, checkStart config userId now (some out.2))
  | .startUpsert userId startedAt sessionToken =>
      some (upsertStart db userId startedAt sessionToken, none)
  | .stepFind request =>
      match (db.row request.userId).filter fun status =>
          status.sessionToken.any fun token => token ≠ "" with
      | none => some (db, none)
      | some status =>
          some (db, if needsReset status now then some (.stepReset request status now)
            else checkStep config request now status status)
  | .stepReset request status resetAt => (resetDaily db request.userId resetAt).map fun out =>
      (out.1, checkStep config request now status out.2)
  | .stepAudit attempt => some ({ db with auditLog := attempt :: db.auditLog }, none)
  | .stepCommit request step nextSessionToken =>
      (commitStep db config request.userId step nextSessionToken request.now).map fun db =>
        (db, none)

def start : Request → List Call
  | .getShortlinkStatus userId => [.statusFind userId]
  | .startShortlink userId => [.startFind userId]
  | .completeShortlinkStep request => [.stepFind request]

/-- A call that throws, or whose query fails, writes nothing and ends. -/
def resume (config : Config) (db : Db) (c : Call) : Answer → Option (Db × Option Call)
  | .ok now => some ((act config db now c).getD (db, none))
  | .error => some (db, none)

def service (config : Config) : Service Db Call Request Answer where
  start db r := some (db, start r)
  resume := resume config

end BlockMiner.Shortlink
