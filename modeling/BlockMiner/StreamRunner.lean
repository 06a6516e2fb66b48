import BlockMiner.Service
import Mathlib

/-!
# The stream runner

`streamRunner.js` with `streamRestartPolicy.js`, for one destination: the maps
`active`, `starting` and `pendingRestartTimers` at its id, its row, the
pipelines that were started for it, and the handlers of
`adminYoutubeStreamController.js` that start and stop it.

A query is a wait of two parts: the database executes it, or refuses to, and
then what it found gets to the code that waits for it (`asked`, `answered`).
`updateRow` goes on when an update is refused. Between two awaits a handler
runs in one step. `startLiveRtmpPipeline` answers with a pipeline or with the
message of its failure; a pipeline is an ffmpeg process, which is asked to stop
at once when `stop` is called and exits whenever it does. `patch` and `remove`
are the only queries of the other handlers that change what is read here.

A pipeline is live while its process runs and has not been asked to stop. The
last three fields of the state are not in the source: `stopped` from a stop
that finds `desiredRunning` cleared until it is set again, and the automatic
starts and the failures since the last start that succeeded.
-/

namespace BlockMiner.StreamRunner

/-! ## The restart policy -/

def RESTART_DELAYS_MS : List ℤ := [8000, 16000, 32000, 60000, 120000]

def MAX_AUTO_RESTART_ATTEMPTS : ℤ := 25

def restartDelayMsForAttempt (attempt : ℤ) : ℤ :=
  let i := min (max 0 attempt) (RESTART_DELAYS_MS.length - 1)
  RESTART_DELAYS_MS.getD i.toNat 0

/-- `/text/i.test(message)`. -/
def mentions (message text : String) : Bool :=
  decide (text.toList.map Char.toLower <:+: message.toList.map Char.toLower)

def isPermanentStreamStartFailure (message : String) : Bool :=
  ["STREAM_CAPTURE_DISABLED", "STREAM_UNSUPPORTED_OS", "Missing stream key",
    "STREAM_ENCRYPTION_KEY", "Invalid stream key configuration"].any (mentions message)

/-! ## The state -/

inductive Status where
  | OFFLINE | STARTING | ONLINE | ERROR
deriving DecidableEq

structure StreamDestination where
  enabled : Bool
  desiredRunning : Bool
  lastWorkerStatus : Status
  lastStartedAt : Option ℤ
  /-- `getDecryptedStreamCredentials` finds a key. -/
  credentials : Bool

/-- The columns of an update that are read again. -/
structure Update where
  desiredRunning : Option Bool := none
  lastWorkerStatus : Option Status := none
  lastStartedAt : Option ℤ := none

def StreamDestination.update (row : StreamDestination) (data : Update) : StreamDestination :=
  { row with
    desiredRunning := data.desiredRunning.getD row.desiredRunning
    lastWorkerStatus := data.lastWorkerStatus.getD row.lastWorkerStatus
    lastStartedAt := data.lastStartedAt <|> row.lastStartedAt }

/-- What a reconciliation finds of a row that no pipeline is recorded for. -/
inductive Stale where
  | lost
  | notWanted
  | hung

def Stale.data : Stale → Update
  | .lost => { lastWorkerStatus := some .OFFLINE }
  | .notWanted => { desiredRunning := some false, lastWorkerStatus := some .OFFLINE }
  | .hung => { lastWorkerStatus := some .ERROR }

structure Pipeline where
  running : Bool
  stopAsked : Bool
  /-- Of the start it is from, as its exit handler remembers it. -/
  retryParentAttempt : ℤ

structure Timer where
  attempt : ℤ
  dueAt : ℤ

structure State where
  row : Option StreamDestination
  active : Option ℕ
  starting : Bool
  pending : Option Timer
  pipelines : Table Pipeline
  clock : ℤ
  stopped : Bool
  automatic : ℕ
  failures : ℕ

/-! ## Queries -/

inductive Query where
  | findUnique
  | update (data : Update)

inductive Reply where
  | row (row : Option StreamDestination)
  | failed

/-- The query that a handler is at. -/
inductive Await where
  | envRow (retryParentAttempt : ℤ)
  | envRetry (retryParentAttempt : ℤ)
  | envStop
  | row (retryParentAttempt : ℤ)
  | noCredentials
  | markStarting (retryParentAttempt startedAt : ℤ)
  | markOnline
  | failedRow (retryParentAttempt : ℤ) (permanent : Bool)
  | failedRetry (retryParentAttempt : ℤ)
  | failedStop
  | exitRow (retryParentAttempt : ℤ)
  | exitOffline
  | exitRetry (retryParentAttempt : ℤ)
  | afterFailure (completedAttempt : ℤ)
  | limit
  | markOffline
  | postStartRow
  | postStartUpdate
  | postStopUpdate
  | reconcileList (watchdog : Bool)
  | reconcileUpdate (watchdog : Bool) (stale : Stale)
  | watchdogList

def Await.query : Await → Query
  | .envRow _ | .row _ | .failedRow .. | .exitRow _ | .afterFailure _ | .postStartRow
  | .reconcileList _ | .watchdogList => .findUnique
  | .envRetry _ | .failedRetry _ | .exitRetry _ => .update { lastWorkerStatus := some .ERROR }
  | .envStop | .noCredentials | .failedStop | .limit =>
      .update { desiredRunning := some false, lastWorkerStatus := some .ERROR }
  | .markStarting _ startedAt =>
      .update { lastWorkerStatus := some .STARTING, lastStartedAt := some startedAt }
  | .markOnline => .update { lastWorkerStatus := some .ONLINE }
  | .exitOffline | .markOffline => .update { lastWorkerStatus := some .OFFLINE }
  | .postStartUpdate => .update { desiredRunning := some true, lastWorkerStatus := some .STARTING }
  | .postStopUpdate => .update { desiredRunning := some false }
  | .reconcileUpdate _ stale => .update stale.data

inductive Call where
  | asked (k : Await)
  | answered (k : Await) (reply : Reply)
  | launching (retryParentAttempt : ℤ)
  | stopping
  /-- The loop of a reconciliation gets to the row it has read. -/
  | reconcileVisit (watchdog : Bool) (row : StreamDestination)
  /-- The loop of the watchdog gets to the row it has read. -/
  | visit (row : StreamDestination)

section Handlers

variable (db : State)

def execute : Query → State × Reply
  | .findUnique => (db, .row db.row)
  | .update data =>
      match db.row with
      | none => (db, .failed)
      | some row =>
          ({ db with
            row := some (row.update data)
            stopped := db.stopped && data.desiredRunning ≠ some true },
            .row (some (row.update data)))

/-! ## Starting -/

/-- What the `finally` of a start does. -/
def ended : State := { db with starting := false }

def startStreamForDestination (retryParentAttempt : ℤ) (envOk : Bool) : State × Option Call :=
  if db.active.isSome ∨ db.starting then (db, none)
  else ({ db with starting := true },
    some (.asked (if envOk then .row retryParentAttempt else .envRow retryParentAttempt)))

/-- A start by a timer or by the watchdog. -/
def automaticStart (retryParentAttempt : ℤ) (envOk : Bool) : State × Option Call :=
  let (db, next) := startStreamForDestination db retryParentAttempt envOk
  (if next.isSome then { db with automatic := db.automatic + 1 } else db, next)

def afterStreamStartFailure (completedAttempt : ℤ) : State × Option Call :=
  ({ db with failures := db.failures + 1 }, some (.asked (.afterFailure completedAttempt)))

def scheduleDesiredStreamRestart (attempt now : ℤ) : State × Option Call :=
  if MAX_AUTO_RESTART_ATTEMPTS ≤ attempt then (db, some (.asked .limit))
  else ({ db with pending := some ⟨attempt, now + restartDelayMsForAttempt attempt⟩ }, none)

/-- The row has been read; what follows clears the timer and goes on. -/
def started (retryParentAttempt now : ℤ) : Option StreamDestination → State × Option Call
  | none => (ended db, none)
  | some row =>
      if !row.enabled || !row.desiredRunning then (ended db, none)
      else if !row.credentials then (db, some (.asked .noCredentials))
      else ({ db with pending := none }, some (.asked (.markStarting retryParentAttempt now)))

/-- `startLiveRtmpPipeline` has answered. -/
def launched (retryParentAttempt : ℤ) : Option String → State × Option Call
  | some message =>
      (db, some (.asked (.failedRow retryParentAttempt (isPermanentStreamStartFailure message))))
  | none =>
      ({ db with
        pipelines := db.pipelines.insert ⟨true, false, retryParentAttempt⟩
        active := some db.pipelines.nextId
        automatic := 0
        failures := 0 }, some (.asked .markOnline))

/-! ## Stopping, and exits -/

def wanted (row : Option StreamDestination) : Bool := row.any (·.desiredRunning)

def stopStreamForDestination : State × Option Call :=
  let stopped := { db with
    pending := none
    active := none
    stopped := db.stopped || !wanted db.row }
  match db.active with
  | none => (stopped, some (.asked .markOffline))
  | some i =>
      ({ stopped with
        pipelines := db.pipelines.modify i fun p => { p with stopAsked := true } },
        some .stopping)

/-- The exit handler of the pipeline `i`, which is registered once. -/
def exited (i : ℕ) : Option (State × Option Call) :=
  (db.pipelines.row i).bind fun p =>
    if p.running then
      let gone :=
        { db with pipelines := db.pipelines.modify i fun p => { p with running := false } }
      if db.active.isNone then some (gone, none)
      else some ({ gone with active := none }, some (.asked (.exitRow p.retryParentAttempt)))
    else none

/-! ## The watchdog -/

def STALE_STARTING_MS : ℤ := 120000

def reconcileStaleStreamDbState (row : StreamDestination) (now : ℤ) : Option Stale :=
  if db.active.isSome then none
  else match row.lastWorkerStatus with
    | .ONLINE => some (if row.desiredRunning then .lost else .notWanted)
    | .STARTING =>
        let started := row.lastStartedAt.getD 0
        if row.desiredRunning ∧ started ≠ 0 ∧ STALE_STARTING_MS < now - started then
          some .hung
        else none
    | .OFFLINE | .ERROR => none

/-- Where a reconciliation is part of a run of the watchdog, the list follows. -/
def reconciled : Bool → Option Call
  | true => some (.asked .watchdogList)
  | false => none

/-- All four statuses are among those the watchdog starts. -/
def watchdogVisit (envOk : Bool) : State × Option Call :=
  if db.active.isSome ∨ db.starting then (db, none)
  else if db.pending.isSome then (db, none)
  else automaticStart db (-1) envOk

/-! ## Steps -/

def goOn (envOk : Bool) (now : ℤ) : Await → Reply → State × Option Call
  | .envRow _, .failed | .row _, .failed | .failedRow .., .failed => (ended db, none)
  | .envRow p, .row row =>
      (db, some (.asked (if row.any fun row => row.desiredRunning && row.enabled then .envRetry p
        else .envStop)))
  | .row p, .row row => started db p now row
  | .markStarting p _, _ => (db, some (.launching p))
  | .failedRow p permanent, .row row =>
      (db, some (.asked (if permanent || !wanted row then .failedStop else .failedRetry p)))
  | .envRetry p, _ | .failedRetry p, _ => afterStreamStartFailure (ended db) p
  | .envStop, _ | .noCredentials, _ | .failedStop, _ | .markOnline, _ => (ended db, none)
  | .exitRow p, .row (some row) =>
      (db, some (.asked (if row.desiredRunning then .exitRetry p else .exitOffline)))
  | .exitRetry p, _ => afterStreamStartFailure db p
  | .afterFailure p, .row row =>
      if row.any fun row => row.desiredRunning && row.enabled then
        scheduleDesiredStreamRestart db (p + 1) now
      else (db, none)
  | .postStartRow, .row (some row) =>
      (db, if row.enabled then some (.asked .postStartUpdate) else none)
  | .postStartUpdate, .row _ => startStreamForDestination db (-1) envOk
  | .postStopUpdate, .row _ => stopStreamForDestination db
  | .reconcileList watchdog, .row (some row) => (db, some (.reconcileVisit watchdog row))
  | .reconcileList watchdog, _ | .reconcileUpdate watchdog _, _ => (db, reconciled watchdog)
  | .watchdogList, .row (some row) =>
      (db, if row.enabled && row.desiredRunning then some (.visit row) else none)
  | .exitRow _, _ | .exitOffline, _ | .afterFailure _, _ | .limit, _ | .markOffline, _
  | .postStartRow, _ | .postStartUpdate, _ | .postStopUpdate, _ | .watchdogList, _ => (db, none)

inductive Answer where
  | executed (now : ℤ)
  | refused (now : ℤ)
  | arrived (envOk : Bool) (now : ℤ)
  | launched (error : Option String) (now : ℤ)

def Answer.now : Answer → ℤ
  | .executed now | .refused now | .arrived _ now | .launched _ now => now

/-- `none` for an answer that a call cannot get. -/
def answer (now : ℤ) : Call → Answer → Option (State × Option Call)
  | .asked k, .executed _ =>
      let (db, reply) := execute db k.query
      some (db, some (.answered k reply))
  | .asked k, .refused _ => some (db, some (.answered k .failed))
  | .answered k reply, .arrived envOk _ => some (goOn db envOk now k reply)
  | .launching p, .launched error _ => some (launched db p error)
  | .stopping, .arrived _ _ => some (db, some (.asked .markOffline))
  | .reconcileVisit watchdog row, .arrived _ _ =>
      some (db, match reconcileStaleStreamDbState db row now with
        | some stale => some (.asked (.reconcileUpdate watchdog stale))
        | none => reconciled watchdog)
  | .visit _, .arrived envOk _ => some (watchdogVisit db envOk)
  | _, _ => none

inductive Request where
  | start (envOk : Bool) (now : ℤ)
  | stop (now : ℤ)
  | postStart (now : ℤ)
  | postStop (now : ℤ)
  | patch (enabled credentials : Bool) (now : ℤ)
  | remove (now : ℤ)
  | list (now : ℤ)
  | watchdog (now : ℤ)
  | timer (envOk : Bool) (now : ℤ)
  | exit (pipeline : ℕ) (now : ℤ)

def Request.now : Request → ℤ
  | .start _ now | .stop now | .postStart now | .postStop now | .patch _ _ now | .remove now
  | .list now | .watchdog now | .timer _ now | .exit _ now => now

def handle : Request → Option (State × Option Call)
  | .start envOk _ => some (startStreamForDestination db (-1) envOk)
  | .stop _ => some (stopStreamForDestination db)
  | .postStart _ => some (db, some (.asked .postStartRow))
  | .postStop _ => some (db, some (.asked .postStopUpdate))
  | .patch enabled credentials _ =>
      some ({ db with row := db.row.map fun row =>
        { row with enabled := enabled, credentials := credentials } }, none)
  | .remove _ => some ({ db with row := none }, none)
  | .list _ => some (db, some (.asked (.reconcileList false)))
  | .watchdog _ => some (db, some (.asked (.reconcileList true)))
  | .timer envOk now =>
      db.pending.bind fun timer =>
        if timer.dueAt ≤ now then
          some (automaticStart { db with pending := none } timer.attempt envOk)
        else none
  | .exit i _ => exited db i

def start (r : Request) : Option (State × List Call) :=
  if db.clock ≤ r.now then
    (handle { db with clock := r.now } r).map fun out => (out.1, out.2.toList)
  else none

def resume (c : Call) (a : Answer) : Option (State × Option Call) :=
  if db.clock ≤ a.now then answer { db with clock := a.now } a.now c a else none

end Handlers

def service : Service State Call Request Answer where
  start := start
  resume := resume

end BlockMiner.StreamRunner
