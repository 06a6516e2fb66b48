import Mathlib.Algebra.Order.Floor.Ring
import Mathlib.Data.List.Sort
import Mathlib.Data.Rat.Floor
import BlockMiner.Engine
import BlockMiner.Service

/-!
# The BLK reward cycle

`runBlkRewardCycle` of `services/blkRewardDistributionService.js`: every
interval, a fixed amount of BLK is split among the users who mine for BLK, in
proportion to their hash rates. A call awaits the configuration, the look for
an earlier cycle of its window, the eligible users, their hash rates and the
transaction in which it pays; calls overlap in between. What a call has
computed before an await is kept in its `Job`.

Numbers are exact. The configuration a call has read and the hash rates that
`syncUserBaseHashRate` answers are part of the labels. `updateUser` stands
for the endpoints that write the columns by which users are selected.

`entries` in a cycle is not a column: it is the list the cycle was planned
for, kept for the statements to talk about.
-/

namespace BlockMiner.BlkCycle

/-! ## Tables -/

structure User where
  isBanned : Bool
  miningPayoutMode : PayoutMode
  lastHeartbeatAt : Option ℤ
  lastLoginAt : Option ℤ
  blkBalance : ℚ

/-- An eligible user with the hash rate found for it. -/
structure Entry where
  userId : ℕ
  hashrate : ℚ
deriving DecidableEq

structure BlkRewardCycle where
  windowStart : ℤ
  totalHashrate : ℚ
  totalReward : ℚ
  distributed : ℚ
  minerCount : ℕ
  entries : List Entry
deriving DecidableEq

structure BlkRewardLog where
  cycleId : ℕ
  userId : ℕ
  hashrate : ℚ
  shareBps : ℤ
  amount : ℚ
deriving DecidableEq

structure Db where
  users : Table User
  /-- `windowStart` is unique. -/
  cycles : Table BlkRewardCycle
  logs : List BlkRewardLog

/-- The columns of the economy configuration a cycle reads. -/
structure CycleConfig where
  blkCycleReward : ℚ
  blkCycleIntervalSec : ℕ
  blkCycleActivitySec : ℕ
  blkCycleMinHashrate : ℚ
  blkCyclePaused : Bool
  blkCycleBoost : ℚ

/-! ## Helpers -/

def FLOOR_EPS : ℚ := 1 / 10 ^ 12

def floor8 (x : ℚ) : ℚ := if 0 < x then ⌊x * 10 ^ 8 + FLOOR_EPS⌋ / 10 ^ 8 else 0

def floorUtcEpochBucket (date : ℤ) (intervalSec : ℕ) : ℤ :=
  date / (intervalSec * 1000) * (intervalSec * 1000)

/-- The `where` of `fetchActivityEligibleUserIds`. -/
def isEligible (cutoff : ℤ) (u : User) : Bool :=
  !u.isBanned && u.miningPayoutMode = .blk
    && (u.lastHeartbeatAt.any (cutoff ≤ ·) || u.lastLoginAt.any (cutoff ≤ ·))

def fetchActivityEligibleUserIds (db : Db) (now : ℤ) (activitySec : ℕ) : List ℕ :=
  (db.users.findMany fun _ u => isEligible (now - activitySec * 1000) u).map (·.1)

/-- `snapshotHashrates`, the filter by `minHr`, and the sort by user id. -/
def sortedEntries (userIds : List ℕ) (hashrate : ℕ → ℚ) (minHr : ℚ) : List Entry :=
  ((userIds.map fun userId => (⟨userId, hashrate userId⟩ : Entry)).filter
    fun e => minHr < e.hashrate).insertionSort (·.userId ≤ ·.userId)

def totalHr (entries : List Entry) : ℚ := (entries.map (·.hashrate)).sum

structure Planned where
  userId : ℕ
  hashrate : ℚ
  shareBps : ℤ
  amount : ℚ
deriving DecidableEq

/-- `Math.round` rounds halves up. -/
def shareBps (hashrate total : ℚ) : ℤ := min 10000 (max 0 ⌊hashrate / total * 10000 + 1 / 2⌋)

/-- What is pushed for an entry: nothing for an amount that is not positive. -/
def pushPlanned (total : ℚ) (e : Entry) (amount : ℚ) (planned : List Planned) : List Planned :=
  if amount ≤ 0 then planned
  else ⟨e.userId, e.hashrate, shareBps e.hashrate total, amount⟩ :: planned

/-- The share of an entry that is not the last one. -/
def idealShare (totalReward total : ℚ) (e : Entry) : ℚ :=
  floor8 (totalReward * (e.hashrate / total))

/-- The planning loop from some entry on, with the remainder it has there. -/
def planLoop (totalReward total : ℚ) : List Entry → ℚ → List Planned
  | [], _ => []
  | [e], remaining => pushPlanned total e (floor8 remaining) []
  | e :: e' :: entries, remaining =>
      let amount := idealShare totalReward total e
      pushPlanned total e amount
        (planLoop totalReward total (e' :: entries) (floor8 (remaining - amount)))

def plan (totalReward : ℚ) (entries : List Entry) : List Planned :=
  planLoop totalReward (totalHr entries) entries totalReward

/-! ## The transaction -/

/-- The row of a planned payment in the log. -/
def Planned.log (cycleId : ℕ) (p : Planned) : BlkRewardLog :=
  ⟨cycleId, p.userId, p.hashrate, p.shareBps, p.amount⟩

/-- One round of the payment loop; the update throws for a missing user. -/
def payPlanned (cycleId : ℕ) (db : Db) (p : Planned) : Option Db :=
  (db.users.row p.userId).map fun _ =>
    { db with
      users := db.users.modify p.userId fun u => { u with blkBalance := u.blkBalance + p.amount }
      logs := db.logs ++ [p.log cycleId] }

def payAll (cycleId : ℕ) : List Planned → Db → Option Db
  | [], db => some db
  | p :: planned, db => (payPlanned cycleId db p).bind (payAll cycleId planned)

/-- `create` of a cycle; `none` where the window is taken. -/
def createCycle (db : Db) (c : BlkRewardCycle) : Option Db :=
  if db.cycles.rows.any fun r => r.2.windowStart = c.windowStart then none
  else some { db with cycles := db.cycles.insert c }

/-- From the hash rates to the end of the call. Where it is `none` the
transaction has thrown and nothing is written. -/
def payWindow (windowStart : ℤ) (totalReward : ℚ) (entries : List Entry) (db : Db) : Option Db :=
  let total := totalHr entries
  if total ≤ 0 ∨ entries = [] then
    createCycle db
      { windowStart, totalHashrate := 0, totalReward, distributed := 0, minerCount := 0,
        entries }
  else
    let planned := plan totalReward entries
    if planned = [] then
      createCycle db
        { windowStart, totalHashrate := total, totalReward, distributed := 0, minerCount := 0,
          entries }
    else
      (createCycle db
        { windowStart, totalHashrate := total, totalReward,
          distributed := floor8 (planned.map (·.amount)).sum, minerCount := planned.length,
          entries }).bind (payAll db.cycles.nextId planned)

/-! ## The service -/

/-- What a call has computed from its configuration. -/
structure Job where
  windowStart : ℤ
  totalReward : ℚ
  minHr : ℚ
  activitySec : ℕ

inductive Call where
  | existing (job : Job)
  | eligible (job : Job)
  | hashrates (job : Job) (userIds : List ℕ)
  | pay (job : Job) (entries : List Entry)

inductive Request where
  | runBlkRewardCycle (config : CycleConfig) (now : ℤ) (windowStart : Option ℤ)
  | updateUser (userId : ℕ) (isBanned : Bool) (miningPayoutMode : PayoutMode)
      (lastHeartbeatAt lastLoginAt : Option ℤ)

/-- What an await answers: the users come in any order. -/
inductive Answer where
  | found
  | users (now : ℤ) (userIds : List ℕ)
  | hashrates (hashrate : ℕ → ℚ)
  | committed
  | error

/-- The `options.windowStart` or the window of `now`; `|| 600` and the like
replace a configured zero. -/
def CycleConfig.job (config : CycleConfig) (now : ℤ) (windowStart : Option ℤ) : Job where
  windowStart := windowStart.getD
    (floorUtcEpochBucket now (Engine.orDefault (some config.blkCycleIntervalSec) 600))
  totalReward := floor8 (config.blkCycleReward
    * max 0 (Engine.orDefault (some config.blkCycleBoost) 1))
  minHr := max 0 config.blkCycleMinHashrate
  activitySec := Engine.orDefault (some config.blkCycleActivitySec) 900

def start (db : Db) : Request → Option (Db × List Call)
  | .runBlkRewardCycle config now windowStart =>
      let job := config.job now windowStart
      some (db, if config.blkCyclePaused || job.totalReward ≤ 0 then [] else [.existing job])
  | .updateUser userId isBanned miningPayoutMode lastHeartbeatAt lastLoginAt =>
      some ({ db with
        users := db.users.modify userId fun u =>
          { u with isBanned, miningPayoutMode, lastHeartbeatAt, lastLoginAt } }, [])

def resume (db : Db) : Call → Answer → Option (Db × Option Call)
  | .existing job, .found =>
      if db.cycles.rows.any fun r => r.2.windowStart = job.windowStart then some (db, none)
      else some (db, some (.eligible job))
  | .eligible job, .users now userIds =>
      if userIds.Perm (fetchActivityEligibleUserIds db now job.activitySec) then
        some (db, some (.hashrates job userIds))
      else none
  | .hashrates job userIds, .hashrates hashrate =>
      some (db, some (.pay job (sortedEntries userIds hashrate job.minHr)))
  | .pay job entries, .committed =>
      some ((payWindow job.windowStart job.totalReward entries db).getD db, none)
  | _, .error => some (db, none)
  | _, _ => none

def service : Service Db Call Request Answer := ⟨start, resume⟩

end BlockMiner.BlkCycle
