import Mathlib.Tactic.Ring
import BlockMiner.MachineTrail
import BlockMiner.Service

/-!
# Auto mining GPUs

`controllers/autoMiningGpuController.js`, the first version of auto mining: a
GPU is released to a user with five minutes of credit, and a claim of it takes
the credit, marks the row for a day and puts a temporary machine into the
inventory. A request's queries are steps of their own; the transaction of a
claim updates the row by its id, so it is one step with its other writes.

Every step has a clock, which does not go back. The operations on machines are
those of the machine model, each in one step, and `origin` is the GPU whose
claim has created a machine. Of the hash rate of a user the machines and the
GPUs are modelled; the other three tables are in the hash rate model.
-/

namespace BlockMiner.AutoMiningGpus

open Machines (Trail)

/-- Claims in 24 hours. -/
def DAILY_LIMIT : ℕ := 24

/-- Milliseconds in 24 hours. -/
def DAY_MS : ℕ := 24 * 60 * 60 * 1000

/-- Milliseconds between two releases. -/
def RELEASE_MS : ℕ := 5 * 60 * 1000

/-- Seconds of credit that a GPU costs. -/
def CLAIM_SECONDS : ℤ := 300

structure AutoMiningReward where
  name : String
  gpuHashRate : ℚ
  imageUrl : Option String
  isActive : Bool

structure AutoMiningGpu where
  userId : ℕ
  rewardId : ℕ
  gpuHashRate : ℚ
  isAvailable : Bool
  isClaimed : Bool
  releasedAt : ℕ
  claimedAt : Option ℕ
  expiresAt : Option ℕ

structure AutoMiningGpuLog where
  userId : ℕ
  gpuId : ℕ
  rewardId : ℕ
  gpuHashRate : ℚ
  claimedAt : ℕ
  expiresAt : ℕ

structure Db where
  autoMiningGpu : Table AutoMiningGpu
  autoMiningGpuLog : List AutoMiningGpuLog
  autoMiningSecondsBalance : ℕ → ℤ
  trail : Trail
  /-- The column of `userMiner`, by id. -/
  isActive : ℕ → Bool
  /-- The clock of the last step. -/
  clock : ℕ

structure Env where
  autoMiningReward : Table AutoMiningReward
  machines : Machines.Config

/-- A claim, with the row that it has found. -/
structure Claim where
  userId : ℕ
  gpuId : ℕ
  gpu : AutoMiningGpu
  now : ℕ

/-- A request, by the query it is at. -/
inductive Call where
  | available (userId : ℕ)
  | lastGpu (userId : ℕ)
  | credit (userId now : ℕ)
  | activeReward (userId now : ℕ)
  | create (userId now rewardId : ℕ) (gpuHashRate : ℚ)
  | gpu (userId gpu_id now : ℕ)
  | claims24h (claim : Claim)
  | claimCredit (claim : Claim)
  | gpuWithReward (claim : Claim)
  | commit (claim : Claim) (reward : Option AutoMiningReward)

inductive Request where
  | getAvailableGPUsHandler (userId : ℕ)
  | claimGPUHandler (userId gpu_id : ℕ)
  /-- The seconds that a heartbeat adds. -/
  | heartbeat (userId seconds : ℕ)
  | machine (op : Machines.Op)
  | toggleMachine (userId machineId : ℕ) (isActive : Bool)

/-- `row` is the row that `findFirst` answers, if any. -/
inductive Answer where
  | ok
  | row (found : Option ℕ)
  | error

/-! ## The handlers -/

section Handlers

variable (env : Env) (db : Db)

def isReleased (userId : ℕ) (g : AutoMiningGpu) : Bool :=
  g.userId = userId && !g.isClaimed && g.isAvailable

def lastReleasedAt (userId : ℕ) : Option ℕ :=
  ((db.autoMiningGpu.findMany fun _ g => g.userId = userId).map (·.2.releasedAt)).max?

def isClaimable (userId : ℕ) (g : AutoMiningGpu) : Bool := g.userId = userId && !g.isClaimed

/-- The claims in the 24 hours up to `now`. -/
def claims24h (userId now : ℕ) : ℕ :=
  (db.autoMiningGpu.findMany fun _ g =>
    g.userId = userId && g.isClaimed && g.claimedAt.any (now < · + DAY_MS)).length

/-- May `findFirst` answer this for the active reward? -/
def findsReward : Option ℕ → Bool
  | none => (env.autoMiningReward.findMany fun _ r => r.isActive).isEmpty
  | some id => (env.autoMiningReward.row id).any (·.isActive)

def createGpu (userId now rewardId : ℕ) (gpuHashRate : ℚ) : Db :=
  { db with
    autoMiningGpu := db.autoMiningGpu.insert
      { userId, rewardId, gpuHashRate, isAvailable := true, isClaimed := false, releasedAt := now
        claimedAt := none, expiresAt := none } }

/-- The temporary machine of a claim. -/
def temporaryMachine (gpu : AutoMiningGpu) (reward : Option AutoMiningReward) :
    Machines.Snapshot where
  minerId := none
  minerName := (Machines.truthy (reward.map (·.name))).getD "Pulse GPU v1"
  level := 1
  hashRate := gpu.gpuHashRate
  slotSize := 1
  imageUrl := some ((Machines.truthy (reward.bind (·.imageUrl))).getD "/machines/reward2.png")

/-- The transaction of a claim; `update` throws where the row is gone. -/
def claimGpu (c : Claim) (reward : Option AutoMiningReward) : Option Db :=
  if (db.autoMiningGpu.row c.gpuId).isNone then none
  else
    let expiresAt := c.now + DAY_MS
    some { db with
      autoMiningGpu := db.autoMiningGpu.modify c.gpuId fun g =>
        { g with isClaimed := true, claimedAt := some c.now, expiresAt := some expiresAt }
      autoMiningSecondsBalance := Function.update db.autoMiningSecondsBalance c.userId
        (db.autoMiningSecondsBalance c.userId - CLAIM_SECONDS)
      trail :=
        { db := db.trail.db.createInventoryWithOwnedMachine c.userId
            (temporaryMachine c.gpu reward) (some expiresAt)
          origin := Function.update db.trail.origin
            (Machines.nextPlace db.trail.db .INVENTORY) (some c.gpuId) }
      autoMiningGpuLog :=
        { userId := c.userId, gpuId := c.gpuId, rewardId := c.gpu.rewardId
          gpuHashRate := c.gpu.gpuHashRate, claimedAt := c.now, expiresAt }
          :: db.autoMiningGpuLog }

/-- A machine that is put into a rack is on. -/
def machineOp (op : Machines.Op) : Option Db :=
  (db.trail.exec env.machines op).toOption.map fun trail =>
    { db with
      trail
      isActive := fun id =>
        if id < db.trail.db.userMiner.nextId then db.isActive id else true }

def start (r : Request) (now : ℕ) : Option (Db × List Call) :=
  match r with
  | .getAvailableGPUsHandler userId => some (db, [.available userId])
  | .claimGPUHandler userId gpu_id =>
      some (db, if gpu_id = 0 then [] else [.gpu userId gpu_id now])
  | .heartbeat userId seconds => some
      ({ db with
          autoMiningSecondsBalance := Function.update db.autoMiningSecondsBalance userId
            (db.autoMiningSecondsBalance userId + seconds) }, [])
  | .machine op => (machineOp env db op).map fun db => (db, [])
  | .toggleMachine userId machineId isActive =>
      (db.trail.db.getMachineById userId machineId).map fun _ =>
        ({ db with isActive := Function.update db.isActive machineId isActive }, [])

/-- What a query finds, at `now`; `none` inside where the handler answers. -/
def query (now : ℕ) : Call → Answer → Option (Option Call)
  | .available userId, .ok =>
      some (if (db.autoMiningGpu.findMany fun _ g => isReleased userId g).isEmpty then
        some (.lastGpu userId) else none)
  | .lastGpu userId, .ok =>
      some (if (lastReleasedAt db userId).all (· + RELEASE_MS ≤ now) then
        some (.credit userId now) else none)
  | .credit userId now, .ok =>
      some (if CLAIM_SECONDS ≤ db.autoMiningSecondsBalance userId then
        some (.activeReward userId now) else none)
  | .activeReward userId now, .row found =>
      if findsReward env found then
        some ((found.bind fun id => env.autoMiningReward.row id).bind fun reward =>
          found.map fun id => .create userId now id reward.gpuHashRate)
      else none
  | .gpu userId gpu_id now, .ok =>
      some (((db.autoMiningGpu.row gpu_id).filter (isClaimable userId)).map fun gpu =>
        .claims24h ⟨userId, gpu_id, gpu, now⟩)
  | .claims24h c, .ok =>
      some (if DAILY_LIMIT ≤ claims24h db c.userId c.now then none else some (.claimCredit c))
  | .claimCredit c, .ok =>
      some (if db.autoMiningSecondsBalance c.userId < CLAIM_SECONDS then none
        else some (.gpuWithReward c))
  | .gpuWithReward c, .ok => some (some (.commit c (env.autoMiningReward.row c.gpu.rewardId)))
  | _, _ => none

def write : Call → Answer → Option Db
  | .create userId now rewardId gpuHashRate, .ok =>
      some (createGpu db userId now rewardId gpuHashRate)
  | .commit c reward, .ok => some ((claimGpu db c reward).getD db)
  | _, _ => none

def resume (c : Call) (answer : Answer) (now : ℕ) : Option (Db × Option Call) :=
  match answer with
  | .error => some (db, none)
  | answer =>
      match write db c answer with
      | some db' => some (db', none)
      | none => (query env db now c answer).map fun next => (db, next)

/-- The clock does not go back. -/
def onTime (now : ℕ) : Option Db := if db.clock ≤ now then some { db with clock := now } else none

end Handlers

def service (env : Env) : Service Db Call (Request × ℕ) (Answer × ℕ) where
  start db r := (onTime db r.2).bind fun db => start env db r.1 r.2
  resume db c a := (onTime db a.2).bind fun db => resume env db c a.1 a.2

/-! ## The hash rate -/

section Sums

variable (db : Db) (u now : ℕ)

def activeMiners : List (ℕ × Machines.UserMiner) :=
  db.trail.db.userMiner.findMany fun id m => m.userId = u && db.isActive id

def gpuPowers : List (ℕ × AutoMiningGpu) :=
  db.autoMiningGpu.findMany fun _ g =>
    g.userId = u && g.isClaimed && g.expiresAt.any (now < ·)

/-- `others` is what the games, the videos and the grants of the second version add. -/
def syncUserBaseHashRate (others : ℚ) : ℚ :=
  ((activeMiners db u).map (·.2.specs.hashRate)).sum + others
    + ((gpuPowers db u now).map (·.2.gpuHashRate)).sum

/-- The machines among the summands that come from the claim of a GPU. -/
def machinesOf (gpuId : ℕ) : List (ℕ × Machines.UserMiner) :=
  (activeMiners db u).filter fun m => db.trail.origin (.RACK, m.1) = some gpuId

/-- The rows of the GPU itself. -/
def powersOf (gpuId : ℕ) : List (ℕ × AutoMiningGpu) :=
  (gpuPowers db u now).filter fun g => g.1 = gpuId

/-- How many of the summands come from the claim of a GPU. -/
def counted (gpuId : ℕ) : ℕ := (machinesOf db u gpuId).length + (powersOf db u now gpuId).length

/-- The sum, apart from these summands, is that of the others. -/
theorem sync_split (others : ℚ) (gpuId : ℕ) :
    syncUserBaseHashRate db u now others
      = ((machinesOf db u gpuId).map (·.2.specs.hashRate)).sum
        + ((powersOf db u now gpuId).map (·.2.gpuHashRate)).sum
        + (((activeMiners db u).filter fun m =>
            !decide (db.trail.origin (.RACK, m.1) = some gpuId)).map (·.2.specs.hashRate)).sum
        + others
        + (((gpuPowers db u now).filter fun g =>
            !decide (g.1 = gpuId)).map (·.2.gpuHashRate)).sum := by
  have hmachines := ((List.filter_append_perm (fun m : ℕ × Machines.UserMiner =>
    decide (db.trail.origin (.RACK, m.1) = some gpuId)) (activeMiners db u)).map
      (·.2.specs.hashRate)).sum_eq
  have hpowers := ((List.filter_append_perm (fun g : ℕ × AutoMiningGpu => decide (g.1 = gpuId))
    (gpuPowers db u now)).map (·.2.gpuHashRate)).sum_eq
  rw [List.map_append, List.sum_append] at hmachines hpowers
  rw [syncUserBaseHashRate, ← hmachines, ← hpowers]
  unfold machinesOf powersOf
  ring

end Sums

end BlockMiner.AutoMiningGpus
