import BlockMiner.EngineLedger
import BlockMiner.Machines
import BlockMiner.Minigame
import BlockMiner.SocketGames
import BlockMiner.WatchTime

/-!
# The hash rate of a user, in the database and in the engine

`models/minerProfileModel.js` adds up the hash rate of a user from five
tables; the engine keeps the sum as the `baseHashRate` of the loaded miner.
The operations that change the tables refresh it, each in its own way: from
the sum, for the miner they find, or by a reload of the profile. An `Op` is
one of them, run to completion; `step` is `none` where it is refused.

The tables are those of the models of the operations. The rest of an
operation's queries are taken to see the instant of its first, but for the
sum, which has an instant of its own. What is emitted to the client is left
out.
-/

namespace BlockMiner.HashRate

/-! ## Tables -/

structure AutoMiningGpu where
  userId : UserId
  gpuHashRate : ℚ
  isClaimed : Bool
  expiresAt : Option ℤ

structure AutoMiningV2PowerGrant where
  userId : UserId
  hashRate : ℚ
  expiresAt : ℤ

/-- The columns of a user that the profile shows, but for the balance. -/
structure UserColumns where
  miningPayoutMode : PayoutMode
  refCode : Option String
  referrals : ℕ

structure Db where
  machines : Machines.Db
  /-- The column of `userMiner`, by id. -/
  isActive : ℕ → Bool
  minigame : Minigame.Db
  games : SocketGames.Db
  watch : WatchTime.Db
  autoMiningGpu : List AutoMiningGpu
  /-- `none` where the tables of the second version are not there. -/
  autoMiningV2PowerGrant : Option (List AutoMiningV2PowerGrant)
  columns : UserId → UserColumns

structure State where
  /-- The engine, and the balances in the table. -/
  world : World
  db : Db

/-- Random uuids are texts with dashes. -/
structure Uuid where
  text : MinerId → String
  dashed : ∀ id, '-' ∈ (text id).toList

structure Env where
  machines : Machines.Config
  minigame : Minigame.Env
  games : SocketGames.Config
  watch : WatchTime.Env
  uuid : Uuid

/-! ## The sum -/

section Sums

variable (db : Db) (u : UserId) (now : ℤ)

/-- The machines that are on. -/
def activeMiners : List Machines.UserMiner :=
  (db.machines.userMiner.findMany fun id m => m.userId = u ∧ db.isActive id).map (·.2)

/-- `gamePowers`; the powers of the games over sockets have 50 H/s each. -/
def gamePowers : List ℚ :=
  ((db.minigame.powers.filter fun g => g.userId = u ∧ now < g.expiresAt).map fun g =>
      (g.hashRate : ℚ))
    ++ (db.games.powers.filter fun g => g.userId = u ∧ now < g.expiresAt).map fun _ => 50

def ytPowers : List WatchTime.YoutubeWatchPower :=
  (db.watch.powers.findMany fun _ y => y.userId = u ∧ now < y.expiresAt).map (·.2)

def gpuPowers : List AutoMiningGpu :=
  db.autoMiningGpu.filter fun p => p.userId = u ∧ p.isClaimed ∧ p.expiresAt.any (now < ·)

def autoMiningV2Grants : List AutoMiningV2PowerGrant :=
  (db.autoMiningV2PowerGrant.getD []).filter fun g => g.userId = u ∧ now < g.expiresAt

def machineHashRate : ℚ := ((activeMiners db u).map (·.specs.hashRate)).sum

def gameHashRate : ℚ := (gamePowers db u now).sum

def ytHashRate : ℚ := ((ytPowers db u now).map fun y => (y.hashRate : ℚ)).sum

def gpuHashRate : ℚ :=
  ((gpuPowers db u now).map (·.gpuHashRate)).sum
    + ((autoMiningV2Grants db u now).map (·.hashRate)).sum

def syncUserBaseHashRate : ℚ :=
  machineHashRate db u + gameHashRate db u now + ytHashRate db u now + gpuHashRate db u now

end Sums

/-! ## The profile -/

/-- A user without a referral code gets a new one. -/
def ensureRefCode (s : State) (u : UserId) (newRefCode : String) : State :=
  match (s.db.columns u).refCode.filter (· ≠ "") with
  | some _ => s
  | none =>
      { s with
        db := { s.db with
          columns := Function.update s.db.columns u
            { s.db.columns u with refCode := some newRefCode } } }

/-- The profile read by `getOrCreateMinerProfile`, of a user with a referral
code. -/
def profileOf (s : State) (u : UserId) (now : ℤ) : Engine.Profile where
  rigs := some (activeMiners s.db u).length
  base_hash_rate := some (machineHashRate s.db u + gameHashRate s.db u now + ytHashRate s.db u now
    + gpuHashRate s.db u now)
  balance := some (s.world.polBalance u)
  refCode := (s.db.columns u).refCode
  referralCount := some (s.db.columns u).referrals
  mining_payout_mode := some (s.db.columns u).miningPayoutMode
  miningPayoutMode := some (s.db.columns u).miningPayoutMode

/-- `reloadMinerProfile`, with its loader; the user is in the table. -/
def reloadMinerProfile (s : State) (u : UserId) (newRefCode : String) (now : ℤ) : State :=
  let s := ensureRefCode s u newRefCode
  { s with
    world := { s.world with
      engine := s.world.engine.reloadMinerProfile u (some (profileOf s u now)) } }

/-! ## Writes to the engine -/

/-- `if (miner) miner.baseHashRate = total;` -/
def setBaseHashRate (w : World) (miner : Option Miner) (total : ℚ) : World :=
  match miner with
  | none => w
  | some m =>
      { w with engine := w.engine.modifyMiner m.id fun m => { m with baseHashRate := total } }

/-- `engine.miners.get(key)`; the keys are uuids. -/
def minersGet (uuid : Uuid) (e : Engine) (key : String) : Option Miner :=
  (e.store.miners.entries.find? fun entry => uuid.text entry.1 = key).map (·.2)

/-- `syncUserBaseHashRate`, for the miner that `findMinerByUserId` finds. -/
def syncFound (s : State) (u : UserId) (now : ℤ) : State :=
  { s with
    world := setBaseHashRate s.world (s.world.engine.findMinerByUserId u)
      (syncUserBaseHashRate s.db u now) }

/-! ## Operations -/

inductive Op where
  /-- A success, for the session under `id`; `confirmed` is the check-in of
  the day. -/
  | finishGame (socket id : ℕ) (confirmed : Bool) (now : ℤ)
  | completeMinigameSession (u sid : ℕ) (clientMeta : Minigame.ClientMeta) (now : ℤ)
  | claimReward (u : UserId) (videoId : String) (now : ℤ)
  /-- `isActive` may be left out. -/
  | toggleMachine (u : UserId) (machineId : ℕ) (isActive : Option Bool)
  | removeMachine (u : UserId) (machineId : ℕ)
  | moveMachine (u : UserId) (machineId targetSlotIndex : ℕ)
  | installMiner (u : UserId) (rackId inventoryId : ℕ)
  | uninstallMiner (u : UserId) (rackId : ℕ)
  /-- With the reload that follows. -/
  | upgradeRig (minerId : MinerId)

section Operations

variable (env : Env) (s : State)

/-- `finishGame` of a success, up to its sync. -/
def finishGame (socket id : ℕ) (confirmed : Bool) (now syncedAt : ℤ) : Option State :=
  (s.db.games.sessions.row id).bind fun state =>
    match SocketGames.finishGame s.db.games socket id state true now with
    | (games, [.findCheckin win]) =>
        let expiresAt := now + SocketGames.powerDays env.games confirmed * 24 * 60 * 60 * 1000
        let db := { s.db with games := SocketGames.createPower games win now expiresAt now }
        some
          { db
            world := setBaseHashRate s.world
              (minersGet env.uuid s.world.engine (toString state.userId))
              (syncUserBaseHashRate db state.userId syncedAt) }
    | _ => none

def completeMinigameSession (u sid : ℕ) (clientMeta : Minigame.ClientMeta) (now syncedAt : ℤ) :
    Option State :=
  match Minigame.completeMinigameSession env.minigame s.db.minigame u sid clientMeta now with
  | (minigame, .ok idempotent ..) =>
      let s := { s with db := { s.db with minigame } }
      some (if idempotent then s else syncFound s u syncedAt)
  | _ => none

/-- The claim of a YouTube reward. -/
def claimReward (u : UserId) (videoId : String) (now syncedAt : ℤ) : Option State :=
  if videoId = "" ∨ !WatchTime.enoughWatched s.db.watch u
      ∨ WatchTime.dailyLimitReached s.db.watch u now then none
  else (env.watch.expiresAt now).map fun expiresAt =>
    let watch := WatchTime.grantReward s.db.watch ⟨u, videoId, now⟩ expiresAt now
    syncFound { s with db := { s.db with watch } } u syncedAt

def toggleMachine (u : UserId) (machineId : ℕ) (isActive : Option Bool) : Option State :=
  (s.db.machines.getMachineById u machineId).map fun _ =>
    { s with
      db := { s.db with
        isActive := Function.update s.db.isActive machineId
          (isActive.getD (s.db.isActive machineId)) } }

/-- The operations on machines that are in the machine model. -/
def machineOp (op : Machines.Op) : Option State :=
  (Machines.exec env.machines s.db.machines op).toOption.map fun machines =>
    { s with db := { s.db with machines } }

/-- A machine is installed switched on. -/
def installMiner (u : UserId) (rackId inventoryId : ℕ) : Option State :=
  (machineOp env s (.installMiner u rackId inventoryId)).map fun s' =>
    { s' with
      db := { s'.db with
        isActive := Function.update s'.db.isActive s.db.machines.userMiner.nextId true } }

/-- The handler of the purchase writes the balance back if it went through. -/
def upgradeRig (minerId : MinerId) : State :=
  let (engine, reply) := s.world.engine.upgradeRig minerId
  let world := { s.world with engine }
  { s with world := if reply.ok then world.persistMinerProfile minerId else world }

/-- One completed operation. The instant of the sum, and a code for a user
without one, come with it. -/
def step (op : Op) (syncedAt : ℤ) (newRefCode : String) : Option State :=
  let reload := fun (u : UserId) (s : State) => reloadMinerProfile s u newRefCode syncedAt
  match op with
  | .finishGame socket id confirmed now => finishGame env s socket id confirmed now syncedAt
  | .completeMinigameSession u sid clientMeta now =>
      completeMinigameSession env s u sid clientMeta now syncedAt
  | .claimReward u videoId now => claimReward env s u videoId now syncedAt
  | .toggleMachine u machineId isActive => (toggleMachine s u machineId isActive).map (reload u)
  | .removeMachine u machineId => (machineOp env s (.removeMachine u machineId)).map (reload u)
  | .moveMachine u machineId targetSlotIndex =>
      (machineOp env s (.moveMachine u machineId targetSlotIndex)).map (reload u)
  | .installMiner u rackId inventoryId => (installMiner env s u rackId inventoryId).map (reload u)
  | .uninstallMiner u rackId => (machineOp env s (.uninstallMiner u rackId)).map (reload u)
  | .upgradeRig minerId =>
      (s.world.engine.miner? minerId).map fun m => reload m.userId (upgradeRig s minerId)

end Operations

/-- The user of an operation. -/
def Op.user (s : State) : Op → Option UserId
  | .finishGame _ id _ _ => (s.db.games.sessions.row id).map (·.userId)
  | .completeMinigameSession u .. | .claimReward u .. | .toggleMachine u .. | .removeMachine u _
  | .moveMachine u .. | .installMiner u .. | .uninstallMiner u _ => some u
  | .upgradeRig minerId => (s.world.engine.miner? minerId).map (·.userId)

end BlockMiner.HashRate
