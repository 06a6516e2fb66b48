import BlockMiner.MiniPassPeriod
import BlockMiner.Run
import Mathlib.Algebra.Order.Ring.Rat
import Mathlib.Data.Int.Basic

/-!
# Missions and daily tasks

`services/miniPass/miniPassMissionHookService.js` and
`services/dailyTasks/dailyTaskProgressService.js`: a signal (a game played, a
BLK reward, a confirmed check-in) moves the missions of the live seasons and
the active daily tasks of its type, each in a transaction of its own. A
signal is applied once: its dedupe key is unique for each mission and for
each task definition. A completed mission credits its experience under an
idempotency key that is unique in the ledger.

Lists of seasons, missions and definitions are in the order in which the
queries answer them. Numbers are exact, and the clock reads of one
notification give one instant. A constraint error that the code catches has
already aborted its transaction, which is then rolled back by the commit.
`brazilDateKey` is the calendar of the time zone data.

`userId` of a dedupe tick is not a column: it is the user whose notification
wrote the row. The audit log is only written, and left out.
-/

namespace BlockMiner.Missions

open MiniPassPeriod (utcDayKey utcIsoWeekKey)

/-! ## Configuration -/

inductive MissionType where
  | PLAY_GAMES
  | MINE_BLK
  | LOGIN_DAY
deriving DecidableEq

/-- `other` is any other text in the column. -/
inductive Cadence where
  | EVENT
  | DAILY
  | WEEKLY
  | other
deriving DecidableEq

structure Mission where
  id : ℕ
  cadence : Cadence
  missionType : MissionType
  targetValue : ℚ
  xpReward : ℤ
  gameSlug : Option String
  isActive : Bool

structure Season where
  id : ℕ
  startsAt : ℤ
  endsAt : ℤ
  isActive : Bool
  deletedAt : Option ℤ
  missions : List Mission

inductive TaskType where
  | LOGIN_DAY
  | MINE_BLK
  | PLAY_GAMES
  | WATCH_YOUTUBE
  | INTERNAL_OFFERWALL
deriving DecidableEq

structure TaskDefinition where
  id : ℕ
  taskType : TaskType
  targetValue : ℚ
  gameSlug : Option String
  internalOfferwallOfferId : Option ℕ
  isActive : Bool
  validFrom : Option ℤ
  validUntil : Option ℤ

structure Config where
  seasons : List Season
  definitions : List TaskDefinition
  brazilDateKey : ℤ → String

def EVENT_PERIOD_KEY : String := "__EVENT__"

def resolveMissionPeriodKey (brazilDateKey : ℤ → String) (cadence : Cadence)
    (missionType : MissionType) (now : ℤ) : String :=
  if cadence = .EVENT then EVENT_PERIOD_KEY
  else if missionType = .LOGIN_DAY then
    match cadence with
    | .EVENT => EVENT_PERIOD_KEY
    | .WEEKLY => utcIsoWeekKey now
    | .DAILY | .other => brazilDateKey now
  else match cadence with
    | .DAILY => utcDayKey now
    | .WEEKLY => utcIsoWeekKey now
    | .EVENT | .other => EVENT_PERIOD_KEY

def isMiniPassSeasonLive (season : Season) (now : ℤ) : Bool :=
  season.deletedAt.isNone && season.isActive && season.startsAt ≤ now && now ≤ season.endsAt

def loadLiveSeasonsWithMissions (seasons : List Season) (missionType : MissionType) (now : ℤ) :
    List Season :=
  (seasons.filter fun s =>
      s.deletedAt.isNone && s.isActive && s.startsAt ≤ now && now ≤ s.endsAt).map fun s =>
    { s with missions := s.missions.filter fun m => m.isActive && m.missionType = missionType }

/-! ## Tables -/

structure Tick where
  ownerId : ℕ
  dedupeKey : String
  userId : ℕ
deriving DecidableEq

structure Progress where
  currentValue : ℚ
  completedAt : Option ℤ
deriving DecidableEq

structure TaskProgress where
  currentValue : ℚ
  completedAt : Option ℤ
  rewardClaimedAt : Option ℤ
deriving DecidableEq

/-- `source` is always that of a mission here; the type of the mission is the
metadata. -/
structure XpLedgerRow where
  userId : ℕ
  seasonId : ℕ
  amount : ℤ
  idempotencyKey : String
  missionId : ℕ
  periodKey : String
  missionType : MissionType
deriving DecidableEq

/-- Progress is unique by user, mission or task, and period. -/
structure Db where
  missionTicks : List Tick
  missionProgress : ℕ → ℕ → String → Option Progress
  taskTicks : List Tick
  taskProgress : ℕ → ℕ → String → Option TaskProgress
  enrollments : ℕ → ℕ → Option ℤ
  xpLedger : List XpLedgerRow

/-- An upsert under the unique key of a progress row. -/
def setRow {α : Type} (rows : ℕ → ℕ → String → Option α) (userId ownerId : ℕ) (periodKey : String)
    (row : α) : ℕ → ℕ → String → Option α :=
  fun u o p => if u = userId ∧ o = ownerId ∧ p = periodKey then some row else rows u o p

def setEnrollment (rows : ℕ → ℕ → Option ℤ) (userId seasonId : ℕ) (totalXp : ℤ) :
    ℕ → ℕ → Option ℤ :=
  fun u s => if u = userId ∧ s = seasonId then some totalXp else rows u s

/-- `none` where the key is taken. -/
def tryConsumeDedupe (ticks : List Tick) (ownerId : ℕ) (dedupeKey : String) (userId : ℕ) :
    Option (List Tick) :=
  if ticks.any fun t => t.ownerId = ownerId && t.dedupeKey = dedupeKey then none
  else some (⟨ownerId, dedupeKey, userId⟩ :: ticks)

/-! ## Mission transactions -/

/-- What the transaction for one mission closes over. -/
structure MissionTx where
  userId : ℕ
  season : Season
  mission : Mission
  delta : ℚ
  dedupeKey : String
  periodKey : String
  now : ℤ

namespace MissionTx

def idempotencyKey (tx : MissionTx) : String :=
  "mini-pass-mission-" ++ toString tx.mission.id ++ "-" ++ tx.periodKey

def xpReward (tx : MissionTx) : ℤ := max 0 tx.mission.xpReward

/-- The row after the upsert. -/
def bumped (tx : MissionTx) (row : Option Progress) : Progress :=
  match row with
  | none => ⟨tx.delta, none⟩
  | some r => { r with currentValue := r.currentValue + tx.delta }

/-- The bump completes the mission. -/
def completes (tx : MissionTx) (db : Db) : Bool :=
  let row := tx.bumped (db.missionProgress tx.userId tx.mission.id tx.periodKey)
  row.completedAt.isNone && tx.mission.targetValue ≤ row.currentValue

/-- `none` rolls the transaction back. -/
def applyMiniPassXp (tx : MissionTx) (amount : ℤ) (db : Db) : Option Db :=
  if tx.userId = 0 ∨ tx.season.id = 0 ∨ amount ≤ 0 then some db
  else if !isMiniPassSeasonLive tx.season tx.now then none
  else if db.xpLedger.any fun r => r.idempotencyKey = tx.idempotencyKey then none
  else
    let totalXp := (db.enrollments tx.userId tx.season.id).getD 0
    some { db with
      enrollments := setEnrollment db.enrollments tx.userId tx.season.id (totalXp + amount)
      xpLedger :=
        { userId := tx.userId, seasonId := tx.season.id, amount
          idempotencyKey := tx.idempotencyKey, missionId := tx.mission.id
          periodKey := tx.periodKey, missionType := tx.mission.missionType } :: db.xpLedger }

def setProgress (tx : MissionTx) (row : Progress) (db : Db) : Db :=
  { db with
    missionProgress := setRow db.missionProgress tx.userId tx.mission.id tx.periodKey row }

def bumpMissionProgress (tx : MissionTx) (db : Db) : Option Db :=
  if tx.mission.targetValue ≤ 0 then some db
  else
    let row := tx.bumped (db.missionProgress tx.userId tx.mission.id tx.periodKey)
    if tx.completes db then
      let completed := tx.setProgress { row with completedAt := some tx.now } db
      if tx.xpReward ≤ 0 then some completed else tx.applyMiniPassXp tx.xpReward completed
    else some (tx.setProgress row db)

def run (tx : MissionTx) (db : Db) : Db :=
  match tryConsumeDedupe db.missionTicks tx.mission.id tx.dedupeKey tx.userId with
  | none => db
  | some missionTicks => (tx.bumpMissionProgress { db with missionTicks }).getD db

end MissionTx

/-! ## Task transactions -/

structure TaskTx where
  userId : ℕ
  definition : TaskDefinition
  delta : ℚ
  dedupeKey : String
  periodKey : String
  now : ℤ

namespace TaskTx

def bumped (tx : TaskTx) (row : Option TaskProgress) : TaskProgress :=
  match row with
  | none => ⟨tx.delta, none, none⟩
  | some r => { r with currentValue := r.currentValue + tx.delta }

def setProgress (tx : TaskTx) (row : TaskProgress) (db : Db) : Db :=
  { db with
    taskProgress := setRow db.taskProgress tx.userId tx.definition.id tx.periodKey row }

def bumpOneTask (tx : TaskTx) (db : Db) : Db :=
  if tx.definition.targetValue ≤ 0 then db
  else
    let row := tx.bumped (db.taskProgress tx.userId tx.definition.id tx.periodKey)
    if row.rewardClaimedAt.isSome || row.completedAt.isSome then tx.setProgress row db
    else if row.currentValue < tx.definition.targetValue then tx.setProgress row db
    else tx.setProgress { row with completedAt := some tx.now } db

def run (tx : TaskTx) (db : Db) : Db :=
  match tryConsumeDedupe db.taskTicks tx.definition.id tx.dedupeKey tx.userId with
  | none => db
  | some taskTicks => tx.bumpOneTask { db with taskTicks }

end TaskTx

inductive Tx where
  | mission (tx : MissionTx)
  | task (tx : TaskTx)

def Tx.userId : Tx → ℕ
  | .mission tx => tx.userId
  | .task tx => tx.userId

def Tx.run : Tx → Db → Db
  | .mission tx => tx.run
  | .task tx => tx.run

/-! ## Notifications -/

/-- A slug that is set has to be the one of the game. -/
def slugMatches (wanted gameSlug : Option String) : Bool :=
  wanted.all fun w => w = "" || gameSlug = some w

variable (config : Config)

/-- The loops over the live seasons and their missions. -/
def missionTxs (userId : ℕ) (now : ℤ) (missionType : MissionType) (keep : Mission → Bool)
    (delta : ℚ) (dedupeKey : String) : List Tx :=
  (loadLiveSeasonsWithMissions config.seasons missionType now).flatMap fun season =>
    if isMiniPassSeasonLive season now then
      (season.missions.filter keep).map fun mission => .mission
        { userId, season, mission, delta, dedupeKey, now
          periodKey := resolveMissionPeriodKey config.brazilDateKey mission.cadence
            mission.missionType now }
    else []

def notifyMiniPassGamePlayed (userId : ℕ) (now : ℤ) (userPowerGameId : ℕ)
    (gameSlug : Option String) : List Tx :=
  if userId = 0 ∨ userPowerGameId = 0 then []
  else missionTxs config userId now .PLAY_GAMES (fun m => slugMatches m.gameSlug gameSlug) 1
    ("game-" ++ toString userPowerGameId)

def notifyMiniPassBlkReward (userId : ℕ) (now : ℤ) (blkRewardLogId : ℕ) (amountBlk : ℚ) :
    List Tx :=
  if userId = 0 ∨ blkRewardLogId = 0 ∨ amountBlk ≤ 0 then []
  else missionTxs config userId now .MINE_BLK (fun _ => true) amountBlk
    ("blklog-" ++ toString blkRewardLogId)

def notifyMiniPassLoginDay (userId : ℕ) (now : ℤ) (checkinDateKey : String) : List Tx :=
  if userId = 0 ∨ checkinDateKey = "" then []
  else missionTxs config userId now .LOGIN_DAY (fun _ => true) 1 ("login-" ++ checkinDateKey)

/-- `activeDefinitionWhere` -/
def isActiveDefinition (taskType : TaskType) (now : ℤ) (d : TaskDefinition) : Bool :=
  d.isActive && d.taskType = taskType && d.validFrom.all (· ≤ now) && d.validUntil.all (now ≤ ·)

def bumpDailyTasksForUser (userId : ℕ) (now : ℤ) (taskType : TaskType) (dedupeKey : String)
    (delta : ℚ) (gameSlug : Option String) (internalOfferwallOfferId : Option ℕ) : List Tx :=
  if userId = 0 ∨ dedupeKey = "" ∨ delta ≤ 0 then []
  else
    let defs := config.definitions.filter (isActiveDefinition taskType now)
    (defs.filter fun d =>
        (taskType ≠ .INTERNAL_OFFERWALL || d.internalOfferwallOfferId.all fun offerId =>
          internalOfferwallOfferId = some offerId)
        && slugMatches d.gameSlug gameSlug).map fun definition => .task
      { userId, definition, delta, dedupeKey, periodKey := config.brazilDateKey now, now }

def notifyDailyTaskGamePlayed (userId : ℕ) (now : ℤ) (userPowerGameId : ℕ)
    (gameSlug : Option String) : List Tx :=
  if userId = 0 ∨ userPowerGameId = 0 then []
  else bumpDailyTasksForUser config userId now .PLAY_GAMES ("game-" ++ toString userPowerGameId) 1
    gameSlug none

def notifyDailyTaskBlkMined (userId : ℕ) (now : ℤ) (blkRewardLogId : ℕ) (amountBlk : ℚ) :
    List Tx :=
  if userId = 0 ∨ blkRewardLogId = 0 ∨ amountBlk ≤ 0 then []
  else bumpDailyTasksForUser config userId now .MINE_BLK ("blklog-" ++ toString blkRewardLogId)
    amountBlk none none

def notifyDailyTaskLoginDay (userId : ℕ) (now : ℤ) (checkinDateKey : String) : List Tx :=
  if userId = 0 ∨ checkinDateKey = "" then []
  else bumpDailyTasksForUser config userId now .LOGIN_DAY ("login-" ++ checkinDateKey) 1 none none

inductive Signal where
  | gamePlayed (userPowerGameId : ℕ) (gameSlug : Option String)
  | blkReward (blkRewardLogId : ℕ) (amountBlk : ℚ)
  | loginDay (checkinDateKey : String)

structure Notification where
  userId : ℕ
  now : ℤ
  signal : Signal

/-- The transactions of a notification, those of the missions first. -/
def txs (n : Notification) : List Tx :=
  match n.signal with
  | .gamePlayed id slug =>
      notifyMiniPassGamePlayed config n.userId n.now id slug
        ++ notifyDailyTaskGamePlayed config n.userId n.now id slug
  | .blkReward id amount =>
      notifyMiniPassBlkReward config n.userId n.now id amount
        ++ notifyDailyTaskBlkMined config n.userId n.now id amount
  | .loginDay key =>
      notifyMiniPassLoginDay config n.userId n.now key
        ++ notifyDailyTaskLoginDay config n.userId n.now key

/-- The transactions one after the other. -/
def sys : System Db Tx := ⟨fun db tx => some (tx.run db)⟩

def notifyAll (db : Db) (ns : List Notification) : Db :=
  (ns.flatMap (txs config)).foldl (fun db tx => tx.run db) db

end BlockMiner.Missions
