import BlockMiner.Machines
import BlockMiner.Service

/-!
# The faucet

`controllers/faucetController.js`: a user opens the partner's site, waits ten
seconds, and claims the machine of the faucet, once per cooldown. A claim
reads the record of the user, moves it on to the day in Brazil if it is of
another day, reads the visit of that day, and then writes in a transaction
that looks at nothing again. `getStatus` goes through the same reads.

The active reward does not change. The calendar of Brazil is a parameter.
Instants are milliseconds since the epoch; `claim` takes its own when it
arrives, `getStatus` once the record is of today. The opened visits, the
claims and the replies are kept beside the tables.
-/

namespace BlockMiner.Faucet

open Machines (Snapshot truthy DEFAULT_MINER_IMAGE_URL)

def DEFAULT_FAUCET_COOLDOWN_MS : ℕ := 60 * 60 * 1000

def FAUCET_PARTNER_WAIT_MS : ℕ := 10000

/-! ## Tables -/

/-- Of one user. -/
structure FaucetClaim where
  claimedAt : ℕ
  totalClaims : ℕ
  dayKey : Option String

/-- Of one user on one day. -/
structure FaucetPartnerVisit where
  openedAt : ℕ
  eligibleAt : ℕ

structure Miner where
  id : ℕ
  name : String
  baseHashRate : ℚ
  slotSize : ℕ
  imageUrl : Option String

structure FaucetReward where
  id : ℕ
  cooldownMs : ℕ
  miner : Miner

structure Config where
  /-- The first active row with a miner. -/
  reward : Option FaucetReward
  getBrazilCheckinDateKey : ℕ → String

/-- What `getStatus` answers. -/
structure StatusReply where
  userId : ℕ
  now : ℕ
  available : Bool
  remainingMs : ℕ
  nextClaimAt : Option ℕ
  totalClaims : ℕ
  canClaim : Bool
deriving DecidableEq

/-- Something a user did, and when. -/
structure Deed where
  userId : ℕ
  doneAt : ℕ
deriving DecidableEq

structure Db where
  record : ℕ → Option FaucetClaim
  visit : ℕ → String → Option FaucetPartnerVisit
  machines : Machines.Db
  opened : List Deed
  claimed : List Deed
  replies : List StatusReply

/-! ## Checks -/

/-- `reward.cooldownMs || DEFAULT_FAUCET_COOLDOWN_MS` -/
def FaucetReward.cooldown (reward : FaucetReward) : ℕ :=
  if reward.cooldownMs = 0 then DEFAULT_FAUCET_COOLDOWN_MS else reward.cooldownMs

structure StatusPayload where
  available : Bool
  remainingMs : ℕ
  nextClaimAt : Option ℕ
  totalClaims : ℕ

def buildStatusPayload (record : Option FaucetClaim) (now cooldownMs : ℕ) : StatusPayload :=
  match record with
  | none => ⟨true, 0, none, 0⟩
  | some record =>
      let nextClaimAt := record.claimedAt + cooldownMs
      ⟨nextClaimAt - now = 0, nextClaimAt - now, some nextClaimAt, record.totalClaims⟩

def lastClaimAt (record : Option FaucetClaim) : ℕ := record.elim 0 (·.claimedAt)

def visitOpenedAt (visit : Option FaucetPartnerVisit) : ℕ := visit.elim 0 (·.openedAt)

def visitEligibleAt (visit : Option FaucetPartnerVisit) : ℕ := visit.elim 0 (·.eligibleAt)

def hasFreshVisit (record : Option FaucetClaim) (openedAt : ℕ) : Bool :=
  0 < openedAt && lastClaimAt record < openedAt

def waitRemainingMs (record : Option FaucetClaim) (visit : Option FaucetPartnerVisit) (now : ℕ) :
    ℕ :=
  if hasFreshVisit record (visitOpenedAt visit) then visitEligibleAt visit - now else 0

def partnerReady (record : Option FaucetClaim) (visit : Option FaucetPartnerVisit) (now : ℕ) :
    Bool :=
  hasFreshVisit record (visitOpenedAt visit) && waitRemainingMs record visit now = 0

/-- Expires after 24 hours. -/
def expiresAt (now : ℕ) : ℕ := now + 24 * 60 * 60 * 1000

def machineOf (miner : Miner) : Snapshot where
  minerId := some miner.id
  minerName := miner.name
  level := 1
  hashRate := miner.baseHashRate
  slotSize := miner.slotSize
  imageUrl := some ((truthy miner.imageUrl).getD DEFAULT_MINER_IMAGE_URL)

/-! ## Requests -/

inductive Request where
  /-- The day is taken right after the instant. -/
  | startPartnerVisit (userId now keyAt : ℕ)
  | getStatus (userId : ℕ)
  | claim (userId now : ℕ)

inductive Answer where
  | ok (now : ℕ)
  | error
deriving DecidableEq

/-- Who normalizes a record: a status, or a claim with its instant. -/
inductive Asking where
  | status
  | claim (now : ℕ)

/-- A request, by the await it is at. -/
inductive Call where
  | visitUpsert (userId now : ℕ) (todayKey : String)
  | statusRecord (userId : ℕ)
  | statusReward (userId : ℕ) (record : Option FaucetClaim)
  | claimRecord (userId now : ℕ) (reward : FaucetReward)
  | update (asking : Asking) (userId : ℕ) (todayKey : String) (reward : FaucetReward)
  | statusVisit (userId now : ℕ) (record : Option FaucetClaim) (todayKey : String)
      (reward : FaucetReward)
  | claimVisit (userId now : ℕ) (record : Option FaucetClaim) (todayKey : String)
      (reward : FaucetReward)
  | grant (userId now openedAt : ℕ) (todayKey : String) (reward : FaucetReward)

/-! ## Writes -/

section Writes

variable (db : Db)

def setRecord (userId : ℕ) (record : FaucetClaim) : Db :=
  { db with record := Function.update db.record userId (some record) }

/-- The update of a record of another day. -/
def FaucetClaim.movedTo (todayKey : String) (record : FaucetClaim) : FaucetClaim :=
  { record with totalClaims := 0, dayKey := some todayKey }

def openVisit (userId now : ℕ) (todayKey : String) : Db :=
  { db with
    visit := Function.update db.visit userId
      (Function.update (db.visit userId) todayKey (some ⟨now, now + FAUCET_PARTNER_WAIT_MS⟩))
    opened := ⟨userId, now⟩ :: db.opened }

/-- The transaction of a claim. -/
def grantClaim (userId now : ℕ) (todayKey : String) (reward : FaucetReward) : Db :=
  { db with
    machines := db.machines.createInventoryWithOwnedMachine userId (machineOf reward.miner)
      (some (expiresAt now))
    record := Function.update db.record userId
      (some ⟨now, (db.record userId).elim 0 (·.totalClaims) + 1, some todayKey⟩)
    claimed := ⟨userId, now⟩ :: db.claimed }

def reply (userId now : ℕ) (payload : StatusPayload) (canClaim : Bool) : Db :=
  { db with
    replies := ⟨userId, now, payload.available, payload.remainingMs, payload.nextClaimAt,
      payload.totalClaims, canClaim⟩ :: db.replies }

/-- "No faucet reward configured." -/
def replyUnconfigured (userId now : ℕ) : Db := reply db userId now ⟨false, 0, none, 0⟩ false

end Writes

/-! ## Steps -/

/-- Where a request goes on with a record of today; `none` is the refusal of
a claim. -/
def normalized (asking : Asking) (userId now : ℕ) (record : Option FaucetClaim)
    (todayKey : String) (reward : FaucetReward) : Option Call :=
  match asking with
  | .status => some (.statusVisit userId now record todayKey reward)
  | .claim claimNow =>
      if (buildStatusPayload record claimNow reward.cooldown).available then
        some (.claimVisit userId claimNow record todayKey reward)
      else none

def normalizeFaucetRecord (config : Config) (asking : Asking) (userId now : ℕ)
    (record : Option FaucetClaim) (reward : FaucetReward) : Option Call :=
  let todayKey := config.getBrazilCheckinDateKey now
  if record.all fun r => r.dayKey = some todayKey then
    normalized asking userId now record todayKey reward
  else some (.update asking userId todayKey reward)

def start (config : Config) : Request → List Call
  | .startPartnerVisit userId now keyAt =>
      [.visitUpsert userId now (config.getBrazilCheckinDateKey keyAt)]
  | .getStatus userId => [.statusRecord userId]
  | .claim userId now => (config.reward.map (.claimRecord userId now)).toList

/-- What a call writes, and where it goes on. -/
def act (config : Config) (db : Db) (now : ℕ) : Call → Db × Option Call
  | .visitUpsert userId openedAt todayKey => (openVisit db userId openedAt todayKey, none)
  | .statusRecord userId => (db, some (.statusReward userId (db.record userId)))
  | .statusReward userId record =>
      match config.reward with
      | none => (replyUnconfigured db userId now, none)
      | some reward => (db, normalizeFaucetRecord config .status userId now record reward)
  | .claimRecord userId claimNow reward =>
      (db, normalizeFaucetRecord config (.claim claimNow) userId now (db.record userId) reward)
  | .update asking userId todayKey reward =>
      -- the update throws where the record is missing
      match db.record userId with
      | none => (db, none)
      | some old =>
          let record := old.movedTo todayKey
          (setRecord db userId record, normalized asking userId now (some record) todayKey reward)
  | .statusVisit userId statusNow record todayKey reward =>
      let payload := buildStatusPayload record statusNow reward.cooldown
      let ready := partnerReady record (db.visit userId todayKey) statusNow
      (reply db userId statusNow payload (payload.available && ready), none)
  | .claimVisit userId claimNow record todayKey reward =>
      let visit := db.visit userId todayKey
      (db, if partnerReady record visit claimNow then
        some (.grant userId claimNow (visitOpenedAt visit) todayKey reward) else none)
  | .grant userId claimNow _ todayKey reward =>
      (grantClaim db userId claimNow todayKey reward, none)

def resume (config : Config) (db : Db) (c : Call) : Answer → Option (Db × Option Call)
  | .ok now => some (act config db now c)
  | .error => some (db, none)

def service (config : Config) : Service Db Call Request Answer where
  start db r := some (db, start config r)
  resume := resume config

end BlockMiner.Faucet
