import BlockMiner.Service
import Mathlib.Algebra.Order.Ring.Rat

/-!
# Attempts of internal offers

`services/internalOfferwall/internalOfferwallService.js`: a user starts an
attempt of an offer, opens the partner's page for an offer of that kind, and
submits the attempt. By the completion mode of the offer the submission
grants the reward at once, or waits for an administrator, who approves or
rejects it. Listing the offers removes attempts that were left open.

Requests interleave at their queries. The last query of the transaction that
grants a reward is one step with the grant: both are seen with the commit.
The offers, the feature switch and the calendar of the time zone data are the
configuration. A clock read gives the instant of the answer before it. What
happens after the commit (daily tasks, the engine, the web hook) is left out,
as is the game row that temporary hash rates are filed under.

`granted` is not a table: it records for which attempt a reward was paid.
-/

namespace BlockMiner.Offerwall

/-! ## Offers and attempts -/

inductive OfferKind where
  | PTC_IFRAME
  | GENERAL_TASK
deriving DecidableEq

inductive CompletionMode where
  | USER_SELF_CLAIM
  | ADMIN_APPROVAL
deriving DecidableEq

/-- `other` is any other text in the column. -/
inductive RewardKind where
  | BLK
  | POL
  | HASHRATE_TEMP
  | other
deriving DecidableEq

inductive Status where
  | STARTED
  | PENDING_REVIEW
  | COMPLETED
  | REJECTED
deriving DecidableEq

structure Offer where
  kind : OfferKind
  iframeUrl : Option String
  minViewSeconds : ℤ
  rewardKind : RewardKind
  rewardBlkAmount : Option ℚ
  rewardPolAmount : Option ℚ
  rewardHashRate : Option ℚ
  rewardHashRateDays : Option ℤ
  dailyLimitPerUser : ℕ
  isActive : Bool
  completionMode : CompletionMode

structure Attempt where
  userId : ℕ
  offerId : ℕ
  periodKey : String
  status : Status
  startedAt : ℤ
  partnerOpenedAt : Option ℤ
  submittedAt : Option ℤ
  completedAt : Option ℤ
  rewardGrantedAt : Option ℤ
  auditSnapshot : Option String
  adminNote : Option String
deriving DecidableEq

structure User where
  blkBalance : ℚ
  polBalance : ℚ

structure UserPowerGame where
  userId : ℕ
  hashRate : ℚ
  playedAt : ℤ
  expiresAt : ℤ

inductive Reward where
  | BLK (amount : ℚ)
  | POL (amount : ℚ)
  | HASHRATE_TEMP (hashRate : ℚ) (days : ℤ)
deriving DecidableEq

structure Grant where
  attemptId : ℕ
  userId : ℕ
  reward : Reward
deriving DecidableEq

structure Db where
  attempts : Table Attempt
  users : Table User
  powerGames : List UserPowerGame
  granted : List Grant

structure Config where
  enabled : Bool
  offers : ℕ → Option Offer
  brazilDateKey : ℤ → String
  abandonStartedAfterSec : Option ℤ

/-- The codes of the refusals; the last two are the administrator's. -/
inductive Refusal where
  | FEATURE_DISABLED | OFFER_NOT_FOUND | DAILY_LIMIT | ATTEMPT_NOT_FOUND | INVALID_STATE
  | NOT_PTC_OFFER | NO_PARTNER_URL | PARTNER_NOT_OPENED | MIN_VIEW_NOT_MET | CONFLICT
  | REWARD_CONFIG_INVALID | pendingNotFound | offerInactive
deriving DecidableEq

/-! ## Checks -/

def assertMinViewForSubmit (offer : Offer) (a : Attempt) (now : ℤ) : Except Refusal Unit :=
  let min := max 0 offer.minViewSeconds
  match offer.kind with
  | .PTC_IFRAME => match a.partnerOpenedAt with
    | none => .error .PARTNER_NOT_OPENED
    | some opened => if now - opened < min * 1000 then .error .MIN_VIEW_NOT_MET else .ok ()
  | .GENERAL_TASK => if now - a.startedAt < min * 1000 then .error .MIN_VIEW_NOT_MET else .ok ()

/-- Less than 300 seconds, or no number at all, gives the default. -/
def abandonAfterSec (setting : Option ℤ) : ℤ :=
  match setting with
  | some sec => if 300 ≤ sec then sec else 86400
  | none => 86400

/-- What `grantInternalOfferwallRewardInTx` pays, `none` for the errors of a
wrong configuration. -/
def rewardOf (offer : Offer) : Option Reward :=
  match offer.rewardKind with
  | .BLK => (offer.rewardBlkAmount.filter (0 < ·)).map .BLK
  | .POL => (offer.rewardPolAmount.filter (0 < ·)).map .POL
  | .HASHRATE_TEMP =>
      let hr := offer.rewardHashRate.getD 0
      let given := offer.rewardHashRateDays.getD 1
      let days := max 1 (min 365 (if given = 0 then 1 else given))
      if 0 < hr then some (.HASHRATE_TEMP hr days) else none
  | .other => none

/-- `none` where the user is missing, which throws. -/
def payReward (db : Db) (userId : ℕ) (now : ℤ) : Reward → Option Db
  | .BLK amount => (db.users.row userId).map fun _ =>
      { db with
        users := db.users.modify userId fun u => { u with blkBalance := u.blkBalance + amount } }
  | .POL amount => (db.users.row userId).map fun _ =>
      { db with
        users := db.users.modify userId fun u => { u with polBalance := u.polBalance + amount } }
  | .HASHRATE_TEMP hashRate days => (db.users.row userId).map fun _ =>
      { db with
        powerGames := db.powerGames ++
          [{ userId, hashRate, playedAt := now, expiresAt := now + days * 86400000 }] }

/-! ## Requests -/

/-- A request, by the query it waits for. -/
inductive Call where
  | offer (userId offerId : ℕ)
  | completedCount (userId offerId : ℕ) (periodKey : String)
  | existing (userId offerId : ℕ) (periodKey : String)
  | create (userId offerId : ℕ) (periodKey : String)
  | abandon (userId : ℕ) (periodKey : String) (cutoff : ℤ)
  | openRead (userId attemptId : ℕ)
  | openUpdate (attemptId : ℕ) (now : ℤ)
  | submitRead (userId attemptId : ℕ)
  | snapshot (userId attemptId : ℕ) (offer : Offer) (now : ℤ)
  | reviewUpdate (attemptId : ℕ) (now : ℤ) (snap : String)
  | claimFresh (userId attemptId : ℕ) (offer : Offer) (now : ℤ) (snap : String)
  | claimGrant (userId attemptId : ℕ) (offer : Offer) (now : ℤ) (snap : String)
  | approveRead (attemptId : ℕ)
  | approveFresh (userId attemptId : ℕ) (offer : Offer) (now : ℤ)
  | approveGrant (userId attemptId : ℕ) (offer : Offer) (now : ℤ)
  | rejectRead (attemptId : ℕ) (note : String)
  | rejectUpdate (attemptId : ℕ) (note : String)

inductive Request where
  | userListOffers (userId : ℕ) (now : ℤ)
  | userStartOffer (userId offerId : ℕ)
  | userMarkPartnerOpened (userId attemptId : ℕ)
  | userSubmitAttempt (userId attemptId : ℕ)
  | adminApproveAttempt (attemptId : ℕ)
  | adminRejectAttempt (attemptId : ℕ) (note : String)

/-- The query has answered at `now`, the audit snapshot is there, or the
request throws. -/
inductive Answer where
  | ok (now : ℤ)
  | snapshot (snap : String)
  | error

variable (config : Config) (db : Db)

/-- `count` -/
def count (t : Table Attempt) (p : Attempt → Bool) : ℤ := t.sum fun _ a => if p a then 1 else 0

/-- An attempt of the user for the offer in the period. -/
def isOf (userId offerId : ℕ) (periodKey : String) (a : Attempt) : Bool :=
  a.userId = userId && a.offerId = offerId && a.periodKey = periodKey

def isOpen (a : Attempt) : Bool := a.status = .STARTED || a.status = .PENDING_REVIEW

/-! ### Starting and listing -/

def findOffer (userId offerId : ℕ) (now : ℤ) : Except Refusal Call :=
  match (config.offers offerId).filter (·.isActive) with
  | none => .error .OFFER_NOT_FOUND
  | some _ => .ok (.completedCount userId offerId (config.brazilDateKey now))

def countCompleted (userId offerId : ℕ) (periodKey : String) : Except Refusal Call :=
  let limit := (config.offers offerId).elim 0 (·.dailyLimitPerUser)
  let completedCount := count db.attempts fun a =>
    isOf userId offerId periodKey a && a.status = .COMPLETED
  if limit ≤ completedCount then .error .DAILY_LIMIT
  else .ok (.existing userId offerId periodKey)

/-- `none` where an open attempt is returned. -/
def findExisting (userId offerId : ℕ) (periodKey : String) : Option Call :=
  match db.attempts.findFirst fun _ a => isOf userId offerId periodKey a && isOpen a with
  | some _ => none
  | none => some (.create userId offerId periodKey)

def createAttempt (userId offerId : ℕ) (periodKey : String) (now : ℤ) : Db :=
  { db with
    attempts := db.attempts.insert
      { userId, offerId, periodKey, status := .STARTED, startedAt := now
        partnerOpenedAt := none, submittedAt := none, completedAt := none
        rewardGrantedAt := none, auditSnapshot := none, adminNote := none } }

def abandonStaleStartedAttempts (userId : ℕ) (periodKey : String) (cutoff : ℤ) : Db :=
  { db with
    attempts := db.attempts.deleteMany fun a =>
      a.userId = userId && a.periodKey = periodKey && a.status = .STARTED && a.startedAt < cutoff }

/-! ### Opening and submitting -/

/-- The attempt with its offer, when both can be used. -/
def findActive (userId attemptId : ℕ) : Option (Attempt × Offer) :=
  ((db.attempts.row attemptId).filter (·.userId = userId)).bind fun a =>
    ((config.offers a.offerId).filter (·.isActive)).map fun offer => (a, offer)

def readOpen (userId attemptId : ℕ) (now : ℤ) : Except Refusal Call :=
  match findActive config db userId attemptId with
  | none => .error .ATTEMPT_NOT_FOUND
  | some (a, offer) =>
      if a.status ≠ .STARTED then .error .INVALID_STATE
      else if offer.kind ≠ .PTC_IFRAME then .error .NOT_PTC_OFFER
      else if (offer.iframeUrl.getD "").trimAscii.isEmpty then .error .NO_PARTNER_URL
      else .ok (.openUpdate attemptId now)

def readSubmit (userId attemptId : ℕ) (now : ℤ) : Except Refusal Call :=
  match findActive config db userId attemptId with
  | none => .error .ATTEMPT_NOT_FOUND
  | some (a, offer) =>
      if a.status ≠ .STARTED then .error .INVALID_STATE
      else do
        assertMinViewForSubmit offer a now
        return .snapshot userId attemptId offer now

/-- By the completion mode of the offer. -/
def afterSnapshot (userId attemptId : ℕ) (offer : Offer) (now : ℤ) (snap : String) : Call :=
  match offer.completionMode with
  | .ADMIN_APPROVAL => .reviewUpdate attemptId now snap
  | .USER_SELF_CLAIM => .claimFresh userId attemptId offer now snap

def findFresh (userId attemptId : ℕ) (status : Status) : Bool :=
  (db.attempts.row attemptId).any fun a => a.userId = userId && a.status = status

/-- `update` of an attempt by its id. -/
def updateAttempt (attemptId : ℕ) (f : Attempt → Attempt) : Db :=
  { db with attempts := db.attempts.modify attemptId f }

def reviewed (now : ℤ) (snap : String) (a : Attempt) : Attempt :=
  { a with status := .PENDING_REVIEW, submittedAt := some now, auditSnapshot := some snap }

def claimed (now : ℤ) (snap : String) (a : Attempt) : Attempt :=
  { a with
    status := .COMPLETED, submittedAt := some now, completedAt := some now
    rewardGrantedAt := some now, auditSnapshot := some snap }

def approved (now : ℤ) (a : Attempt) : Attempt :=
  { a with status := .COMPLETED, completedAt := some now, rewardGrantedAt := some now }

def rejected (now : ℤ) (note : String) (a : Attempt) : Attempt :=
  { a with
    status := .REJECTED, completedAt := some now
    adminNote := if note = "" then none else some (String.ofList (note.toList.take 2000)) }

/-- The grant and the update after it; `none` where either throws. -/
def grantAndComplete (userId attemptId : ℕ) (offer : Offer) (now : ℤ)
    (complete : Attempt → Attempt) : Option Db :=
  (rewardOf offer).bind fun reward => (payReward db userId now reward).bind fun paid =>
    (paid.attempts.row attemptId).map fun _ =>
      { updateAttempt paid attemptId complete with
        granted := db.granted ++ [⟨attemptId, userId, reward⟩] }

/-! ### Administration -/

def readApprove (attemptId : ℕ) (now : ℤ) : Except Refusal Call :=
  match (db.attempts.row attemptId).filter (·.status = .PENDING_REVIEW) with
  | none => .error .pendingNotFound
  | some a => match config.offers a.offerId with
    | none => .error .pendingNotFound
    | some offer =>
        if offer.isActive then .ok (.approveFresh a.userId attemptId offer now)
        else .error .offerInactive

def readReject (attemptId : ℕ) (note : String) : Except Refusal Call :=
  match (db.attempts.row attemptId).filter (·.status = .PENDING_REVIEW) with
  | none => .error .pendingNotFound
  | some _ => .ok (.rejectUpdate attemptId note)

/-! ### The service -/

def start : Request → Option (Db × List Call)
  | .userListOffers userId now => some (db,
      if config.enabled then
        [.abandon userId (config.brazilDateKey now)
          (now - abandonAfterSec config.abandonStartedAfterSec * 1000)]
      else [])
  | .userStartOffer userId offerId =>
      some (db, if config.enabled then [.offer userId offerId] else [])
  | .userMarkPartnerOpened userId attemptId =>
      some (db, if config.enabled then [.openRead userId attemptId] else [])
  | .userSubmitAttempt userId attemptId =>
      some (db, if config.enabled then [.submitRead userId attemptId] else [])
  | .adminApproveAttempt attemptId => some (db, [.approveRead attemptId])
  | .adminRejectAttempt attemptId note => some (db, [.rejectRead attemptId note])

/-- The queries that only read, answered at `now`. -/
def query (now : ℤ) : Call → Except Refusal (Option Call)
  | .offer userId offerId => (findOffer config userId offerId now).map some
  | .completedCount userId offerId periodKey =>
      (countCompleted config db userId offerId periodKey).map some
  | .existing userId offerId periodKey => .ok (findExisting db userId offerId periodKey)
  | .openRead userId attemptId => (readOpen config db userId attemptId now).map some
  | .submitRead userId attemptId => (readSubmit config db userId attemptId now).map some
  | .claimFresh userId attemptId offer now snap =>
      if findFresh db userId attemptId .STARTED then
        .ok (some (.claimGrant userId attemptId offer now snap))
      else .error .CONFLICT
  | .approveRead attemptId => (readApprove config db attemptId now).map some
  | .approveFresh userId attemptId offer now =>
      if (db.attempts.row attemptId).any (·.status = .PENDING_REVIEW) then
        .ok (some (.approveGrant userId attemptId offer now))
      else .error .pendingNotFound
  | .rejectRead attemptId note => (readReject db attemptId note).map some
  | _ => .ok none

/-- The queries that write, answered at `now`. -/
def write (now : ℤ) : Call → Option Db
  | .create userId offerId periodKey => some (createAttempt db userId offerId periodKey now)
  | .abandon userId periodKey cutoff =>
      some (abandonStaleStartedAttempts db userId periodKey cutoff)
  | .openUpdate attemptId now =>
      some (updateAttempt db attemptId fun a => { a with partnerOpenedAt := some now })
  | .reviewUpdate attemptId now snap => some (updateAttempt db attemptId (reviewed now snap))
  | .claimGrant userId attemptId offer claimedAt snap =>
      some ((grantAndComplete db userId attemptId offer now (claimed claimedAt snap)).getD db)
  | .approveGrant userId attemptId offer approvedAt =>
      some ((grantAndComplete db userId attemptId offer now (approved approvedAt)).getD db)
  | .rejectUpdate attemptId note => some (updateAttempt db attemptId (rejected now note))
  | _ => none

def resume : Call → Answer → Option (Db × Option Call)
  | _, .error => some (db, none)
  | .snapshot userId attemptId offer now, .snapshot snap =>
      some (db, some (afterSnapshot userId attemptId offer now snap))
  | .snapshot .., .ok _ => none
  | c, .ok now => match write db now c with
    | some db' => some (db', none)
    | none => some (db, (query config db now c).toOption.join)
  | _, .snapshot _ => none

def service : Service Db Call Request Answer := ⟨start config, resume config⟩

end BlockMiner.Offerwall
