import BlockMiner.Service

/-!
# Auto mining sessions

`services/autoMiningV2`: a user runs one session in a mode, and claims a slice
of hash rate for each cycle of it, in the turbo mode for a clicked banner
impression. A request takes its clock before its transaction and keeps it.
The queries of a transaction read what is committed when they run. The
update of the session in a claim takes the row lock up to the commit, so it
is one step with the writes after it; the update in `startSession` collects
the rows it locks and is seen by the others with the commit.

Times are milliseconds. `findFirst` may answer any matching row, so the row
is part of the answer. The banner is picked from a table that nothing here
writes, and is part of an answer too.

`impressionId` of a grant is not a column: it names the impression the claim
was made with.
-/

namespace BlockMiner.AutoMining

/-! ## Domain -/

inductive MiningMode where
  | NORMAL
  | TURBO
deriving DecidableEq

def NORMAL_HASH_PER_CYCLE : ℤ := 10

def TURBO_HASH_PER_CYCLE : ℤ := 20

def CYCLE_SECONDS : ℤ := 60

def DAILY_LIMIT_HASH : ℤ := 1000

def GRANT_TTL_MS : ℤ := 24 * 60 * 60 * 1000

def CLICK_GRACE_MS : ℤ := 3 * 60 * 1000

def MIN_CLICK_DELAY_MS : ℤ := 400

/-- The default of `isClaimDue`. -/
def skewMs : ℤ := 5000

structure Session where
  userId : ℕ
  mode : MiningMode
  nextClaimAt : ℤ
  isActive : Bool
deriving DecidableEq

structure PowerGrant where
  userId : ℕ
  sessionId : ℕ
  hashRate : ℤ
  mode : MiningMode
  earnedAt : ℤ
  expiresAt : ℤ
  impressionId : Option ℕ

/-- What `pickPartnerBanner` returns. -/
structure Banner where
  bannerKey : String
  targetUrl : String
  title : String
  imageUrl : Option String

structure BannerImpression where
  userId : ℕ
  sessionId : ℕ
  banner : Banner
  createdAt : ℤ
  clickedAt : Option ℤ
  grantId : Option ℕ

structure Db where
  sessions : Table Session
  grants : Table PowerGrant
  impressions : Table BannerImpression

/-- The codes of the errors. -/
inductive Refusal where
  | INVALID_MODE | NO_SESSION | WRONG_MODE | CLAIM_NOT_DUE | DAILY_LIMIT | CONCURRENT_CLAIM
  | NOT_FOUND | NOT_CLICKED | ALREADY_CLAIMED | CLICK_TOO_FAST | IMPRESSION_EXPIRED
deriving DecidableEq

def startOfUtcDay (d : ℤ) : ℤ := d / 86400000 * 86400000

def isClaimDue (nextClaimAt serverNow : ℤ) : Bool := nextClaimAt - skewMs ≤ serverNow

def canGrantDaily (currentDayTotalHash grantAmount : ℤ) : Bool :=
  currentDayTotalHash + grantAmount ≤ DAILY_LIMIT_HASH

def computeExpiresAt (earnedAt : ℤ) : ℤ := earnedAt + GRANT_TTL_MS

def validateImpressionForTurboClaim (impression : BannerImpression) (serverNow : ℤ) :
    Except Refusal Unit :=
  match impression.clickedAt with
  | none => .error .NOT_CLICKED
  | some clickedAt =>
      if impression.grantId.isSome then .error .ALREADY_CLAIMED
      else if clickedAt - impression.createdAt < MIN_CLICK_DELAY_MS then .error .CLICK_TOO_FAST
      else if CLICK_GRACE_MS < serverNow - impression.createdAt then .error .IMPRESSION_EXPIRED
      else .ok ()

def assertValidMiningMode : String → Except Refusal MiningMode
  | "NORMAL" => .ok .NORMAL
  | "TURBO" => .ok .TURBO
  | _ => .error .INVALID_MODE

def nextClaimAfterSuccess (serverNow : ℤ) : ℤ := serverNow + CYCLE_SECONDS * 1000

def hashRateForMode : MiningMode → ℤ
  | .TURBO => TURBO_HASH_PER_CYCLE
  | .NORMAL => NORMAL_HASH_PER_CYCLE

/-! ## Requests -/

/-- `claimNormal`, or `claimTurbo` with its impression. -/
structure Claim where
  userId : ℕ
  now : ℤ
  impressionId : Option ℕ

def Claim.mode (claim : Claim) : MiningMode :=
  if claim.impressionId.isSome then .TURBO else .NORMAL

/-- What a request has read of its session. -/
structure Seen where
  sessionId : ℕ
  nextClaimAt : ℤ

/-- A request, by the await it is at. -/
inductive Call where
  | deactivate (userId : ℕ) (mode : MiningMode) (now : ℤ)
  | create (userId : ℕ) (mode : MiningMode) (now : ℤ) (deactivated : List ℕ)
  | stop (userId : ℕ)
  | session (claim : Claim)
  | impression (claim : Claim) (seen : Seen) (impressionId : ℕ)
  | daily (claim : Claim) (seen : Seen)
  | bump (claim : Claim) (seen : Seen)
  | bannerSession (userId : ℕ) (now : ℤ)
  | bannerDaily (userId : ℕ) (now : ℤ) (seen : Seen)
  | bannerExisting (userId : ℕ) (now : ℤ) (seen : Seen)
  | bannerCreate (userId : ℕ) (seen : Seen)
  | clickRead (userId impressionId : ℕ) (now : ℤ)
  | clickUpdate (impressionId : ℕ) (now : ℤ)

inductive Request where
  | startSession (userId : ℕ) (mode : String) (now : ℤ)
  | stopSession (userId : ℕ)
  | claimNormal (userId : ℕ) (now : ℤ)
  | getOrCreateBannerImpression (userId : ℕ) (now : ℤ)
  | registerBannerClick (userId impressionId : ℕ) (now : ℤ)
  | claimTurbo (userId impressionId : ℕ) (now : ℤ)

/-- `row` is the row that `findFirst` answers, if any. -/
inductive Answer where
  | ok
  | row (found : Option ℕ)
  | picked (banner : Banner) (createdAt : ℤ)
  | error

variable (db : Db)

def isActiveOf (userId : ℕ) (s : Session) : Bool := s.userId = userId && s.isActive

/-- May the query for the active session of a user answer this? -/
def findsSession (userId : ℕ) : Option ℕ → Bool
  | none => (db.sessions.findMany fun _ s => isActiveOf userId s).isEmpty
  | some id => (db.sessions.row id).any (isActiveOf userId)

/-- The checks on the session that was found. -/
def checkSession (found : Option ℕ) (mode : MiningMode) : Except Refusal Seen :=
  match found.bind fun id => (db.sessions.row id).map fun s => (id, s) with
  | none => .error .NO_SESSION
  | some (id, s) => if s.mode ≠ mode then .error .WRONG_MODE else .ok ⟨id, s.nextClaimAt⟩

def checkDue (seen : Seen) (now : ℤ) (next : Call) : Except Refusal Call :=
  if isClaimDue seen.nextClaimAt now then .ok next else .error .CLAIM_NOT_DUE

def sumDailyGrantedHash (userId : ℕ) (serverNow : ℤ) : ℤ :=
  let dayStart := startOfUtcDay serverNow
  db.grants.sum fun _ g =>
    if g.userId = userId ∧ dayStart ≤ g.earnedAt ∧ g.earnedAt < dayStart + 86400000 then g.hashRate
    else 0

def checkDaily (userId : ℕ) (now : ℤ) (mode : MiningMode) (next : Call) : Except Refusal Call :=
  if canGrantDaily (sumDailyGrantedHash db userId now) (hashRateForMode mode) then .ok next
  else .error .DAILY_LIMIT

/-! ### Sessions -/

/-- `updateMany` of the collected rows. -/
def deactivateRows (sessions : Table Session) (ids : List ℕ) : Table Session :=
  ids.foldl (fun t id => t.modify id fun s => { s with isActive := false }) sessions

def deactivateUserSessions (userId : ℕ) : List ℕ :=
  (db.sessions.findMany fun _ s => isActiveOf userId s).map (·.1)

def createSession (userId : ℕ) (mode : MiningMode) (now : ℤ) (deactivated : List ℕ) : Db :=
  { db with
    sessions := (deactivateRows db.sessions deactivated).insert
      { userId, mode, nextClaimAt := now + CYCLE_SECONDS * 1000, isActive := true } }

def stopSession (userId : ℕ) : Db :=
  { db with
    sessions := db.sessions.updateMany (isActiveOf userId) fun s => { s with isActive := false } }

/-! ### Claims -/

def readSession (claim : Claim) (found : Option ℕ) : Except Refusal Call := do
  let seen ← checkSession db found claim.mode
  match claim.impressionId with
  | none => checkDue seen claim.now (.daily claim seen)
  | some impressionId => return .impression claim seen impressionId

def readImpression (claim : Claim) (seen : Seen) (impressionId : ℕ) : Except Refusal Call :=
  match (db.impressions.row impressionId).filter fun r =>
      r.userId = claim.userId && r.sessionId = seen.sessionId with
  | none => .error .NOT_FOUND
  | some impression => do
      validateImpressionForTurboClaim impression claim.now
      checkDue seen claim.now (.daily claim seen)

/-- The session is as the claim has read it, and active. -/
def unchanged (seen : Seen) (s : Session) : Bool :=
  s.nextClaimAt = seen.nextClaimAt && s.isActive

/-- The writes of a claim whose update finds its session unchanged. -/
def grant (claim : Claim) (seen : Seen) : Db where
  sessions := db.sessions.modify seen.sessionId fun s =>
    { s with nextClaimAt := nextClaimAfterSuccess claim.now }
  grants := db.grants.insert
    { userId := claim.userId, sessionId := seen.sessionId
      hashRate := hashRateForMode claim.mode, mode := claim.mode
      earnedAt := claim.now, expiresAt := computeExpiresAt claim.now
      impressionId := claim.impressionId }
  impressions := match claim.impressionId with
    | none => db.impressions
    | some impressionId => db.impressions.modify impressionId fun r =>
        { r with grantId := some db.grants.nextId }

def bumpSession (claim : Claim) (seen : Seen) : Except Refusal Db :=
  if (db.sessions.row seen.sessionId).any (unchanged seen) then .ok (grant db claim seen)
  else .error .CONCURRENT_CLAIM

/-! ### Banners -/

/-- An open impression of the session, within its grace time. -/
def isReusable (userId : ℕ) (now : ℤ) (seen : Seen) (r : BannerImpression) : Bool :=
  r.userId = userId && r.sessionId = seen.sessionId && r.grantId.isNone
    && now - CLICK_GRACE_MS ≤ r.createdAt

/-- The latest one, if any. -/
def findsReusable (userId : ℕ) (now : ℤ) (seen : Seen) : Option ℕ → Bool
  | none => (db.impressions.findMany fun _ r => isReusable userId now seen r).isEmpty
  | some id => (db.impressions.row id).any fun r => isReusable userId now seen r
      && db.impressions.rows.all fun x =>
        !isReusable userId now seen x.2 || x.2.createdAt ≤ r.createdAt

def createImpression (userId : ℕ) (seen : Seen) (banner : Banner) (createdAt : ℤ) : Db :=
  { db with
    impressions := db.impressions.insert
      { userId, sessionId := seen.sessionId, banner, createdAt, clickedAt := none
        grantId := none } }

/-- `none` where the click is already there. -/
def readClick (userId impressionId : ℕ) (now : ℤ) : Except Refusal (Option Call) :=
  match (db.impressions.row impressionId).filter fun r => r.userId = userId with
  | none => .error .NOT_FOUND
  | some r =>
      if r.grantId.isSome then .error .ALREADY_CLAIMED
      else if r.clickedAt.isSome then .ok none
      else if now - r.createdAt < MIN_CLICK_DELAY_MS then .error .CLICK_TOO_FAST
      else if CLICK_GRACE_MS < now - r.createdAt then .error .IMPRESSION_EXPIRED
      else .ok (some (.clickUpdate impressionId now))

def updateClick (impressionId : ℕ) (now : ℤ) : Db :=
  { db with
    impressions := db.impressions.modify impressionId fun r => { r with clickedAt := some now } }

/-! ### The service -/

def start : Request → Option (Db × List Call)
  | .startSession userId mode now => some (db,
      ((assertValidMiningMode mode).toOption.map fun m => Call.deactivate userId m now).toList)
  | .stopSession userId => some (db, [.stop userId])
  | .claimNormal userId now => some (db, [.session ⟨userId, now, none⟩])
  | .getOrCreateBannerImpression userId now => some (db, [.bannerSession userId now])
  | .registerBannerClick userId impressionId now => some (db, [.clickRead userId impressionId now])
  | .claimTurbo userId impressionId now => some (db, [.session ⟨userId, now, some impressionId⟩])

/-- The reads, and what the request goes on to after each; `none` for an
answer that the query cannot give. -/
def query : Call → Answer → Option (Except Refusal (Option Call))
  | .deactivate userId mode now, .ok =>
      some (.ok (some (.create userId mode now (deactivateUserSessions db userId))))
  | .session claim, .row found =>
      if findsSession db claim.userId found then some ((readSession db claim found).map some)
      else none
  | .impression claim seen impressionId, .ok =>
      some ((readImpression db claim seen impressionId).map some)
  | .daily claim seen, .ok =>
      some ((checkDaily db claim.userId claim.now claim.mode (.bump claim seen)).map some)
  | .bannerSession userId now, .row found =>
      if findsSession db userId found then
        some (do
          let seen ← checkSession db found .TURBO
          (checkDue seen now (.bannerDaily userId now seen)).map some)
      else none
  | .bannerDaily userId now seen, .ok =>
      some ((checkDaily db userId now .TURBO (.bannerExisting userId now seen)).map some)
  | .bannerExisting userId now seen, .row found =>
      if findsReusable db userId now seen found then
        some (.ok (if found.isSome then none else some (.bannerCreate userId seen)))
      else none
  | .clickRead userId impressionId now, .ok => some (readClick db userId impressionId now)
  | _, _ => none

/-- The writes. -/
def write : Call → Answer → Option Db
  | .create userId mode now deactivated, .ok =>
      some (createSession db userId mode now deactivated)
  | .stop userId, .ok => some (stopSession db userId)
  | .bump claim seen, .ok => some ((bumpSession db claim seen).toOption.getD db)
  | .bannerCreate userId seen, .picked banner createdAt =>
      some (createImpression db userId seen banner createdAt)
  | .clickUpdate impressionId now, .ok => some (updateClick db impressionId now)
  | _, _ => none

def resume (c : Call) (answer : Answer) : Option (Db × Option Call) :=
  match answer with
  | .error => some (db, none)
  | _ => match write db c answer with
    | some db' => some (db', none)
    | none => (query db c answer).map fun next => (db, next.toOption.join)

def service : Service Db Call Request Answer := ⟨start, resume⟩

end BlockMiner.AutoMining
