import BlockMiner.StableStringify
import BlockMiner.Transactions

/-!
# The audit outbox

`src/audit`. `enqueueAuditEvent` stores an event in `audit_event_outbox`, and
`processAuditOutboxBatch` copies the rows it fetches to `audit_events`, each in
a transaction of its own: read the last chain hash, insert the event with the
next hash, mark the outbox row. The statements are the steps, so batches
overlap. An insert takes its id from the sequence at once, whether or not its
transaction commits.

The `status` column of the outbox holds the status of the event when the row
is created and the state of the queue after that. A timestamp is read back as
a `Date`. `sha256` is a parameter. A request carries the record that
`buildEventRecord` makes, with its fields of the declared types.
-/

namespace BlockMiner.Audit

/-- The values of `AuditEventStatus` and of `AuditOutboxStatus`. -/
inductive Status where
  | SUCCESS | PARTIAL | FAILED
  | PENDING | SENT | DLQ
deriving DecidableEq

/-- `AuditEventStatus` -/
def auditEventStatuses : List Status := [.SUCCESS, .PARTIAL, .FAILED]

/-- `AuditEventType` -/
def auditEventTypes : List String :=
  ["AUTH_REGISTER", "AUTH_LOGIN_SUCCESS", "AUTH_LOGIN_FAILURE", "AUTH_LOGOUT",
    "AUTH_REFRESH_TOKEN", "AUTH_PASSWORD_CHANGE", "AUTH_FORCED_LOGOUT", "AUTH_2FA_CHALLENGE",
    "AUTH_2FA_SUCCESS", "AUTH_2FA_FAILURE", "USER_VIDEO_START", "USER_VIDEO_PROGRESS",
    "USER_VIDEO_COMPLETE", "USER_VIDEO_ERROR", "USER_NAVIGATION", "USER_CLICK_CRITICAL",
    "USER_SESSION_DURATION", "ECONOMY_CLAIM_FAUCET", "ECONOMY_MACHINE_PURCHASE",
    "ECONOMY_MACHINE_SELL", "ECONOMY_MACHINE_UPGRADE", "ECONOMY_DEPOSIT", "ECONOMY_WITHDRAWAL",
    "ECONOMY_INTERNAL_TRANSFER", "ECONOMY_EXTERNAL_TRANSFER", "ECONOMY_STAKING",
    "ECONOMY_MINING_REWARD", "ECONOMY_TX_FAILURE", "ECONOMY_GAS_ESTIMATION",
    "SYSTEM_ACCOUNT_CREATE", "SYSTEM_KYC_VERIFICATION", "SYSTEM_PROFILE_UPDATE",
    "SYSTEM_CRITICAL_ERROR", "SYSTEM_HEALTHCHECK", "SYSTEM_DEPLOY", "SYSTEM_ROLLBACK",
    "SYSTEM_MAINTENANCE_MODE"]

def AUDIT_SCHEMA_VERSION : String := "audit_event_v1"

structure ErrorContext where
  code : Option String
  message : Option String
  details : Option (List (String × JsonText))

/-- What an outbox row and an audit event have in common, but for the status. -/
structure EventData where
  correlationId : String
  userId : Option ℕ
  anonymousId : Option String
  eventType : String
  severity : Option String
  resultCode : String
  payload : List (String × JsonText)
  timestamp : ℕ
  ipHash : String
  userAgent : Option String
  txHash : Option String
  errorContext : Option ErrorContext
  signature : String
  schemaVersion : String
  source : String

structure EventRecord where
  data : EventData
  status : Status

structure OutboxRow where
  data : EventData
  status : Status
  retryCount : ℕ
  nextRetryAt : Option ℕ
  createdAt : ℕ

structure AuditEvent where
  data : EventData
  status : Status
  chainHash : Option Text

structure Db where
  outbox : Table OutboxRow
  events : Table AuditEvent

/-! ## `auditEventInputSchema` -/

def isHex (c : Char) : Bool := c.isDigit || ('a' ≤ c && c ≤ 'f') || ('A' ≤ c && c ≤ 'F')

def isUuid (s : String) : Bool :=
  let groups := s.toList.splitOn '-'
  groups.map List.length = [8, 4, 4, 4, 12] && groups.all (·.all isHex)

def EventRecord.valid (r : EventRecord) : Bool :=
  isUuid r.data.correlationId
    && r.data.userId.all (0 < ·)
    && r.data.eventType ∈ auditEventTypes
    && r.status ∈ auditEventStatuses
    && r.data.resultCode ≠ ""
    && r.data.ipHash ≠ ""
    && r.data.signature ≠ ""
    && r.data.schemaVersion = AUDIT_SCHEMA_VERSION
    && r.data.source ≠ ""

/-- `parse`: a field the schema does not name is dropped, `severity` among them. -/
def auditEventInputSchema (r : EventRecord) : Option EventRecord :=
  if r.valid then some { r with data := { r.data with severity := none } } else none

/-! ## Chain hashes -/

def numberText (n : ℕ) : NumberText where
  text := Nat.toDigits 10 n
  nonempty := Nat.toDigits_ne_nil
  chars c hc := by
    simp [isNumberChar, Nat.isDigit_of_mem_toDigits (by decide) (by decide) hc]

def optional {α : Type} (f : α → JsonText) (x : Option α) : JsonText := x.elim .null f

/-- A `Date` as `stableStringify` sees it: an object with no keys of its own. -/
def dateValue (_ : ℕ) : JsonText := .object []

/-- The `payload` of `computeChainHash`. -/
def EventData.hashed (e : EventData) : JsonText :=
  .object [
    ("correlationId", .string e.correlationId),
    ("timestamp", dateValue e.timestamp),
    ("eventType", .string e.eventType),
    ("userId", optional (fun n => .number (numberText n)) e.userId),
    ("anonymousId", optional .string e.anonymousId),
    ("payload", .object e.payload),
    ("resultCode", .string e.resultCode),
    ("ipHash", .string e.ipHash),
    ("txHash", optional .string e.txHash),
    ("schemaVersion", .string e.schemaVersion)]

/-- The chain hash of the event with the highest id. -/
def Db.lastHash (db : Db) : Option Text := (db.events.rows.getLast?).bind (·.2.chainHash)

/-- A fetched outbox row, with its id. -/
abbrev Entry := ℕ × OutboxRow

section Hash

variable (sha256 : Text → Text)

/-- `computeChainHash`, for the chain hash of the previous event. -/
def chainHash (previous : Option Text) (e : EventData) : Text :=
  sha256 (previous.getD [] ++ ':' :: sha256 (stableStringify e.hashed))

/-- `createAuditEventFromOutbox` -/
def auditEventOf (outbox : Entry) (previous : Option Text) : AuditEvent where
  data := outbox.2.data
  status := outbox.2.status
  chainHash := some (chainHash sha256 previous outbox.2.data)

end Hash

/-! ## Writes -/

inductive Write where
  | createEvent (id : ℕ) (event : AuditEvent)
  | setOutbox (id : ℕ) (status : Status) (retryCount : ℕ) (nextRetryAt : Option ℕ)

inductive Lock where
  | outbox (id : ℕ)
  /-- The entry of the unique index. -/
  | correlationId (c : String)
deriving DecidableEq

/-- `updateAuditOutboxStatus` -/
def setOutbox (id : ℕ) (status : Status) (retryCount : ℕ) (nextRetryAt : Option ℕ) (db : Db) : Db :=
  { db with
    outbox := db.outbox.modify id fun row => { row with status, retryCount, nextRetryAt } }

def apply (db : Db) : Write → Db
  | .createEvent id event => { db with events := db.events.place id event }
  | .setOutbox id status retryCount nextRetryAt => setOutbox id status retryCount nextRetryAt db

def locks : Write → List Lock
  | .createEvent _ event => [.correlationId event.data.correlationId]
  | .setOutbox id _ _ _ => [.outbox id]

/-! ## Programs -/

inductive Point where
  | createOutbox (record : EventRecord)
  | fetchPending (limit : ℕ)
  | findPrevious (outbox : Entry) (rest : List Entry)
  /-- From here on with the chain hash that was read. -/
  | nextEventId (outbox : Entry) (rest : List Entry) (previous : Option Text)
  | createEvent (outbox : Entry) (rest : List Entry) (previous : Option Text) (id : ℕ)
  | markSent (outbox : Entry) (rest : List Entry) (previous : Option Text) (id : ℕ)
  | commitSent (outbox : Entry) (rest : List Entry) (previous : Option Text) (id : ℕ)
  /-- In the `catch` of an entry. -/
  | markFailed (outbox : Entry) (rest : List Entry)

inductive Request where
  | enqueueAuditEvent (record : EventRecord)
  | processAuditOutboxBatch (limit : ℕ)

/-- A statement succeeds at a time, or fails. -/
inductive Answer where
  | ok (now : ℕ)
  | error
deriving DecidableEq

def start : Request → Option Point
  | .enqueueAuditEvent record => (auditEventInputSchema record).map .createOutbox
  | .processAuditOutboxBatch limit => some (.fetchPending limit)

def OutboxRow.selectable (now : ℕ) (row : OutboxRow) : Bool :=
  row.status = .PENDING && row.nextRetryAt.all (· ≤ now)

/-- `fetchPendingAuditOutbox` -/
def fetchPendingAuditOutbox (db : Db) (limit now : ℕ) : List Entry :=
  ((db.outbox.findMany fun _ row => row.selectable now).insertionSort
    fun e f => e.2.createdAt ≤ f.2.createdAt).take limit

/-- The row of a record, with the defaults of the other columns. -/
def EventRecord.row (record : EventRecord) (now : ℕ) : OutboxRow where
  data := record.data
  status := record.status
  retryCount := 0
  nextRetryAt := none
  createdAt := now

def createAuditEventOutbox (record : EventRecord) (now : ℕ) (db : Db) : Db :=
  { db with outbox := db.outbox.insert (record.row now) }

def Db.hasCorrelationId (db : Db) (c : String) : Bool :=
  (db.events.findFirst fun _ event => event.data.correlationId = c).isSome

/-- The loop goes on with the next entry. -/
def nextEntry : List Entry → Option Point
  | [] => none
  | outbox :: rest => some (.findPrevious outbox rest)

/-- The row after a failure, by the retry count of the entry. -/
def setFailed (outbox : Entry) (now : ℕ) (db : Db) : Db :=
  let nextRetryAt := now + min (60 * 60 * 1000) (1000 * 2 ^ outbox.2.retryCount)
  let retryCount := outbox.2.retryCount + 1
  let status : Status := if 5 ≤ retryCount then .DLQ else .FAILED
  setOutbox outbox.1 status retryCount (if status = .DLQ then none else some nextRetryAt) db

def needs : Point → Answer → List Lock
  | .createEvent outbox _ _ _, .ok _ => [.correlationId outbox.2.data.correlationId]
  | .markSent outbox _ _ _, .ok _ | .markFailed outbox _, .ok _ => [.outbox outbox.1]
  | _, _ => []

variable (sha256 : Text → Text)

def step : Point → Db → Answer → Option (Next Db Write Point)
  | .createOutbox record, _, .ok now => some (.put (createAuditEventOutbox record now) none)
  | .fetchPending limit, db, .ok now =>
      some (.commit (nextEntry (fetchPendingAuditOutbox db limit now)))
  | .findPrevious outbox rest, db, .ok _ => some (.goto (.nextEventId outbox rest db.lastHash))
  | .nextEventId outbox rest previous, db, .ok _ =>
      some (.put (fun db => { db with events := db.events.reserve })
        (some (.createEvent outbox rest previous db.events.nextId)))
  | .createEvent outbox rest previous id, db, .ok _ =>
      if db.hasCorrelationId outbox.2.data.correlationId then
        some (.rollback (some (.markFailed outbox rest)))
      else
        some (.write (.createEvent id (auditEventOf sha256 outbox previous))
          (.markSent outbox rest previous id))
  | .markSent outbox rest previous id, _, .ok _ =>
      some (.write (.setOutbox outbox.1 .SENT outbox.2.retryCount none)
        (.commitSent outbox rest previous id))
  | .commitSent _ rest _ _, _, .ok _ => some (.commit (nextEntry rest))
  | .markFailed outbox rest, _, .ok now => some (.put (setFailed outbox now) (nextEntry rest))
  -- the transaction of an entry fails, and its `catch` goes on
  | .findPrevious outbox rest, _, .error | .nextEventId outbox rest _, _, .error
  | .createEvent outbox rest _ _, _, .error | .markSent outbox rest _ _, _, .error
  | .commitSent outbox rest _ _, _, .error => some (.rollback (some (.markFailed outbox rest)))
  | .createOutbox _, _, .error | .fetchPending _, _, .error | .markFailed _ _, _, .error =>
      some (.rollback none)

def transactions : Transactions Db Write Lock Request Point Answer where
  apply := apply
  locks := locks
  start := start
  needs := needs
  step := step sha256
  covers {p db a w p'} h k hk := by
    cases a with
    | error => cases p <;> cases h
    | ok now =>
        cases p with
        | createEvent outbox rest previous id =>
            simp only [step] at h
            split at h
            · cases h
            · obtain ⟨rfl, rfl⟩ := h
              exact hk
        | markSent outbox rest previous id =>
            obtain ⟨rfl, rfl⟩ := h
            exact hk
        | _ => cases h

/-! ## What a step does -/

/-- The entries a batch has before it. -/
def Point.entries : Point → List Entry
  | .createOutbox _ | .fetchPending _ => []
  | .findPrevious outbox rest | .nextEventId outbox rest _ | .createEvent outbox rest _ _
  | .markSent outbox rest _ _ | .commitSent outbox rest _ _ | .markFailed outbox rest =>
      outbox :: rest

/-- The writes a call has made at each point. -/
def Owes (tx : Tx Write Point) : Prop :=
  match tx.point with
  | .markSent outbox _ previous id =>
      tx.writes = [.createEvent id (auditEventOf sha256 outbox previous)]
  | .commitSent outbox _ previous id =>
      tx.writes = [.createEvent id (auditEventOf sha256 outbox previous),
        .setOutbox outbox.1 .SENT outbox.2.retryCount none]
  | _ => tx.writes = []

/-- The copy of an entry that commits. -/
def copied (outbox : Entry) (previous : Option Text) (id : ℕ) (db : Db) : Db :=
  setOutbox outbox.1 .SENT outbox.2.retryCount none
    { db with events := db.events.place id (auditEventOf sha256 outbox previous) }

/-- What a step of call `tx` makes of the database and of the call. -/
inductive Effect (db : Db) (tx : Tx Write Point) (a : Answer) :
    Db → Option (Tx Write Point) → Prop
  | quiet (tx' : Tx Write Point) (hne : tx.point.entries ≠ [])
      (he : tx'.point.entries = tx.point.entries) (ho : Owes sha256 tx') :
      Effect db tx a db (some tx')
  | ended : Effect db tx a db none
  | enqueued (record : EventRecord) (now : ℕ) (hp : tx.point = .createOutbox record) :
      Effect db tx a (createAuditEventOutbox record now db) none
  | fetched (limit now : ℕ) :
      Effect db tx a db ((nextEntry (fetchPendingAuditOutbox db limit now)).map (⟨·, []⟩))
  | reserved (outbox : Entry) (rest : List Entry) (previous : Option Text)
      (he : tx.point.entries = outbox :: rest) :
      Effect db tx a { db with events := db.events.reserve }
        (some ⟨.createEvent outbox rest previous db.events.nextId, []⟩)
  | sent (outbox : Entry) (rest : List Entry) (previous : Option Text) (id : ℕ)
      (hp : tx.point = .commitSent outbox rest previous id) (ha : a ≠ .error) :
      Effect db tx a (copied sha256 outbox previous id db) ((nextEntry rest).map (⟨·, []⟩))
  | failed (outbox : Entry) (rest : List Entry) (now : ℕ)
      (hp : tx.point = .markFailed outbox rest) :
      Effect db tx a (setFailed outbox now db) ((nextEntry rest).map (⟨·, []⟩))

/-- **Inversion.** Every step of a call has one of the effects. -/
theorem step_effect {db : Db} {tx : Tx Write Point} {a : Answer} {next : Next Db Write Point}
    (ho : Owes sha256 tx)
    (h : step sha256 tx.point ((transactions sha256).view db tx) a = some next) :
    Effect sha256 db tx a ((transactions sha256).dbAfter db tx next) (tx.after next) := by
  obtain ⟨p, ws⟩ := tx
  cases a with
  | error =>
      cases p with
      | createOutbox | fetchPending | markFailed =>
          obtain rfl := Option.some.inj h
          exact .ended
      | findPrevious | nextEventId | createEvent | markSent | commitSent =>
          obtain rfl := Option.some.inj h
          exact .quiet _ nofun rfl rfl
  | ok now =>
      cases p with
      | createOutbox record =>
          obtain rfl : ws = [] := ho
          obtain rfl := Option.some.inj h
          exact .enqueued record now rfl
      | fetchPending limit =>
          obtain rfl : ws = [] := ho
          obtain rfl := Option.some.inj h
          exact .fetched limit now
      | findPrevious outbox rest =>
          obtain rfl : ws = [] := ho
          obtain rfl := Option.some.inj h
          exact .quiet _ nofun rfl rfl
      | nextEventId outbox rest previous =>
          obtain rfl : ws = [] := ho
          obtain rfl := Option.some.inj h
          exact .reserved outbox rest previous rfl
      | createEvent outbox rest previous id =>
          obtain rfl : ws = [] := ho
          simp only [step] at h
          split at h <;> obtain rfl := Option.some.inj h
          · exact .quiet _ nofun rfl rfl
          · exact .quiet _ nofun rfl rfl
      | markSent outbox rest previous id =>
          obtain rfl : ws = _ := ho
          obtain rfl := Option.some.inj h
          exact .quiet _ nofun rfl rfl
      | commitSent outbox rest previous id =>
          obtain rfl : ws = _ := ho
          obtain rfl := Option.some.inj h
          exact .sent outbox rest previous id rfl nofun
      | markFailed outbox rest =>
          obtain rfl : ws = [] := ho
          obtain rfl := Option.some.inj h
          exact .failed outbox rest now rfl

theorem entries_nextEntry {rest : List Entry} {p : Point} (h : nextEntry rest = some p) :
    p.entries = rest := by
  cases rest with
  | nil => cases h
  | cons outbox rest =>
      obtain rfl := Option.some.inj h
      rfl

theorem owes_nextEntry {rest : List Entry} {tx : Tx Write Point}
    (h : (nextEntry rest).map (⟨·, []⟩) = some tx) : tx.point.entries = rest ∧ Owes sha256 tx := by
  obtain ⟨p, hp, rfl⟩ := Option.map_eq_some_iff.mp h
  refine ⟨entries_nextEntry hp, ?_⟩
  cases rest with
  | nil => cases hp
  | cons outbox rest =>
      obtain rfl := Option.some.inj hp
      rfl

/-- A call owes the writes of its new point. -/
theorem Effect.owes {db db' : Db} {tx tx' : Tx Write Point} {a : Answer}
    {next : Option (Tx Write Point)} (h : Effect sha256 db tx a db' next) (htx' : next = some tx') :
    Owes sha256 tx' := by
  cases h with
  | quiet tx'' hne he ho =>
      obtain rfl := Option.some.inj htx'
      exact ho
  | ended => cases htx'
  | enqueued => cases htx'
  | fetched => exact (owes_nextEntry sha256 htx').2
  | reserved =>
      obtain rfl := Option.some.inj htx'
      rfl
  | sent => exact (owes_nextEntry sha256 htx').2
  | failed => exact (owes_nextEntry sha256 htx').2

theorem owes_start {r : Request} {p : Point} (h : start r = some p) : Owes sha256 ⟨p, []⟩ := by
  cases r with
  | enqueueAuditEvent record =>
      obtain ⟨record', -, rfl⟩ := Option.map_eq_some_iff.mp h
      rfl
  | processAuditOutboxBatch limit =>
      obtain rfl := Option.some.inj h
      rfl

end BlockMiner.Audit
