import BlockMiner.Audit
import BlockMiner.AuditPayloads
import BlockMiner.JsonSyntax

/-!
# Signed audit records

`buildEventRecord` and `enqueueAuditEvent` of `audit/service.js` with all the
fields that `buildAuditSignature` signs. The record is signed first and parsed
by the schema after that, which drops what it does not name.

A parameter says which texts `z.string().datetime()` takes. A text of a payload
with a lone surrogate, which the mask can leave, is read with U+FFFD in its
place; the database refuses such a text.
-/

namespace BlockMiner.AuditSignatures

open AuditPayloads (Units Value Node PROTO auditEventPayloadSchema sanitizeAuditPayload)

/-! ## The JSON of a payload -/

/-- The characters of UTF-16 code units. -/
def chars : Units → List Char
  | [] => []
  | [u] => [JsonSyntax.unitChar u.toNat]
  | u :: w :: rest =>
      if JsonSyntax.isHigh u.toNat && JsonSyntax.isLow w.toNat then
        Char.ofNat (0x10000 + (u.toNat - 0xD800) * 0x400 + (w.toNat - 0xDC00)) :: chars rest
      else JsonSyntax.unitChar u.toNat :: chars (w :: rest)

mutual

/-- The value as `Object.keys` shows it. -/
def json : Node → JsonText
  | .null => .null
  | .bool b => .bool b
  | .number n => .number n
  | .string s => .string (String.ofList (chars s))
  | .array items => .array (jsonItems items)
  | .object own _ => .object (jsonFields own)

def jsonItems : List Node → List JsonText
  | [] => []
  | item :: items => json item :: jsonItems items

def jsonFields : List (String × Node) → List (String × JsonText)
  | [] => []
  | (key, value) :: fields => (key, json value) :: jsonFields fields

end

theorem jsonFields_eq (fields : List (String × Node)) :
    jsonFields fields = fields.map (Prod.map id json) := by
  induction fields with
  | nil => rfl
  | cons field fields ih => rw [jsonFields, ih, List.map_cons]; rfl

/-! ## `buildAuditSignature` -/

/-- The fields of an object, with `none` for `undefined`. -/
abbrev Fields := List (String × Option JsonText)

def fieldValueText : Option JsonText → Text
  | none => "undefined".toList
  | some value => stableStringify value

/-- `stableStringify` of an object with its fields. -/
def objectText (fields : Fields) : Text :=
  '{' :: (join ((sortKeys (fields.map (Prod.map id fieldValueText))).map fieldText) ++ ['}'])

/-- `{ ...event, signature: undefined }` -/
def unsigned (event : Fields) : Fields :=
  event.filter (·.1 ≠ "signature") ++ [("signature", none)]

/-- The parameter is the HMAC with the secret. -/
def buildAuditSignature (hmac : Text → Text) (event : Fields) : Text :=
  hmac (objectText (unsigned event))

/-! ## Records -/

def statusText : Audit.Status → String
  | .SUCCESS => "SUCCESS"
  | .PARTIAL => "PARTIAL"
  | .FAILED => "FAILED"
  | .PENDING => "PENDING"
  | .SENT => "SENT"
  | .DLQ => "DLQ"

/-- An event as it is given: `none`, and `.null` for a JSON value, where it is `null` or left
out. The schema refuses values of other types, but takes any severity. -/
structure Event where
  correlationId : Option String
  userId : Option ℕ
  anonymousId : Option String
  timestamp : Option String
  eventType : String
  status : Audit.Status
  severity : JsonText
  resultCode : String
  payload : Value
  ipHash : String
  userAgent : Option String
  txHash : Option String
  errorContext : JsonText
  schemaVersion : Option String
  source : Option String

structure Record where
  correlationId : String
  userId : Option ℕ
  anonymousId : Option String
  eventType : String
  status : Audit.Status
  severity : JsonText
  resultCode : String
  payload : Node
  timestamp : String
  ipHash : String
  userAgent : Option String
  txHash : Option String
  errorContext : JsonText
  signature : Text
  schemaVersion : String
  source : String

/-- The fields of a record but its signature, with a view of its timestamp. -/
def Record.fields (timestamp : JsonText) (r : Record) : Fields := [
  ("correlationId", some (.string r.correlationId)),
  ("userId", some (Audit.optional (fun n => .number (Audit.numberText n)) r.userId)),
  ("anonymousId", some (Audit.optional .string r.anonymousId)),
  ("eventType", some (.string r.eventType)),
  ("status", some (.string (statusText r.status))),
  ("severity", some r.severity),
  ("resultCode", some (.string r.resultCode)),
  ("payload", some (json r.payload)),
  ("timestamp", some timestamp),
  ("ipHash", some (.string r.ipHash)),
  ("userAgent", some (Audit.optional .string r.userAgent)),
  ("txHash", some (Audit.optional .string r.txHash)),
  ("errorContext", some r.errorContext),
  ("schemaVersion", some (.string r.schemaVersion)),
  ("source", some (.string r.source))]

/-- `buildEventRecord`, with the correlation id and the time that `enqueueAuditEvent` puts in
for missing ones. -/
def buildEventRecord (hmac : Text → Text) (correlationId timestamp : String) (e : Event) :
    Record :=
  let event : Record :=
    { correlationId := (e.correlationId.filter (· ≠ "")).getD correlationId
      userId := e.userId
      anonymousId := e.anonymousId
      eventType := e.eventType
      status := e.status
      severity := e.severity
      resultCode := e.resultCode
      payload := sanitizeAuditPayload e.payload.orEmpty
      timestamp := (e.timestamp.filter (· ≠ "")).getD timestamp
      ipHash := e.ipHash
      userAgent := e.userAgent
      txHash := e.txHash
      errorContext := e.errorContext
      signature := []
      schemaVersion := e.schemaVersion.getD Audit.AUDIT_SCHEMA_VERSION
      source := e.source.getD "api" }
  { event with signature := buildAuditSignature hmac (event.fields (.string event.timestamp)) }

/-! ## `auditEventInputSchema` -/

def errorContextKeys : List String := ["code", "message", "details"]

/-- The value of a field fits what `auditErrorContextSchema` says of its key. -/
def errorContextField : String × JsonText → Bool
  | ("code", .string _) | ("message", .string _) | ("details", .object _) => true
  | (key, _) => key ∉ errorContextKeys

/-- `z.record(z.any())` of parsed JSON. -/
def copyRecord : JsonText → JsonText
  | .object fields => .object (fields.filter (·.1 ≠ PROTO))
  | value => value

def copyField (field : String × JsonText) : String × JsonText :=
  if field.1 = "details" then (field.1, copyRecord field.2) else field

/-- The object schema drops keys that it does not name. -/
def auditErrorContextSchema : JsonText → Option JsonText
  | .null => some .null
  | .object fields =>
      if fields.all errorContextField then
        some (.object ((fields.filter (·.1 ∈ errorContextKeys)).map copyField))
      else none
  | _ => none

def Record.valid (isDatetime : String → Bool) (r : Record) : Bool :=
  Audit.isUuid r.correlationId
    && r.userId.all (0 < ·)
    && isDatetime r.timestamp
    && r.eventType ∈ Audit.auditEventTypes
    && r.status ∈ Audit.auditEventStatuses
    && r.resultCode ≠ ""
    && r.ipHash ≠ ""
    && r.signature ≠ []
    && r.schemaVersion = Audit.AUDIT_SCHEMA_VERSION
    && r.source ≠ ""

/-- `parse`: the schema has no `severity`, so its column is left `NULL`. -/
def auditEventInputSchema (isDatetime : String → Bool) (r : Record) : Option Record :=
  if r.valid isDatetime then
    (auditEventPayloadSchema r.payload).bind fun payload =>
      (auditErrorContextSchema r.errorContext).map fun errorContext =>
        { r with severity := .null, payload, errorContext }
  else none

/-- The row that `enqueueAuditEvent` creates; `none` where the schema refuses the record. -/
def enqueueAuditEvent (hmac : Text → Text) (isDatetime : String → Bool)
    (correlationId timestamp : String) (e : Event) : Option Record :=
  auditEventInputSchema isDatetime (buildEventRecord hmac correlationId timestamp e)

end BlockMiner.AuditSignatures
