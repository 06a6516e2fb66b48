import Mathlib.Data.Prod.Lex
import BlockMiner.Base64
import BlockMiner.IsoDate
import BlockMiner.JsText
import BlockMiner.JsonSyntax
import BlockMiner.Keyset

/-!
# Pages of the audit log

The audit log is read page by page, newest first. A page names its first and its
last event in cursors, Base64 texts of their dates and ids, and a query with a
cursor reads the events behind the one it names, or with the direction `prev`
the events before it.

What `Date` makes of a value that is no text of `toISOString`, what bytes that
are no UTF-8 stand for, and the database's search for a text whatever its case
are parameters. `none` is an exception of the query.
-/

namespace BlockMiner.AuditPages

open IsoDate (TimeValue toISOString parseISO)

structure Env where
  legacyDate : Json JsNumber → Option TimeValue
  lossy : ByteArray → String
  /-- `{ contains, mode: "insensitive" }` -/
  containsInsensitive : String → String → Bool
  numberText : JsNumber → String

/-- A row, as far as the filters read it. -/
structure AuditEvent where
  id : ℤ
  correlationId : String
  userId : Option ℤ
  eventType : String
  status : String
  severity : Option String
  resultCode : String
  ipHash : String
  txHash : Option String
  createdAt : TimeValue
  isInt : -2 ^ 31 ≤ id ∧ id < 2 ^ 31

/-- The table; the ids are its primary key. -/
structure Db where
  auditEvent : List AuditEvent
  primary : (auditEvent.map (·.id)).Nodup

inductive Direction where
  | next
  | prev

/-- A query that the schema has parsed; a text that is empty is no filter. -/
structure Query where
  limit : ℕ
  cursor : Option String
  direction : Direction
  fromDate : Option String
  toDate : Option String
  userId : Option ℤ
  eventType : Option String
  status : Option String
  severity : Option String
  ipHash : Option String
  correlationId : Option String
  txHash : Option String
  search : Option String

/-- `new Date` may make no date of a value. -/
structure Cursor where
  createdAt : Option TimeValue
  id : JsNumber

section Cursors

variable (env : Env)

def CURSOR_VERSION : String := "audit-log-v1"

def encodeAuditCursor (createdAt : String) (id : ℤ) : String :=
  Base64.encodeText (JsonSyntax.stringify
    [("version", .text CURSOR_VERSION), ("createdAt", .text createdAt), ("id", .whole id)])

/-- `new Date(value)` -/
def newDate (value : Json JsNumber) : Option TimeValue :=
  ((value.string?).bind parseISO).or (env.legacyDate value)

/-- `!value` -/
def isFalsy : Json JsNumber → Bool
  | .null | .bool false => true
  | .number n => n = .finite 0 || n = .nan
  | .string s => s = ""
  | _ => false

/-- A value whose text throws makes `new Date` and `Number` throw, which is caught. -/
def decodeAuditCursor (value : Option String) : Option Cursor := do
  let data ← JsonSyntax.parse (Base64.decodeText env.lossy (← value.filter (· ≠ "")))
  if (data.get "version").bind Json.string? ≠ some CURSOR_VERSION then none
  let createdAt ← (data.get "createdAt").filter fun v => !isFalsy v
  let id ← data.get "id"
  let _ ← createdAt.text env.numberText
  let _ ← id.text env.numberText
  return { createdAt := newDate env createdAt, id := Number (some id) }

end Cursors

/-! ## Queries -/

/-- An `Int` of the database. -/
def toInt : JsNumber → Option ℤ
  | .finite q => if q.den = 1 ∧ -2 ^ 31 ≤ q.num ∧ q.num < 2 ^ 31 then some q.num else none
  | _ => none

/-- Prisma takes neither an invalid date nor an id that is no `Int`. -/
def buildCursorWhere (cursor : Option Cursor) (direction : Direction) :
    Option (AuditEvent → Bool) :=
  match cursor with
  | none => some fun _ => true
  | some cursor => do
      let date ← cursor.createdAt
      let id ← toInt cursor.id
      match direction with
      | .prev => return fun e =>
          date.ms < e.createdAt.ms || (e.createdAt.ms = date.ms && id < e.id)
      | .next => return fun e =>
          e.createdAt.ms < date.ms || (e.createdAt.ms = date.ms && e.id < id)

section Fetch

variable (env : Env)

/-- A date of the filters, if there is one. -/
def filterDate (value : Option String) : Option (Option TimeValue) :=
  match value.filter (· ≠ "") with
  | none => some none
  | some text => (newDate env (.string text)).map some

/-- An equality, if there is a text to compare with. -/
def equals (value : Option String) (field : Option String) : Bool :=
  (value.filter (· ≠ "")).all fun text => field = some text

def buildAuditEventWhere (filters : Query) : Option (AuditEvent → Bool) := do
  let first ← filterDate env filters.fromDate
  let last ← filterDate env filters.toDate
  return fun e =>
    first.all (·.ms ≤ e.createdAt.ms) && last.all (e.createdAt.ms ≤ ·.ms)
      && (filters.userId.filter (· ≠ 0)).all (fun id => e.userId = some id)
      && equals filters.eventType e.eventType && equals filters.status e.status
      && equals filters.severity e.severity && equals filters.ipHash e.ipHash
      && equals filters.correlationId e.correlationId && equals filters.txHash e.txHash
      && (filters.search.filter (· ≠ "")).all fun searchValue =>
          [some e.correlationId, e.txHash, some e.eventType, some e.resultCode].any fun field =>
            field.any (env.containsInsensitive · searchValue)

/-- The rows are ordered by their dates, and those of one date by their ids. -/
def key (e : AuditEvent) : ℤ ×ₗ ℤ := toLex (e.createdAt.ms, e.id)

def orderBy (direction : Direction) : List AuditEvent → List AuditEvent :=
  match direction with
  | .prev => Keyset.oldestFirst key
  | .next => Keyset.newestFirst key

def normalizeResults (results : List AuditEvent) (direction : Direction) : List AuditEvent :=
  match direction with
  | .prev => results.reverse
  | .next => results

structure Page where
  items : List AuditEvent
  nextCursor : Option String
  prevCursor : Option String
  hasNext : Bool
  hasPrev : Bool

def cursorOf (e : AuditEvent) : String := encodeAuditCursor (toISOString e.createdAt) e.id

def buildPageInfo (results : List AuditEvent) (limit : ℕ) (direction : Direction) : Page :=
  let hasMore := decide (limit < results.length)
  let safeResults := if hasMore then results.take limit else results
  let normalized := normalizeResults safeResults direction
  { items := normalized
    nextCursor := normalized.getLast?.map cursorOf
    prevCursor := normalized.head?.map cursorOf
    hasNext := hasMore
    hasPrev := hasMore }

def fetchAuditEvents (db : Db) (query : Query) : Option Page := do
  let cursorWhere ← buildCursorWhere (decodeAuditCursor env query.cursor) query.direction
  let baseWhere ← buildAuditEventWhere env query
  let rows := db.auditEvent.filter fun e => baseWhere e && cursorWhere e
  let records := orderBy query.direction rows
  return buildPageInfo (records.take (query.limit + 1)) query.limit query.direction

end Fetch

end BlockMiner.AuditPages
