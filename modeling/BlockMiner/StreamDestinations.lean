import BlockMiner.Base64
import BlockMiner.Checkin
import BlockMiner.IsoDate
import BlockMiner.RewardDefinitions
import BlockMiner.Service

/-!
# Stream destinations

What administrators do with the destinations of the streams: the handlers of
`adminYoutubeStreamController.js` that list, read, create, change and remove
them, `youtubeStreamService.js`, `streamAdminValidation.js` and
`streamSecrets.js`. The keys of a destination are stored encrypted. The stream
runner reads a destination to start its stream and writes how it goes; all that
it writes, a reconciliation or a stop among it, is an update by a worker, which
happens at any time.

AES-GCM is a parameter, and so are the reading of bytes that are no UTF-8 and
what zod takes for a URL. Ids are exact. A query is done, fails, or is done with
its result lost. The pages that no route uses (`adminListStreamDestinations`,
`adminGetStreamDestination`) are left out.
-/

namespace BlockMiner.StreamDestinations

open Checkin (isHexDigit)
open IsoDate (TimeValue toISOString)
open RewardDefinitions (fitsInt)

/-! ## Secrets -/

/-- The nonce of an encryption, `crypto.randomBytes(12)`. -/
structure Iv where
  bytes : List UInt8
  length : bytes.length = 12

/-- `crypto`'s `aes-256-gcm`. -/
structure Gcm where
  /-- The encrypted bytes and their tag. -/
  encrypt : List UInt8 → Iv → List UInt8 → List UInt8 × List UInt8
  decrypt : List UInt8 → List UInt8 → List UInt8 → List UInt8 → Option (List UInt8)

/-- What it encrypts it decrypts; a tag has 16 bytes. -/
structure Gcm.Lawful (gcm : Gcm) : Prop where
  tag : ∀ key iv data, (gcm.encrypt key iv data).2.length = 16
  decrypt : ∀ key iv data,
    gcm.decrypt key iv.bytes (gcm.encrypt key iv data).2 (gcm.encrypt key iv data).1 = some data

def hexByte (high low : Char) : UInt8 :=
  .ofNat ((digitValue 16 high).getD 0 * 16 + (digitValue 16 low).getD 0)

/-- `Buffer.from(hex, "hex")` -/
def hexBytes : List Char → List UInt8
  | high :: low :: cs => hexByte high low :: hexBytes cs
  | _ => []

def getStreamEncryptionKeyBuffer (STREAM_ENCRYPTION_KEY : Option String) :
    Option (List UInt8) :=
  let hex := trimStr (STREAM_ENCRYPTION_KEY.getD "").toList
  if hex.length = 64 ∧ hex.all isHexDigit then some (hexBytes hex) else none

section Cipher

variable (gcm : Gcm) (lossy : ByteArray → String) (key : Option (List UInt8))

def blob (key : List UInt8) (iv : Iv) (plain : String) : String :=
  let (enc, tag) := gcm.encrypt key iv plain.toByteArray.data.toList
  String.ofList (Base64.encode (iv.bytes ++ tag ++ enc))

def encryptStreamSecret (iv : Iv) (plain : String) : Option String :=
  match key with
  | none => none
  | some key => if plain = "" then none else some (blob gcm key iv plain)

/-- `buffer.toString("utf8")` -/
def utf8Text (bytes : List UInt8) : String :=
  let array : ByteArray := ⟨bytes.toArray⟩
  if h : array.IsValidUTF8 then ⟨array, h⟩ else lossy array

def decryptStreamSecret : Option String → Option String
  | none => none
  | some blob => do
      let key ← key
      let raw := Base64.decode blob.toList
      if blob = "" ∨ raw.length < 12 + 16 then none
      else
        (gcm.decrypt key (raw.take 12) ((raw.drop 12).take 16) (raw.drop 28)).map (utf8Text lossy)

end Cipher

/-- What `streamSecrets.js` exports, and `Boolean(blob)`, for one key of the environment. -/
structure Secrets (β : Type) where
  isStreamEncryptionConfigured : Bool
  encryptStreamSecret : Iv → String → Option β
  decryptStreamSecret : Option β → Option String
  truthy : β → Bool

def streamSecrets (gcm : Gcm) (lossy : ByteArray → String)
    (STREAM_ENCRYPTION_KEY : Option String) : Secrets String :=
  let key := getStreamEncryptionKeyBuffer STREAM_ENCRYPTION_KEY
  { isStreamEncryptionConfigured := key.isSome
    encryptStreamSecret := encryptStreamSecret gcm key
    decryptStreamSecret := decryptStreamSecret gcm lossy key
    truthy := (· ≠ "") }

/-! ## Bodies -/

/-- What zod makes of a value. -/
inductive Parsed (α : Type) where
  | ok (data : α)
  | issues (messages : List String)
  /-- A value that cannot be converted. -/
  | threw

namespace Parsed

variable {α β : Type}

def map (f : α → β) : Parsed α → Parsed β
  | .ok a => .ok (f a)
  | .issues messages => .issues messages
  | .threw => .threw

/-- One more field of an object: all fields are checked. -/
def field : Parsed (α → β) → Parsed α → Parsed β
  | .threw, _ | _, .threw => .threw
  | .ok f, .ok a => .ok (f a)
  | .ok _, .issues messages | .issues messages, .ok _ => .issues messages
  | .issues messages, .issues messages' => .issues (messages ++ messages')

end Parsed

abbrev Body := Option (Json JsNumber)

section Fields

variable {α : Type}

def parsedType : Json JsNumber → String
  | .null => "null"
  | .bool _ => "boolean"
  | .number .nan => "nan"
  | .number _ => "number"
  | .string _ => "string"
  | .array _ => "array"
  | .object _ => "object"

def invalidType (expected : String) (received : Json JsNumber) : List String :=
  ["Expected " ++ expected ++ ", received " ++ parsedType received]

def checked (value : α) (messages : List String) : Parsed α :=
  if messages = [] then .ok value else .issues messages

def required (read : Json JsNumber → Parsed α) : Body → Parsed α
  | none => .issues ["Required"]
  | some value => read value

def optional (read : Json JsNumber → Parsed α) : Body → Parsed (Option α)
  | none => .ok none
  | some value => (read value).map some

def nullable (read : Json JsNumber → Parsed α) : Json JsNumber → Parsed (Option α)
  | .null => .ok none
  | value => (read value).map some

def atLeast (min : ℕ) (s : String) : List String :=
  if utf16Length s < min then ["String must contain at least " ++ toString min ++ " character(s)"]
  else []

def atMost (max : ℕ) (s : String) : List String :=
  if max < utf16Length s then ["String must contain at most " ++ toString max ++ " character(s)"]
  else []

/-- `z.string()` with its checks, each of which adds to the issues. -/
def string (prepare : String → String) (checks : List (String → List String)) :
    Json JsNumber → Parsed String
  | .string s => checked (prepare s) (checks.flatMap (· (prepare s)))
  | value => .issues (invalidType "string" value)

def label : Json JsNumber → Parsed String := string trim [atLeast 1, atMost 200]

def captureUrl (isUrl : String → Bool) : Json JsNumber → Parsed String :=
  string id [fun s => if isUrl s then [] else ["Invalid url"], atMost 2048]

def rtmpUrl : Json JsNumber → Parsed (Option String) :=
  nullable (string trim [atLeast 8, atMost 512])

def streamKey : Json JsNumber → Parsed String := string id [atLeast 1, atMost 512]

/-- A union of a key and the empty text. Of the options only the text has an issue of its own. -/
def streamKeyOrEmpty : Json JsNumber → Parsed String
  | .string s => checked s (atMost 512 s)
  | _ => .issues ["Invalid input"]

/-- A union of a text and `null`. -/
def youtubeDataApiKey : Json JsNumber → Parsed (Option String)
  | .null => .ok none
  | .string s => checked (some s) (atMost 512 s)
  | _ => .issues ["Invalid input"]

def tooSmall (min : ℤ) : String := "Number must be greater than or equal to " ++ toString min

def tooBig (max : ℤ) : String := "Number must be less than or equal to " ++ toString max

def float : String := "Expected integer, received float"

/-- `z.coerce.number().int().min(min).max(max)` -/
def coercedInt (min max : ℤ) (value : Json JsNumber) : Parsed ℤ :=
  if value.isObject ∧ value.text (fun _ => "") = none then .threw
  else match Number (some value) with
    | .nan => .issues ["Expected number, received nan"]
    | .infinite negative => .issues [float, if negative then tooSmall min else tooBig max]
    | .finite q =>
        checked q.num ((if q.den = 1 then [] else [float])
          ++ (if q < min then [tooSmall min] else []) ++ (if max < q then [tooBig max] else []))

def boolean : Json JsNumber → Parsed Bool
  | .bool b => .ok b
  | value => .issues (invalidType "boolean" value)

/-- `z.object`, for the fields of an object. -/
def object (read : (String → Body) → Parsed α) : Body → Parsed α
  | some (.object fields) => read fun key => (Json.object fields).get key
  | some value => .issues (invalidType "object" value)
  | none => .issues ["Required"]

end Fields

/-- A field that is `none` is `undefined`. -/
structure CreateInput where
  label : String
  captureUrl : String
  rtmpUrl : Option (Option String)
  streamKey : String
  youtubeDataApiKey : Option (Option String)
  videoWidth : Option ℤ
  videoHeight : Option ℤ
  videoBitrateK : Option ℤ
  audioBitrateK : Option ℤ
  enabled : Option Bool

structure PatchInput where
  label : Option String
  captureUrl : Option String
  rtmpUrl : Option (Option String)
  streamKey : Option String
  youtubeDataApiKey : Option (Option String)
  videoWidth : Option ℤ
  videoHeight : Option ℤ
  videoBitrateK : Option ℤ
  audioBitrateK : Option ℤ
  enabled : Option Bool

def parseCreateStreamDestination (isUrl : String → Bool) : Body → Parsed CreateInput :=
  object fun d =>
    (Parsed.ok CreateInput.mk).field (required label (d "label"))
      |>.field (required (captureUrl isUrl) (d "captureUrl"))
      |>.field (optional rtmpUrl (d "rtmpUrl"))
      |>.field (required streamKey (d "streamKey"))
      |>.field (optional youtubeDataApiKey (d "youtubeDataApiKey"))
      |>.field (optional (coercedInt 640 1920) (d "videoWidth"))
      |>.field (optional (coercedInt 360 1080) (d "videoHeight"))
      |>.field (optional (coercedInt 500 12000) (d "videoBitrateK"))
      |>.field (optional (coercedInt 64 320) (d "audioBitrateK"))
      |>.field (optional boolean (d "enabled"))

def parsePatchStreamDestination (isUrl : String → Bool) : Body → Parsed PatchInput :=
  object fun d =>
    (Parsed.ok PatchInput.mk).field (optional label (d "label"))
      |>.field (optional (captureUrl isUrl) (d "captureUrl"))
      |>.field (optional rtmpUrl (d "rtmpUrl"))
      |>.field (optional streamKeyOrEmpty (d "streamKey"))
      |>.field (optional youtubeDataApiKey (d "youtubeDataApiKey"))
      |>.field (optional (coercedInt 640 1920) (d "videoWidth"))
      |>.field (optional (coercedInt 360 1080) (d "videoHeight"))
      |>.field (optional (coercedInt 500 12000) (d "videoBitrateK"))
      |>.field (optional (coercedInt 64 320) (d "audioBitrateK"))
      |>.field (optional boolean (d "enabled"))

def defaultRtmpUrl : String := "rtmp://a.rtmp.youtube.com/live2"

/-! ## Rows -/

/-- The columns of a new row. -/
structure NewDestination (β : Type) where
  label : String
  captureUrl : String
  rtmpUrl : String
  streamKeyEnc : Option β
  youtubeDataApiKeyEnc : Option β
  videoWidth : ℤ
  videoHeight : ℤ
  videoBitrateK : ℤ
  audioBitrateK : ℤ
  enabled : Bool

structure StreamDestination (β : Type) extends NewDestination β where
  desiredRunning : Bool
  lastWorkerStatus : String
  lastError : Option String
  lastHeartbeatAt : Option TimeValue
  lastStartedAt : Option TimeValue
  lastStoppedAt : Option TimeValue
  createdAt : TimeValue
  updatedAt : TimeValue

/-- The data of an update by an administrator; `none` keeps a column. -/
structure Patch (β : Type) where
  label : Option String
  captureUrl : Option String
  rtmpUrl : Option String
  streamKeyEnc : Option (Option β)
  youtubeDataApiKeyEnc : Option (Option β)
  videoWidth : Option ℤ
  videoHeight : Option ℤ
  videoBitrateK : Option ℤ
  audioBitrateK : Option ℤ
  enabled : Option Bool

/-- The data of an update by a worker. -/
structure WorkerUpdate where
  desiredRunning : Option Bool
  lastWorkerStatus : Option String
  lastError : Option (Option String)
  lastHeartbeatAt : Option TimeValue
  lastStartedAt : Option TimeValue
  lastStoppedAt : Option TimeValue

structure AdminJson where
  id : ℕ
  label : String
  captureUrl : String
  rtmpUrl : String
  hasStreamKey : Bool
  hasYoutubeDataApiKey : Bool
  videoWidth : ℤ
  videoHeight : ℤ
  videoBitrateK : ℤ
  audioBitrateK : ℤ
  enabled : Bool
  desiredRunning : Bool
  lastWorkerStatus : String
  lastError : Option String
  lastHeartbeatAt : Option String
  lastStartedAt : Option String
  lastStoppedAt : Option String
  createdAt : String
  updatedAt : String

section Rows

variable {β : Type}

def NewDestination.row (data : NewDestination β) (now : TimeValue) : StreamDestination β :=
  { data with
    desiredRunning := false, lastWorkerStatus := "OFFLINE", lastError := none
    lastHeartbeatAt := none, lastStartedAt := none, lastStoppedAt := none
    createdAt := now, updatedAt := now }

def Patch.apply (data : Patch β) (now : TimeValue) (row : StreamDestination β) :
    StreamDestination β :=
  { row with
    label := data.label.getD row.label
    captureUrl := data.captureUrl.getD row.captureUrl
    rtmpUrl := data.rtmpUrl.getD row.rtmpUrl
    streamKeyEnc := data.streamKeyEnc.getD row.streamKeyEnc
    youtubeDataApiKeyEnc := data.youtubeDataApiKeyEnc.getD row.youtubeDataApiKeyEnc
    videoWidth := data.videoWidth.getD row.videoWidth
    videoHeight := data.videoHeight.getD row.videoHeight
    videoBitrateK := data.videoBitrateK.getD row.videoBitrateK
    audioBitrateK := data.audioBitrateK.getD row.audioBitrateK
    enabled := data.enabled.getD row.enabled
    updatedAt := now }

def WorkerUpdate.apply (data : WorkerUpdate) (now : TimeValue) (row : StreamDestination β) :
    StreamDestination β :=
  { row with
    desiredRunning := data.desiredRunning.getD row.desiredRunning
    lastWorkerStatus := data.lastWorkerStatus.getD row.lastWorkerStatus
    lastError := data.lastError.getD row.lastError
    lastHeartbeatAt := data.lastHeartbeatAt <|> row.lastHeartbeatAt
    lastStartedAt := data.lastStartedAt <|> row.lastStartedAt
    lastStoppedAt := data.lastStoppedAt <|> row.lastStoppedAt
    updatedAt := now }

end Rows

/-! ## The service of the destinations -/

structure Refusal where
  status : ℕ
  message : String

def notConfigured : Refusal := ⟨503, "STREAM_ENCRYPTION_KEY is not configured (64 hex chars)."⟩

def notFound : Refusal := ⟨404, "Destination not found."⟩

def invalidId : Refusal := ⟨400, "Invalid id."⟩

structure Credentials where
  streamKey : String
  rtmpUrl : String
deriving DecidableEq

def buildRtmpIngestUrl (rtmpBase streamKey : String) : String :=
  let base := rtmpBase.toList.rdropWhile (· = '/')
  let key := streamKey.toList.dropWhile (· = '/')
  String.ofList (base ++ '/' :: key)

/-- The URL that is given, unless there is nothing but white space. -/
def rtmpUrlOr (rtmpUrl : Option String) : String :=
  ((rtmpUrl.map trim).filter (· ≠ "")).getD defaultRtmpUrl

section Secret

variable {β : Type} (secrets : Secrets β)

def destinationToAdminJson (row : ℕ × StreamDestination β) : AdminJson :=
  { row.2 with
    id := row.1
    hasStreamKey := row.2.streamKeyEnc.any secrets.truthy
    hasYoutubeDataApiKey := row.2.youtubeDataApiKeyEnc.any secrets.truthy
    lastHeartbeatAt := row.2.lastHeartbeatAt.map toISOString
    lastStartedAt := row.2.lastStartedAt.map toISOString
    lastStoppedAt := row.2.lastStoppedAt.map toISOString
    createdAt := toISOString row.2.createdAt
    updatedAt := toISOString row.2.updatedAt }

def getDecryptedStreamCredentials (row : StreamDestination β) : Option Credentials :=
  ((secrets.decryptStreamSecret row.streamKeyEnc).filter (· ≠ "")).map fun key =>
    ⟨key, buildRtmpIngestUrl row.rtmpUrl key⟩

/-- The row of a body, or why there is none. -/
def newDestination (d : CreateInput) (iv iv' : Iv) : Except Refusal (NewDestination β) :=
  match secrets.encryptStreamSecret iv d.streamKey with
  | none => .error ⟨500, "Failed to encrypt stream key."⟩
  | some streamKeyEnc => .ok
      { label := d.label
        captureUrl := d.captureUrl
        rtmpUrl := rtmpUrlOr d.rtmpUrl.join
        streamKeyEnc := some streamKeyEnc
        youtubeDataApiKeyEnc :=
          ((d.youtubeDataApiKey.join.map trim).filter (· ≠ "")).bind
            (secrets.encryptStreamSecret iv')
        videoWidth := d.videoWidth.getD 1280
        videoHeight := d.videoHeight.getD 720
        videoBitrateK := d.videoBitrateK.getD 2500
        audioBitrateK := d.audioBitrateK.getD 128
        enabled := d.enabled ≠ some false }

/-- A key that is replaced, or cleared. -/
def replaced (iv : Iv) (message : String) (key : Option String) : Except Refusal (Option β) :=
  if !secrets.isStreamEncryptionConfigured then .error notConfigured
  else match key with
    | none => .ok none
    | some key => match secrets.encryptStreamSecret iv key with
      | none => .error ⟨500, message⟩
      | some enc => .ok (some enc)

/-- A field that need not be given. -/
def whenGiven {α γ : Type} (f : α → Except Refusal γ) : Option α → Except Refusal (Option γ)
  | none => .ok none
  | some a => (f a).map some

def patchOf (d : PatchInput) (iv iv' : Iv) : Except Refusal (Patch β) := do
  let streamKeyEnc ← whenGiven (fun key =>
    replaced secrets iv "Failed to encrypt stream key." (if key = "" then none else some key))
    d.streamKey
  let youtubeDataApiKeyEnc ← whenGiven (fun key =>
    replaced secrets iv' "Failed to encrypt API key." ((key.filter (· ≠ "")).map trim))
    d.youtubeDataApiKey
  return { d with
    rtmpUrl := d.rtmpUrl.map rtmpUrlOr
    streamKeyEnc, youtubeDataApiKeyEnc }

end Secret

/-! ## Requests -/

inductive Request where
  | list
  | get (id : String)
  | create (body : Body) (iv iv' : Iv)
  | patch (id : String) (body : Body)
  | remove (id : String)
  /-- `startStreamForDestination` gets to the row. -/
  | start (id : ℕ)
  | update (id : ℕ) (data : WorkerUpdate)

inductive Response where
  | destinations (rows : List (AdminJson × Bool))
  | destination (row : AdminJson) (workerAlive : Option Bool)
  | created (row : AdminJson)
  | removed
  | failed (refusal : Refusal)

/-- What a stream is started with. -/
structure PipelineInput where
  captureUrl : String
  credentials : Credentials
  width : ℤ
  height : ℤ
  videoBitrateK : ℤ
  audioBitrateK : ℤ

inductive Happening where
  | answered (response : Response)
  /-- A stream that is to run is started, if there are credentials. -/
  | launched (id : ℕ) (input : Option PipelineInput)

structure Site (β : Type) where
  destinations : Table (StreamDestination β)
  log : List Happening

def Site.start (β : Type) : Site β := ⟨.empty, []⟩

inductive Call (β : Type) where
  | reconcile
  | list
  | getFind (id : ℤ)
  | getFresh (id : ℤ)
  | create (data : NewDestination β)
  | patchFind (id : ℤ) (body : Body)
  | patch (id : ℕ) (data : Patch β)
  | removeFind (id : ℤ)
  | remove (id : ℕ)
  | startFind (id : ℕ)
  | update (id : ℕ) (data : WorkerUpdate)

inductive Outcome where
  | done
  | error
  | lost

/-- How a query ends, and what the code that waits for it finds then. -/
structure Answer where
  outcome : Outcome
  now : TimeValue
  iv : Iv
  iv' : Iv
  isStreamActive : ℕ → Bool

section Handlers

variable {β : Type} (isUrl : String → Bool) (secrets : Secrets β) (s : Site β)

def Site.answer (response : Response) : Site β × Option (Call β) :=
  ({ s with log := s.log ++ [.answered response] }, none)

def Site.refuse (refusal : Refusal) : Site β × Option (Call β) := s.answer (.failed refusal)

/-- `none` is a query that throws: an id that is no `Int`. -/
def findUnique (id : ℤ) : Option (Option (ℕ × StreamDestination β)) :=
  if fitsInt id then some ((s.destinations.row id.toNat).map fun row => (id.toNat, row)) else none

/-- The answer to a request whose query fails; an update by a worker goes on, and the
administrators do not wait for a start. -/
def Call.failure : Call β → Option Refusal
  | .reconcile | .list => some ⟨500, "Failed to list stream destinations."⟩
  | .getFind _ | .getFresh _ => some ⟨500, "Failed to load destination."⟩
  | .create _ => some ⟨500, "Failed to create destination."⟩
  | .patchFind _ _ | .patch _ _ => some ⟨500, "Failed to update destination."⟩
  | .removeFind _ | .remove _ => some ⟨500, "Failed to delete destination."⟩
  | .startFind _ | .update _ _ => none

def fail (c : Call β) : Site β × Option (Call β) :=
  match c.failure with
  | none => (s, none)
  | some refusal => s.refuse refusal

/-- What a query writes. -/
def write (c : Call β) (now : TimeValue) : Site β :=
  match c with
  | .create data => { s with destinations := s.destinations.insert (data.row now) }
  | .patch id data => { s with destinations := s.destinations.modify id (data.apply now) }
  | .update id data => { s with destinations := s.destinations.modify id (data.apply now) }
  | .remove id => { s with destinations := s.destinations.delete id }
  | _ => s

def create (body : Body) (iv iv' : Iv) : Site β × Option (Call β) :=
  if !secrets.isStreamEncryptionConfigured then s.refuse notConfigured
  else match parseCreateStreamDestination isUrl body with
    | .threw => s.refuse ⟨500, "Failed to create destination."⟩
    | .issues messages => s.refuse ⟨400, String.intercalate "; " messages⟩
    | .ok d => match newDestination secrets d iv iv' with
      | .error refusal => s.refuse refusal
      | .ok data => (s, some (.create data))

/-- The row to change has been found. -/
def patch (id : ℕ) (body : Body) (iv iv' : Iv) : Site β × Option (Call β) :=
  match parsePatchStreamDestination isUrl body with
  | .threw => s.refuse ⟨500, "Failed to update destination."⟩
  | .issues messages => s.refuse ⟨400, String.intercalate "; " messages⟩
  | .ok d => match patchOf secrets d iv iv' with
    | .error refusal => s.refuse refusal
    | .ok data => (s, some (.patch id data))

/-- The row of an id, if there is one. -/
def withRow (c : Call β) (id : ℤ)
    (go : ℕ × StreamDestination β → Site β × Option (Call β)) : Site β × Option (Call β) :=
  match findUnique s id with
  | none => fail s c
  | some none => s.refuse notFound
  | some (some row) => go row

def pipelineInput (row : StreamDestination β) : Option PipelineInput :=
  (getDecryptedStreamCredentials secrets row).map fun credentials =>
    ⟨row.captureUrl, credentials, row.videoWidth, row.videoHeight, row.videoBitrateK,
      row.audioBitrateK⟩

/-- A row that is changed or removed has to be there. -/
def written (c : Call β) (a : Answer) (id : ℕ) (response : StreamDestination β → Response) :
    Site β × Option (Call β) :=
  match s.destinations.row id with
  | none => fail s c
  | some row => (write s c a.now).answer (response row)

/-- A query that is done, and what follows up to the next. -/
def query (c : Call β) (a : Answer) : Site β × Option (Call β) :=
  match c with
  | .reconcile => (s, some .list)
  | .list => s.answer (.destinations (s.destinations.rows.map fun row =>
      (destinationToAdminJson secrets row, a.isStreamActive row.1)))
  | .getFind id => withRow s c id fun _ => (s, some (.getFresh id))
  | .getFresh id => withRow s c id fun row => s.answer
      (.destination (destinationToAdminJson secrets row) (some (a.isStreamActive row.1)))
  | .create data => (write s c a.now).answer
      (.created (destinationToAdminJson secrets (s.destinations.nextId, data.row a.now)))
  | .patchFind id body => withRow s c id fun row => patch isUrl secrets s row.1 body a.iv a.iv'
  | .patch id data => written s c a id fun row =>
      .destination (destinationToAdminJson secrets (id, data.apply a.now row)) none
  | .removeFind id => withRow s c id fun row => (s, some (.remove row.1))
  | .remove id => written s c a id fun _ => .removed
  | .startFind id => match s.destinations.row id with
      | none => (s, none)
      | some row =>
          if row.enabled && row.desiredRunning then
            ({ s with log := s.log ++ [.launched id (pipelineInput secrets row)] }, none)
          else (s, none)
  | .update _ _ => (write s c a.now, none)

/-- `parseInt(id, 10)`, from 1 on. -/
def idOf (id : String) : Option ℤ := (parseInt id).filter (1 ≤ ·)

def withId (id : String) (go : ℤ → Call β) : Site β × Option (Call β) :=
  match idOf id with
  | none => s.refuse invalidId
  | some id => (s, some (go id))

def handle : Request → Site β × Option (Call β)
  | .list => (s, some .reconcile)
  | .get id => withId s id .getFind
  | .create body iv iv' => create isUrl secrets s body iv iv'
  | .patch id body => withId s id fun id => .patchFind id body
  | .remove id => withId s id .removeFind
  | .start id => (s, some (.startFind id))
  | .update id data => (s, some (.update id data))

def resume (c : Call β) (a : Answer) : Site β × Option (Call β) :=
  match a.outcome with
  | .done => query isUrl secrets s c a
  | .error => fail s c
  | .lost => fail (write s c a.now) c

end Handlers

def service {β : Type} (isUrl : String → Bool) (secrets : Secrets β) :
    Service (Site β) (Call β) Request Answer where
  start s r := some ((handle isUrl secrets s r).1, (handle isUrl secrets s r).2.toList)
  resume s c a := some (resume isUrl secrets s c a)

end BlockMiner.StreamDestinations
