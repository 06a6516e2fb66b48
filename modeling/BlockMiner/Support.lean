import BlockMiner.AuditPages
import BlockMiner.Service
import BlockMiner.SlidingWindow
import BlockMiner.SupportPayload
import Mathlib.Data.List.Sort

/-!
# Support tickets

`supportController.js`, `adminSupportController.js` and `supportTicketService.js`
with the sockets of `registerSupportSocketHandlers.js`. A request runs up to a
query, which is done, fails, or is done with its result lost. A reply is sent
to the sockets in the room of its ticket (`emitSupportReply`) after the query
that creates it, so others come in between.

The sessions of the HTTP requests are checked before. What verifies tokens and
addresses is a parameter; a token that is valid is of a user. The lists of
tickets are left out. Clocks do not run backwards.

`log` and `joined` are no data of the program. They record what has happened,
and which subscriptions were not refused by `allowJoin`.
-/

namespace BlockMiner.Support

open AuditPages (toInt)
open SupportPayload (Attachment string? serializeSupportPayload parseSupportPayload)
open Utf16Json (Utf16 Value)

/-! ## Rows -/

structure SupportMessage where
  userId : Option ℕ
  name : Utf16
  email : Utf16
  subject : Utf16
  message : Utf16
  isRead : Bool
  isReplied : Bool
  repliedAt : Option ℤ
  createdAt : ℤ

structure SupportReply where
  supportMessageId : ℕ
  senderId : Option ℕ
  message : Utf16
  isAdmin : Bool
  createdAt : ℤ

/-- A socket, with the address and the tokens of its handshake. -/
structure Socket where
  remote : String
  token : Option String
  adminToken : Option String

inductive Viewer where
  | user (userId : ℕ)
  | admin

/-! ## Requests -/

structure PublicReply where
  id : ℕ
  supportMessageId : ℕ
  senderId : Option ℕ
  isAdmin : Bool
  createdAt : ℤ
  body : Utf16
  attachments : List Attachment
  message : Utf16

def toPublicSupportReply (row : ℕ × SupportReply) : PublicReply :=
  let payload := parseSupportPayload row.2.message
  { id := row.1
    supportMessageId := row.2.supportMessageId
    senderId := row.2.senderId
    isAdmin := row.2.isAdmin
    createdAt := row.2.createdAt
    body := payload.body
    attachments := payload.attachments
    message := payload.body }

/-- The columns but for `message`, and what is made of that. -/
structure Ticket where
  id : ℕ
  row : SupportMessage
  body : Utf16
  attachments : List Attachment
  message : Utf16
  replies : List PublicReply

def enrichTicket (id : ℕ) (row : SupportMessage) (replies : List (ℕ × SupportReply)) : Ticket :=
  let root := parseSupportPayload row.message
  { id := id
    row := row
    body := root.body
    attachments := root.attachments
    message := root.body
    replies := replies.map toPublicSupportReply }

inductive Request where
  | connect (socket : Socket)
  | disconnect (socket : ℕ)
  | subscribe (socket : ℕ) (token supportMessageId : Option (Json JsNumber))
  | subscribeAdmin (socket : ℕ) (token supportMessageId : Option (Json JsNumber))
  | createMessage (userId : Option ℕ) (body : Value)
  | getMessage (viewer : Viewer) (id : String)
  | replyToMessage (viewer : Viewer) (id : String) (body : Value)

inductive Response where
  | callback (socket : ℕ) (error : Option String)
  | failed (status : ℕ) (message : String)
  | created (id : ℕ)
  | message (viewer : Viewer) (ticket : Ticket)
  | replied (reply : PublicReply)

inductive Happening where
  | connected (socket : ℕ)
  | closed (socket : ℕ)
  | opened (id : ℕ) (row : SupportMessage)
  | granted (socket : ℕ) (viewer : Viewer) (id : ℕ)
  | read (viewer : Viewer) (id : ℕ) (replies : List (ℕ × SupportReply))
  | posted (row : ℕ × SupportReply)
  | emitted (row : ℕ × SupportReply) (receivers : List ℕ)
  | answered (response : Response)

structure Site where
  supportMessages : Table SupportMessage
  supportReplies : Table SupportReply
  joinBuckets : OrdMap String (List ℤ)
  sockets : Table Socket
  rooms : List (ℕ × ℕ)
  clock : ℤ
  log : List Happening
  joined : List (String × ℤ)

def Site.start : Site := ⟨.empty, .empty, .empty, .empty, [], 0, [], []⟩

def Site.answer (s : Site) (response : Response) : Site :=
  { s with log := .answered response :: s.log }

/-! ## Bodies -/

/-- `z.string().trim().min(1).max(max)` -/
def textSchema (max : ℕ) (value : Option Value) : Option Utf16 :=
  ((value.bind string?).map SupportPayload.trim).filter fun text =>
    1 ≤ text.length ∧ text.length ≤ max

def attachmentSchema (value : Value) : Bool :=
  ((value.get "url").bind string?).any (fun url => 1 ≤ url.length ∧ url.length ≤ 512)
    && (value.get "mimeType").all fun mimeType => (string? mimeType).any fun t => t.length ≤ 120

/-- `z.array(attachmentSchema).max(5).optional()`, where nothing is no attachments. -/
def attachmentsSchema : Option Value → Option (List Value)
  | none => some []
  | some (.array items) =>
      if items.length ≤ 5 ∧ items.all attachmentSchema then some items else none
  | some _ => none

structure NewMessage where
  name : Utf16
  email : Utf16
  subject : Utf16
  message : Utf16
  attachments : List Value

def createMessageSchema (isEmail : Utf16 → Bool) (body : Value) : Option NewMessage := do
  let name ← textSchema 120 (body.get "name")
  let email ← (((body.get "email").bind string?).map SupportPayload.trim).filter fun text =>
    isEmail text ∧ text.length ≤ 255
  let subject ← textSchema 200 (body.get "subject")
  let message ← textSchema 12000 (body.get "message")
  let attachments ← attachmentsSchema (body.get "attachments")
  return ⟨name, email, subject, message, attachments⟩

def replySchema (body : Value) : Option (Utf16 × List Value) := do
  let message ← textSchema 12000 (body.get "message")
  let attachments ← attachmentsSchema (body.get "attachments")
  return (message, attachments)

/-- A text that need not be there. -/
def optionalSchema (max : ℕ) : Option Value → Option (Option Utf16)
  | none => some none
  | some value => (textSchema max (some value)).map some

def adminReplySchema (body : Value) : Option (Option Utf16 × List Value) := do
  let reply ← optionalSchema 12000 (body.get "reply")
  let message ← optionalSchema 12000 (body.get "message")
  let attachments ← attachmentsSchema (body.get "attachments")
  return (reply <|> message, attachments)

/-- The text and the attachments of a reply, or why there is none. -/
def replyOf (viewer : Viewer) (body : Value) : Except String (Utf16 × List Value) :=
  match viewer with
  | .user _ => match replySchema body with
    | none => .error "Invalid request body"
    | some reply => .ok reply
  | .admin => match adminReplySchema body with
    | none => .error "Invalid request body"
    | some (none, _) => .error "Reply content is required"
    | some (some text, attachments) => .ok (text, attachments)

/-! ## Sockets -/

def allowJoin (s : Site) (key : String) (now : ℤ) : Site × Bool :=
  let (joinBuckets, allowed) := SlidingWindow.allow 60 60000 s.joinBuckets key now
  ({ s with
      joinBuckets
      joined := if allowed then s.joined ++ [(key, now)] else s.joined }, allowed)

/-- A text with the three parts of a token. -/
def explicitToken (token : Option (Json JsNumber)) : Option String :=
  (token.bind Json.string?).filter fun token => token.toList.count '.' = 2

/-- `!sid || Number.isNaN(sid)` -/
def isNoTicket (sid : JsNumber) : Bool :=
  match sid with
  | .nan => true
  | .finite q => q = 0
  | .infinite _ => false

structure Env where
  /-- The user of a token, if it is valid at the time. -/
  verifyAccessToken : String → ℤ → Option ℕ
  verifyAdminJwtToken : String → ℤ → Bool
  isEmail : Utf16 → Bool

/-! ## Queries -/

inductive Call where
  | findSubscribed (socket : ℕ) (viewer : Viewer) (sid : JsNumber)
  | createMessage (userId : Option ℕ) (data : NewMessage)
  | findMessage (viewer : Viewer) (id : ℤ)
  | markRead (id : ℕ) (ticket : Ticket)
  | findReplied (viewer : Viewer) (id : ℤ) (body : Utf16) (attachments : List Value)
  | createReply (viewer : Viewer) (id : ℕ) (stored : Utf16)
  | emit (row : ℕ × SupportReply)

/-- The ticket of an id; an id that is no `Int` is an error. -/
def findUnique (s : Site) (id : JsNumber) : Option (Option (ℕ × SupportMessage)) :=
  (toInt id).map fun id =>
    if 0 ≤ id then (s.supportMessages.row id.toNat).map fun row => (id.toNat, row) else none

def Viewer.sees (viewer : Viewer) (row : SupportMessage) : Bool :=
  match viewer with
  | .user userId => row.userId = some userId
  | .admin => true

/-- The ticket, where the viewer sees it. -/
def findSeen (s : Site) (viewer : Viewer) (id : JsNumber) :
    Option (Option (ℕ × SupportMessage)) :=
  (findUnique s id).map fun ticket => ticket.filter fun ticket => viewer.sees ticket.2

def repliesOf (s : Site) (id : ℕ) : List (ℕ × SupportReply) :=
  (s.supportReplies.findMany fun _ r => r.supportMessageId = id).insertionSort fun r r' =>
    r.2.createdAt ≤ r'.2.createdAt

/-- The sockets in the room of a ticket. -/
def receivers (s : Site) (id : ℕ) : List ℕ :=
  (s.sockets.rows.map Prod.fst).filter fun socket => s.rooms.contains (socket, id)

def emitSupportReply (s : Site) (row : ℕ × SupportReply) : Site :=
  { s with log := .emitted row (receivers s row.2.supportMessageId) :: s.log }

/-- The answer to a request whose query fails. What has been created is answered for. -/
def Call.failure : Call → Option Response
  | .findSubscribed socket _ _ => some (.callback socket (some "Unable to subscribe."))
  | .createMessage _ _ => some (.failed 500 "Error sending support message")
  | .findMessage _ _ => some (.failed 500 "Error getting message")
  | .markRead _ _ => some (.failed 500 "Error getting message")
  | .findReplied _ _ _ _ => some (.failed 500 "Error sending reply")
  | .createReply _ _ _ => some (.failed 500 "Error sending reply")
  | .emit _ => none

def messageRow (userId : Option ℕ) (data : NewMessage) (now : ℤ) : SupportMessage where
  userId := userId
  name := data.name
  email := data.email
  subject := data.subject
  message := serializeSupportPayload data.message data.attachments
  isRead := false
  isReplied := false
  repliedAt := none
  createdAt := now

def replyRow (viewer : Viewer) (id : ℕ) (stored : Utf16) (now : ℤ) : SupportReply where
  supportMessageId := id
  senderId := match viewer with
    | .user userId => some userId
    | .admin => none
  message := stored
  isAdmin := match viewer with
    | .user _ => false
    | .admin => true
  createdAt := now

def createMessage (s : Site) (userId : Option ℕ) (data : NewMessage) (now : ℤ) : Site :=
  { s with
    supportMessages := s.supportMessages.insert (messageRow userId data now)
    log := .opened s.supportMessages.nextId (messageRow userId data now) :: s.log }

def markRead (s : Site) (id : ℕ) : Site :=
  { s with supportMessages := s.supportMessages.modify id fun m => { m with isRead := true } }

/-- The reply of an admin marks the ticket in the same transaction. -/
def createReply (s : Site) (viewer : Viewer) (id : ℕ) (stored : Utf16) (now : ℤ) : Site :=
  { s with
    supportReplies := s.supportReplies.insert (replyRow viewer id stored now)
    supportMessages := match viewer with
      | .user _ => s.supportMessages
      | .admin => s.supportMessages.modify id fun m =>
          { m with isReplied := true, repliedAt := some now }
    log := .posted (s.supportReplies.nextId, replyRow viewer id stored now) :: s.log }

/-- What a query writes. -/
def write (s : Site) (c : Call) (now : ℤ) : Site :=
  match c with
  | .createMessage userId data => createMessage s userId data now
  | .markRead id _ => markRead s id
  | .createReply viewer id stored => createReply s viewer id stored now
  | _ => s

def subscribed (s : Site) (socket : ℕ) (viewer : Viewer) (id : ℕ) : Site :=
  Site.answer { s with
    rooms := s.rooms.insert (socket, id)
    log := .granted socket viewer id :: s.log } (.callback socket none)

/-- What follows the query that finds a ticket to be read. -/
def found (s : Site) (viewer : Viewer) (id : ℕ) (row : SupportMessage) : Site × Option Call :=
  let replies := repliesOf s id
  let s := { s with log := .read viewer id replies :: s.log }
  let ticket := enrichTicket id row replies
  match viewer with
  | .user _ => (s.answer (.message viewer ticket), none)
  | .admin =>
      if row.isRead then (s.answer (.message viewer ticket), none)
      else (s, some (.markRead id ticket))

def notFound (viewer : Viewer) : Response :=
  match viewer with
  | .user _ => .failed 404 "Support ticket not found"
  | .admin => .failed 404 "Message not found"

/-- A query that is done, and what follows up to the next. -/
def query (s : Site) (c : Call) (now : ℤ) : Site × Option Call :=
  match c with
  | .findSubscribed socket viewer sid =>
      match findSeen s viewer sid with
      | none => (s.answer (.callback socket (some "Unable to subscribe.")), none)
      | some none => (s.answer (.callback socket (some "Not found.")), none)
      | some (some (id, _)) => (subscribed s socket viewer id, none)
  | .createMessage _ _ => ((write s c now).answer (.created s.supportMessages.nextId), none)
  | .findMessage viewer id =>
      match findSeen s viewer (.finite id) with
      | none => (s.answer (.failed 500 "Error getting message"), none)
      | some none => (s.answer (.failed 404 "Message not found"), none)
      | some (some (id, row)) => found s viewer id row
  | .markRead _ ticket => ((write s c now).answer (.message .admin ticket), none)
  | .findReplied viewer id body attachments =>
      match findSeen s viewer (.finite id) with
      | none => (s.answer (.failed 500 "Error sending reply"), none)
      | some none => (s.answer (notFound viewer), none)
      | some (some (id, _)) =>
          (s, some (.createReply viewer id (serializeSupportPayload body attachments)))
  | .createReply viewer id stored =>
      (write s c now, some (.emit (s.supportReplies.nextId, replyRow viewer id stored now)))
  | .emit row =>
      ((emitSupportReply s row).answer (.replied (toPublicSupportReply row)), none)

/-! ## The service -/

section Handlers

variable (env : Env)

/-- The handlers of both subscriptions, which differ in the key and in who is proven. -/
def subscribeAs (s : Site) (socket : ℕ) (key : String) (viewer : Option Viewer) (refusal : String)
    (supportMessageId : Option (Json JsNumber)) (now : ℤ) : Site × Option Call :=
  let (s, allowed) := allowJoin s key now
  if !allowed then (s.answer (.callback socket (some "Rate limited.")), none)
  else if isNoTicket (Number supportMessageId) then
    (s.answer (.callback socket (some "Invalid ticket.")), none)
  else match viewer with
    | none => (s.answer (.callback socket (some refusal)), none)
    | some viewer => (s, some (.findSubscribed socket viewer (Number supportMessageId)))

/-- The user of the token that is sent, or of the one of the handshake. -/
def userViewer (client : Socket) (token : Option (Json JsNumber)) (now : ℤ) : Option Viewer :=
  (((explicitToken token <|> client.token).bind fun token => env.verifyAccessToken token now).filter
    (· ≠ 0)).map .user

def adminViewer (client : Socket) (token : Option (Json JsNumber)) (now : ℤ) : Option Viewer :=
  ((explicitToken token <|> client.adminToken).filter fun token =>
    env.verifyAdminJwtToken token now).map fun _ => .admin

def handle (s : Site) (now : ℤ) : Request → Option (Site × Option Call)
  | .connect socket =>
      some ({ s with
        sockets := s.sockets.insert socket
        log := .connected s.sockets.nextId :: s.log }, none)
  | .disconnect socket =>
      (s.sockets.row socket).map fun _ =>
        ({ s with
            sockets := s.sockets.delete socket
            rooms := s.rooms.filter fun member => member.1 ≠ socket
            log := .closed socket :: s.log }, none)
  | .subscribe socket token supportMessageId =>
      (s.sockets.row socket).map fun client =>
        subscribeAs s socket ("support:u:" ++ client.remote) (userViewer env client token now)
          "Session invalid." supportMessageId now
  | .subscribeAdmin socket token supportMessageId =>
      (s.sockets.row socket).map fun client =>
        subscribeAs s socket ("support:a:" ++ client.remote) (adminViewer env client token now)
          "Admin session invalid." supportMessageId now
  | .createMessage userId body =>
      some (match createMessageSchema env.isEmail body with
        | none => (s.answer (.failed 400 "Invalid request body"), none)
        | some data => (s, some (.createMessage userId data)))
  | .getMessage viewer id =>
      some (match (parseInt id).filter (· ≠ 0) with
        | none => (s.answer (.failed 400 "Invalid id"), none)
        | some id => (s, some (.findMessage viewer id)))
  | .replyToMessage viewer id body =>
      some (match (parseInt id).filter (· ≠ 0) with
        | none => (s.answer (.failed 400 "Invalid id"), none)
        | some id => match replyOf viewer body with
          | .error message => (s.answer (.failed 400 message), none)
          | .ok (body, attachments) => (s, some (.findReplied viewer id body attachments)))

/-- How a query ends. -/
inductive Outcome where
  | done
  | error
  | lost

def resume (s : Site) (c : Call) (now : ℤ) : Outcome → Option (Site × Option Call)
  | .done => some (query s c now)
  | .error => c.failure.map fun response => (s.answer response, none)
  | .lost => c.failure.map fun response => ((write s c now).answer response, none)

def tick (s : Site) (now : ℤ) : Option Site :=
  if now < s.clock then none else some { s with clock := now }

def service : Service Site Call (Request × ℤ) (Outcome × ℤ) where
  start s r := (tick s r.2).bind fun s =>
    (handle env s r.2 r.1).map fun out => (out.1, out.2.toList)
  resume s c a := (tick s a.2).bind fun s => resume s c a.2 a.1

end Handlers

end BlockMiner.Support
