import Mathlib.Data.List.Sort
import BlockMiner.AuditPages
import BlockMiner.Run

/-!
# Private messages

`controllers/chatController.js`: `sendPrivateMessage` and `getPrivateMessages`,
one request after the other. A request for a conversation finds its messages
and then marks as read what the user has received in it.

The query takes the first fifty messages in the order of their creation. So a
conversation that has grown longer never shows its latest messages, and marks
them as read (`shown_iff`).

Whom a message can be sent to is a parameter: another receiver violates the
foreign key. The notification and the events of the sockets are left out.
`returned` is no table. It records which messages a user has been given.
-/

namespace BlockMiner.PrivateMessages

open AuditPages (toInt isFalsy)

/-! ## Requests -/

structure PrivateMessage where
  id : ℕ
  senderId : ℤ
  receiverId : ℤ
  message : String
  isRead : Bool
  createdAt : ℤ
deriving DecidableEq

structure Chat where
  messages : List PrivateMessage
  nextId : ℕ
  returned : List (ℤ × ℕ)

/-- The sender or reader is the user of the session. -/
inductive Request where
  | sendPrivateMessage (senderId : ℤ) (body : Json JsNumber) (createdAt : ℤ)
  | getPrivateMessages (userId : ℤ) (targetUserId : String)

inductive Response where
  | sent (message : PrivateMessage)
  | messages (messages : List PrivateMessage)
  | failed (status : ℕ) (message : String)
deriving DecidableEq

def escapeChar (c : Char) : List Char :=
  if c = '&' then "&amp;".toList
  else if c = '<' then "&lt;".toList
  else if c = '>' then "&gt;".toList
  else if c = '"' then "&quot;".toList
  else if c.toNat = 39 then "&#039;".toList
  else [c]

def escapeHtml (text : String) : String := String.ofList (text.toList.flatMap escapeChar)

/-- The text of a message without blanks around it; `none` where there is no
text, and then whether there is a value. -/
def messageText (message : Option (Json JsNumber)) : Except Bool String :=
  if message.all isFalsy then .error false
  else match message.bind Json.string? with
    | none => .error true
    | some text => if trim text = "" then .error false else .ok (trim text)

/-- Exchanged by the two users. -/
def Between (u v : ℤ) (m : PrivateMessage) : Prop :=
  (m.senderId = u ∧ m.receiverId = v) ∨ (m.senderId = v ∧ m.receiverId = u)

instance decidableBetween (u v : ℤ) (m : PrivateMessage) : Decidable (Between u v m) :=
  inferInstanceAs (Decidable (_ ∨ _))

def conversation (messages : List PrivateMessage) (u v : ℤ) : List PrivateMessage :=
  messages.filter fun m => Between u v m

def findMessages (messages : List PrivateMessage) (u v : ℤ) : List PrivateMessage :=
  ((conversation messages u v).insertionSort fun m m' => m.createdAt ≤ m'.createdAt).take 50

def markRead (messages : List PrivateMessage) (senderId receiverId : ℤ) : List PrivateMessage :=
  messages.map fun m =>
    if m.senderId = senderId ∧ m.receiverId = receiverId ∧ m.isRead = false then
      { m with isRead := true }
    else m

def getPrivateMessages (s : Chat) (userId : ℤ) (targetUserId : String) : Chat × Response :=
  match toInt (stringToNumber targetUserId) with
  | none => (s, .failed 500 "Unable to load private messages.")
  | some target =>
      let messages := findMessages s.messages userId target
      ({ s with
          messages := markRead s.messages target userId
          returned := messages.map (fun m => (userId, m.id)) ++ s.returned },
        .messages messages)

section System

variable (isUser : ℤ → Bool)

def sendPrivateMessage (s : Chat) (senderId : ℤ) (body : Json JsNumber) (createdAt : ℤ) :
    Chat × Response :=
  match messageText (body.get "message") with
  | .error false => (s, .failed 400 "Message is empty.")
  | .error true => (s, .failed 500 "Unable to send private message.")
  | .ok text =>
      match (toInt (Number (body.get "receiverId"))).filter isUser with
      | none => (s, .failed 500 "Unable to send private message.")
      | some receiverId =>
          let pm : PrivateMessage :=
            { id := s.nextId
              senderId := senderId
              receiverId := receiverId
              message := escapeHtml text
              isRead := false
              createdAt := createdAt }
          ({ s with messages := s.messages ++ [pm], nextId := s.nextId + 1 }, .sent pm)

def handle (s : Chat) : Request → Chat × Response
  | .sendPrivateMessage senderId body createdAt =>
      sendPrivateMessage isUser s senderId body createdAt
  | .getPrivateMessages userId targetUserId => getPrivateMessages s userId targetUserId

def chat : System Chat Request := ⟨fun s r => some (handle isUser s r).1⟩

/-! ## What a request should show -/

/-- The latest messages of a conversation, at most fifty, the oldest first. -/
structure Latest (messages : List PrivateMessage) (u v : ℤ) (shown : List PrivateMessage) :
    Prop where
  chronological : shown.Pairwise fun m m' => m.createdAt < m'.createdAt
  exchanged : ∀ m ∈ shown, m ∈ messages ∧ Between u v m
  size : shown.length = min 50 (conversation messages u v).length
  latest : ∀ m ∈ conversation messages u v, m ∉ shown → ∀ m' ∈ shown, m.createdAt < m'.createdAt

/-- The response has the latest messages, and a message becomes read only if
its receiver has been given it. -/
def Shown (s : Chat) : Request → Prop
  | .sendPrivateMessage _ _ _ => True
  | .getPrivateMessages u targetUserId =>
      ∀ v ∈ toInt (stringToNumber targetUserId),
        (∃ shown, (getPrivateMessages s u targetUserId).2 = .messages shown
          ∧ Latest s.messages u v shown)
        ∧ ∀ m ∈ s.messages, m.isRead = false →
          { m with isRead := true } ∈ (getPrivateMessages s u targetUserId).1.messages →
            (m.receiverId, m.id) ∈ (getPrivateMessages s u targetUserId).1.returned

/-- The conversation that a request is for has at most fifty messages. -/
def Short (s : Chat) : Request → Prop
  | .sendPrivateMessage _ _ _ => True
  | .getPrivateMessages u targetUserId =>
      ∀ v ∈ toInt (stringToNumber targetUserId), (conversation s.messages u v).length ≤ 50

/-- A message is created after all others. -/
def Later (s : Chat) : Request → Prop
  | .sendPrivateMessage _ _ createdAt => ∀ m ∈ s.messages, m.createdAt < createdAt
  | .getPrivateMessages _ _ => True

instance decidableShort (s : Chat) : ∀ r, Decidable (Short s r)
  | .sendPrivateMessage _ _ _ => inferInstanceAs (Decidable True)
  | .getPrivateMessages u targetUserId =>
      inferInstanceAs (Decidable (∀ v ∈ toInt (stringToNumber targetUserId),
        (conversation s.messages u v).length ≤ 50))

instance decidableLater (s : Chat) : ∀ r, Decidable (Later s r)
  | .sendPrivateMessage _ _ createdAt =>
      inferInstanceAs (Decidable (∀ m ∈ s.messages, m.createdAt < createdAt))
  | .getPrivateMessages _ _ => inferInstanceAs (Decidable True)

/-- The messages in the order of their creation, with ids of their own. -/
structure InOrder (s : Chat) : Prop where
  created : s.messages.Pairwise fun m m' => m.createdAt < m'.createdAt
  ids : ∀ m ∈ s.messages, m.id < s.nextId
  distinct : (s.messages.map fun m => m.id).Nodup

/-! ## One request -/

variable {isUser} {s : Chat}

theorem markRead_ids (messages : List PrivateMessage) (senderId receiverId : ℤ) :
    (markRead messages senderId receiverId).map (fun m => m.id) = messages.map fun m => m.id := by
  rw [markRead, List.map_map]
  refine List.map_congr_left fun m _ => ?_
  dsimp only [Function.comp_apply]
  split_ifs <;> rfl

theorem inOrder_getPrivateMessages (hs : InOrder s) (userId : ℤ) (targetUserId : String) :
    InOrder (getPrivateMessages s userId targetUserId).1 := by
  unfold getPrivateMessages
  split
  · exact hs
  · refine ⟨List.pairwise_map.2 (hs.created.imp fun h => ?_), fun m hm => ?_, ?_⟩
    · split_ifs <;> exact h
    · obtain ⟨m, hmem, rfl⟩ := List.mem_map.1 hm
      split_ifs <;> exact hs.ids m hmem
    · dsimp only
      rw [markRead_ids]
      exact hs.distinct

theorem inOrder_step {r : Request} {s' : Chat} (hs : InOrder s) (hlater : Later s r)
    (h : (chat isUser).step s r = some s') : InOrder s' := by
  obtain rfl := Option.some.inj h
  cases r with
  | getPrivateMessages userId targetUserId =>
    exact inOrder_getPrivateMessages hs userId targetUserId
  | sendPrivateMessage senderId body createdAt =>
    show InOrder (sendPrivateMessage isUser s senderId body createdAt).1
    unfold sendPrivateMessage
    split
    · exact hs
    · exact hs
    · split
      · exact hs
      · refine ⟨List.pairwise_append.2 ⟨hs.created, List.pairwise_singleton .., ?_⟩, ?_, ?_⟩
        · intro m hm m' hm'
          obtain rfl := List.mem_singleton.1 hm'
          exact hlater m hm
        · intro m hm
          rcases List.mem_append.1 hm with hold | hnew
          · exact Nat.lt_succ_of_lt (hs.ids m hold)
          · obtain rfl := List.mem_singleton.1 hnew
            exact Nat.lt_succ_self _
        · dsimp only
          rw [List.map_append]
          refine List.nodup_append.2 ⟨hs.distinct, List.nodup_singleton _, fun i hi j hj => ?_⟩
          obtain ⟨m, hm, rfl⟩ := List.mem_map.1 hi
          obtain rfl := List.mem_singleton.1 hj
          exact (hs.ids m hm).ne

/-- The query answers the first fifty messages. -/
theorem findMessages_eq (hs : InOrder s) (u v : ℤ) :
    findMessages s.messages u v = (conversation s.messages u v).take 50 := by
  have hsorted : (conversation s.messages u v).Pairwise fun m m' => m.createdAt ≤ m'.createdAt :=
    (hs.created.filter _).imp le_of_lt
  rw [findMessages, hsorted.insertionSort_eq]

/-- Fifty messages that leave one out leave out a later one. -/
theorem latest_take_iff (hs : InOrder s) (u v : ℤ) :
    Latest s.messages u v ((conversation s.messages u v).take 50)
      ↔ (conversation s.messages u v).length ≤ 50 := by
  have hsorted : (conversation s.messages u v).Pairwise fun m m' => m.createdAt < m'.createdAt :=
    hs.created.filter _
  constructor
  · intro h
    by_contra hlong
    rw [← List.take_append_drop 50 (conversation s.messages u v), List.pairwise_append] at hsorted
    obtain ⟨-, -, hlate⟩ := hsorted
    obtain ⟨first, hfirst⟩ := List.exists_mem_of_ne_nil ((conversation s.messages u v).take 50)
      (List.ne_nil_of_length_pos (by rw [List.length_take]; omega))
    obtain ⟨last, hlast⟩ := List.exists_mem_of_ne_nil ((conversation s.messages u v).drop 50)
      (List.ne_nil_of_length_pos (by rw [List.length_drop]; omega))
    have hleft : last ∉ (conversation s.messages u v).take 50 := fun hmem =>
      lt_irrefl _ (hlate last hmem last hlast)
    exact lt_asymm (hlate first hfirst last hlast)
      (h.latest last (List.mem_of_mem_drop hlast) hleft first hfirst)
  · intro hshort
    rw [List.take_of_length_le hshort]
    refine ⟨hsorted, fun m hm => ?_, by omega, fun m hm hout => absurd hm hout⟩
    obtain ⟨hmem, hbetween⟩ := List.mem_filter.1 hm
    exact ⟨hmem, of_decide_eq_true hbetween⟩

/-- A message that becomes read is one from the other user. -/
theorem marked (hs : InOrder s) {u v : ℤ} {m : PrivateMessage} (hm : m ∈ s.messages)
    (hunread : m.isRead = false)
    (hread : { m with isRead := true } ∈ markRead s.messages v u) :
    m.senderId = v ∧ m.receiverId = u := by
  obtain ⟨m', hm', heq⟩ := List.mem_map.1 hread
  have hid : m'.id = m.id := by
    have hids := congrArg PrivateMessage.id heq
    split_ifs at hids <;> exact hids
  obtain rfl := List.inj_on_of_nodup_map hs.distinct hm' hm hid
  split_ifs at heq with hmark
  · exact ⟨hmark.1, hmark.2.1⟩
  · rw [heq] at hunread
    cases hunread

theorem shown_iff_short (hs : InOrder s) (r : Request) : Shown s r ↔ Short s r := by
  cases r with
  | sendPrivateMessage => exact Iff.rfl
  | getPrivateMessages u targetUserId =>
    refine forall₂_congr fun v hv => ?_
    have hget : getPrivateMessages s u targetUserId
        = ({ s with
            messages := markRead s.messages v u
            returned := (findMessages s.messages u v).map (fun m => (u, m.id)) ++ s.returned },
          .messages (findMessages s.messages u v)) := by
      rw [getPrivateMessages, Option.mem_def.1 hv]
    rw [hget, findMessages_eq hs]
    constructor
    · rintro ⟨⟨shown, heq, hlatest⟩, -⟩
      obtain rfl := Response.messages.inj heq
      exact (latest_take_iff hs u v).1 hlatest
    · intro hshort
      refine ⟨⟨_, rfl, (latest_take_iff hs u v).2 hshort⟩, fun m hm hunread hread => ?_⟩
      obtain ⟨hsender, hreceiver⟩ := marked hs hm hunread hread
      have hmem : m ∈ conversation s.messages u v :=
        List.mem_filter.2 ⟨hm, decide_eq_true (.inr ⟨hsender, hreceiver⟩)⟩
      rw [List.take_of_length_le hshort, hreceiver]
      exact List.mem_append_left _ (List.mem_map_of_mem hmem)

/-! ## Any requests -/

/-- **Private messages.** The requests of a sequence all show the latest
messages, and mark no other as read, if and only if each of them is for a
conversation of at most fifty messages. -/
theorem shown_iff (hs : InOrder s) {rs : List Request}
    (hlater : (chat isUser).Meets Later s rs) :
    (chat isUser).Meets Shown s rs ↔ (chat isUser).Meets Short s rs :=
  (chat isUser).meets_iff (fun _ _ _ hs hC h => inOrder_step hs hC h)
    (fun _ r hs _ => shown_iff_short hs r) hs hlater

end System

def noMessages : Chat := ⟨[], 1, []⟩

theorem inOrder_noMessages : InOrder noMessages :=
  ⟨.nil, fun _ hm => (nomatch hm), List.nodup_nil⟩

/-- A message from user 2 to user 1. -/
def toOne (createdAt : ℤ) : Request :=
  .sendPrivateMessage 2
    (.object [("receiverId", .number (.finite 1)), ("message", .string "Hi")]) createdAt

theorem shown_iff_two :
    (chat fun _ => true).Meets Shown noMessages [toOne 1, toOne 2, .getPrivateMessages 1 "2"] :=
  (shown_iff inOrder_noMessages (by decide +kernel)).2 (by decide +kernel)

def fiftyOne : List Request := (List.range 51).map fun i => toOne i

/-- After fifty-one messages the last one is not shown. -/
theorem shown_not_always :
    (chat fun _ => true).Meets Later noMessages (fiftyOne ++ [.getPrivateMessages 1 "2"])
      ∧ ¬(chat fun _ => true).Meets Shown noMessages
        (fiftyOne ++ [.getPrivateMessages 1 "2"]) := by
  refine ⟨by decide +kernel, fun hshown => ?_⟩
  have hlater : (chat fun _ => true).Meets Later noMessages fiftyOne := by
    decide +kernel
  have hrun : ∃ t ∈ (chat fun _ => true).run noMessages fiftyOne,
      ¬Short t (.getPrivateMessages 1 "2") := by
    decide +kernel
  obtain ⟨t, hrun, hlong⟩ := hrun
  have ht : InOrder t := (chat fun _ => true).run_invariant
    (fun _ _ _ hs hC h => inOrder_step hs hC h) inOrder_noMessages hlater hrun
  exact hlong ((shown_iff_short ht _).1 ((chat fun _ => true).meets_at hshown hrun))

end BlockMiner.PrivateMessages
