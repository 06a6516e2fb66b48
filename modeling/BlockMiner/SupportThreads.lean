import BlockMiner.Support

/-!
# Who sees a support ticket, and when

However requests, queries, replies and sockets interleave: a socket joins the
room of a ticket only with a token of its owner or of an admin, a thread that
is shown has exactly the replies to the ticket so far, and a reply is sent once
and to exactly the sockets that are connected and have joined
(`support_lawful`). So a socket that has joined before it is shown the thread
gets every reply, in the thread or sent to it (`nothing_missed`). `allowJoin`
lets at most 60 subscriptions a minute through, from one address and of one
kind.
-/

namespace BlockMiner.Support

open SlidingWindow (Tracks Bounded timesOf recent)

/-! ## What is lawful -/

/-- The columns that no query changes. -/
def SupportMessage.unflagged (row : SupportMessage) : SupportMessage :=
  { row with isRead := false, isReplied := false, repliedAt := none }

def Env.Proven (env : Env) : Viewer → Prop
  | .user userId => ∃ token now, env.verifyAccessToken token now = some userId
  | .admin => ∃ token now, env.verifyAdminJwtToken token now = true

/-- The ticket is there, and the viewer may see it. -/
def Entitled (past : List Happening) (viewer : Viewer) (id : ℕ) : Prop :=
  ∃ row, .opened id row ∈ past ∧ viewer.sees row = true

def Live (past : List Happening) (socket : ℕ) : Prop :=
  .connected socket ∈ past ∧ .closed socket ∉ past

def Granted (past : List Happening) (socket id : ℕ) : Prop :=
  ∃ viewer, .granted socket viewer id ∈ past

/-- The replies to a ticket so far, each once, in the order of their creation. -/
structure Thread (past : List Happening) (id : ℕ) (replies : List (ℕ × SupportReply)) : Prop where
  mem : ∀ row, row ∈ replies ↔ .posted row ∈ past ∧ row.2.supportMessageId = id
  nodup : replies.Nodup
  sorted : replies.Pairwise fun r r' => r.2.createdAt ≤ r'.2.createdAt

/-- A ticket is shown as it was opened, with a thread that was read. -/
def Right (past : List Happening) : Response → Prop
  | .message viewer ticket => ∃ row replies, .opened ticket.id row.unflagged ∈ past
      ∧ .read viewer ticket.id replies ∈ past ∧ ticket = enrichTicket ticket.id row replies
  | .replied reply => ∃ row receivers, .emitted row receivers ∈ past
      ∧ reply = toPublicSupportReply row
  | .created id => ∃ row, .opened id row ∈ past
  | .callback socket none => ∃ id, Granted past socket id
  | .callback _ (some _) => True
  | .failed _ _ => True

def Fits (env : Env) (past : List Happening) : Happening → Prop
  | .connected socket => .connected socket ∉ past
  | .closed socket => Live past socket
  | .opened id _ => ∀ row, .opened id row ∉ past
  | .granted socket viewer id =>
      .connected socket ∈ past ∧ env.Proven viewer ∧ Entitled past viewer id
  | .read viewer id replies => Entitled past viewer id ∧ Thread past id replies
  | .posted row => (∀ r, .posted (row.1, r) ∉ past) ∧ ∃ viewer stored now,
      row.2 = replyRow viewer row.2.supportMessageId stored now
        ∧ Entitled past viewer row.2.supportMessageId
  | .emitted row receivers => .posted row ∈ past ∧ receivers.Nodup ∧ ∀ socket,
      socket ∈ receivers ↔ Live past socket ∧ Granted past socket row.2.supportMessageId
  | .answered response => Right past response

/-- Everything that has happened fits what had happened before. -/
def Lawful (env : Env) : List Happening → Prop
  | [] => True
  | h :: past => Fits env past h ∧ Lawful env past

/-! ## The invariant -/

/-- The tables have what the log says. -/
structure Tables (s : Site) : Prop where
  opened : ∀ id row, .opened id row ∈ s.log
    ↔ ∃ m, s.supportMessages.row id = some m ∧ m.unflagged = row
  posted : ∀ row, .posted row ∈ s.log ↔ s.supportReplies.row row.1 = some row.2

/-- So have the sockets and their rooms. -/
structure Rooms (s : Site) : Prop where
  sockets : ∀ socket, (s.sockets.row socket).isSome = true ↔ Live s.log socket
  fresh : ∀ socket, .connected socket ∈ s.log → socket < s.sockets.nextId
  closed : ∀ socket, .closed socket ∈ s.log → .connected socket ∈ s.log
  granted : ∀ socket id, Granted s.log socket id → .connected socket ∈ s.log
  members : ∀ socket id, (socket, id) ∈ s.rooms → .connected socket ∈ s.log
  joined : ∀ socket id, Live s.log socket → ((socket, id) ∈ s.rooms ↔ Granted s.log socket id)

structure Sound (env : Env) (s : Site) : Prop where
  lawful : Lawful env s.log
  tables : Tables s
  rooms : Rooms s
  tracks : Tracks 60000 s.clock s.joinBuckets s.joined
  bounded : ∀ key, Bounded 60 60000 (timesOf key s.joined)

/-- What a call in flight remembers. -/
def Waits (env : Env) (past : List Happening) : Call → Prop
  | .findSubscribed socket viewer _ => .connected socket ∈ past ∧ env.Proven viewer
  | .markRead _ ticket => Right past (.message .admin ticket)
  | .createReply viewer id _ => Entitled past viewer id
  | .emit row => .posted row ∈ past
  | _ => True

section Facts

variable {env : Env} {s : Site} {past past' : List Happening} {viewer : Viewer} {id socket : ℕ}
  {now : ℤ}

theorem Entitled.mono (h : Entitled past viewer id) (hsub : past ⊆ past') :
    Entitled past' viewer id := by
  obtain ⟨row, hrow, hsees⟩ := h
  exact ⟨row, hsub hrow, hsees⟩

theorem Right.mono {response : Response} (h : Right past response) (hsub : past ⊆ past') :
    Right past' response := by
  cases response with
  | message viewer ticket =>
    obtain ⟨row, replies, hopened, hread, hticket⟩ := h
    exact ⟨row, replies, hsub hopened, hsub hread, hticket⟩
  | replied reply =>
    obtain ⟨row, receivers, hemitted, hreply⟩ := h
    exact ⟨row, receivers, hsub hemitted, hreply⟩
  | created id =>
    obtain ⟨row, hopened⟩ := h
    exact ⟨row, hsub hopened⟩
  | callback socket error =>
    cases error with
    | none =>
      obtain ⟨id, viewer, hgranted⟩ := h
      exact ⟨id, viewer, hsub hgranted⟩
    | some message => exact trivial
  | failed status message => exact trivial

theorem Waits.mono {c : Call} (h : Waits env past c) (hsub : past ⊆ past') :
    Waits env past' c := by
  cases c with
  | findSubscribed socket viewer sid => exact ⟨hsub h.1, h.2⟩
  | markRead id ticket =>
    obtain ⟨row, replies, hopened, hread, hticket⟩ := h
    exact ⟨row, replies, hsub hopened, hsub hread, hticket⟩
  | createReply viewer id stored => exact Entitled.mono h hsub
  | emit row => exact hsub h
  | createMessage _ _ => exact trivial
  | findMessage _ _ => exact trivial
  | findReplied _ _ _ _ => exact trivial

theorem sees_unflagged (viewer : Viewer) (row : SupportMessage) :
    viewer.sees row.unflagged = viewer.sees row := by
  cases viewer <;> rfl

theorem findSeen_eq_some {n : JsNumber} {ticket : ℕ × SupportMessage}
    (h : findSeen s viewer n = some (some ticket)) :
    s.supportMessages.row ticket.1 = some ticket.2 ∧ viewer.sees ticket.2 = true := by
  obtain ⟨found, hfound, hseen⟩ := Option.map_eq_some_iff.mp h
  obtain ⟨rfl, hsees⟩ := Option.filter_eq_some_iff.mp hseen
  obtain ⟨i, -, hrow⟩ := Option.map_eq_some_iff.mp hfound
  split_ifs at hrow
  obtain ⟨row, hticket, rfl⟩ := Option.map_eq_some_iff.mp hrow
  exact ⟨hticket, hsees⟩

theorem Sound.entitled (hs : Sound env s) {n : JsNumber} {row : SupportMessage}
    (h : findSeen s viewer n = some (some (id, row))) :
    .opened id row.unflagged ∈ s.log ∧ Entitled s.log viewer id := by
  obtain ⟨hrow, hsees⟩ := findSeen_eq_some h
  have hopened := (hs.tables.opened id row.unflagged).mpr ⟨row, hrow, rfl⟩
  exact ⟨hopened, _, hopened, (sees_unflagged viewer row).trans hsees⟩

theorem thread_repliesOf (hs : Sound env s) (id : ℕ) : Thread s.log id (repliesOf s id) where
  mem row := by
    unfold repliesOf
    rw [List.mem_insertionSort, Table.mem_findMany, hs.tables.posted, decide_eq_true_eq]
  nodup := (List.perm_insertionSort _ _).nodup_iff.mpr (Table.nodup_findMany _ _).of_map
  sorted := List.pairwise_insertionSort _ _

theorem mem_receivers (hs : Sound env s) :
    socket ∈ receivers s id ↔ Live s.log socket ∧ Granted s.log socket id := by
  unfold receivers
  rw [List.mem_filter, List.contains_iff_mem, ← hs.rooms.sockets]
  have hmem : socket ∈ s.sockets.rows.map Prod.fst ↔ (s.sockets.row socket).isSome = true := by
    rw [List.mem_map, Option.isSome_iff_exists]
    constructor
    · rintro ⟨⟨i, client⟩, hrow, rfl⟩
      exact ⟨client, Table.mem_rows.mp hrow⟩
    · rintro ⟨client, hrow⟩
      exact ⟨(socket, client), Table.mem_rows.mpr hrow, rfl⟩
  rw [hmem]
  exact and_congr_right fun hlive => hs.rooms.joined socket id ((hs.rooms.sockets socket).mp hlive)

theorem nodup_receivers (s : Site) (id : ℕ) : (receivers s id).Nodup :=
  (Table.nodup_rows _).filter _

end Facts

/-! ## The steps -/

section Steps

variable {env : Env} {s : Site} {viewer : Viewer} {id socket : ℕ} {now : ℤ}

/-- A happening that changes a table. -/
def Happening.ofTables : Happening → Bool
  | .opened _ _ => true
  | .posted _ => true
  | _ => false

/-- A happening that changes the sockets or their rooms. -/
def Happening.ofSockets : Happening → Bool
  | .connected _ => true
  | .closed _ => true
  | .granted _ _ _ => true
  | _ => false

theorem Tables.cons {s' : Site} {h : Happening} (hs : Tables s) (hh : h.ofTables = false)
    (hmessages : s'.supportMessages = s.supportMessages)
    (hreplies : s'.supportReplies = s.supportReplies) (hlog : s'.log = h :: s.log) :
    Tables s' := by
  constructor
  · intro id row
    rw [hmessages, hlog, ← hs.opened]
    cases h <;> first | cases hh; done | simp only [List.mem_cons, reduceCtorEq, false_or]
  · intro row
    rw [hreplies, hlog, ← hs.posted]
    cases h <;> first | cases hh; done | simp only [List.mem_cons, reduceCtorEq, false_or]

theorem live_cons {past : List Happening} {h : Happening} (hh : h.ofSockets = false) :
    Live (h :: past) socket ↔ Live past socket := by
  unfold Live
  cases h <;> first | cases hh; done | simp only [List.mem_cons, reduceCtorEq, false_or]

theorem granted_cons {past : List Happening} {h : Happening} (hh : h.ofSockets = false) :
    Granted (h :: past) socket id ↔ Granted past socket id := by
  unfold Granted
  cases h <;> first | cases hh; done | simp only [List.mem_cons, reduceCtorEq, false_or]

theorem Rooms.cons {s' : Site} {h : Happening} (hs : Rooms s) (hh : h.ofSockets = false)
    (hsockets : s'.sockets = s.sockets) (hrooms : s'.rooms = s.rooms)
    (hlog : s'.log = h :: s.log) : Rooms s' := by
  have hconnected : ∀ socket, .connected socket ∈ s'.log ↔ .connected socket ∈ s.log := by
    intro socket
    rw [hlog]
    cases h <;> first | cases hh; done | simp only [List.mem_cons, reduceCtorEq, false_or]
  have hclosed : ∀ socket, .closed socket ∈ s'.log ↔ .closed socket ∈ s.log := by
    intro socket
    rw [hlog]
    cases h <;> first | cases hh; done | simp only [List.mem_cons, reduceCtorEq, false_or]
  constructor
  · intro socket
    rw [hsockets, hlog, live_cons hh]
    exact hs.sockets socket
  · intro socket
    rw [hsockets, hconnected]
    exact hs.fresh socket
  · intro socket
    rw [hconnected, hclosed]
    exact hs.closed socket
  · intro socket id
    rw [hconnected, hlog, granted_cons hh]
    exact hs.granted socket id
  · intro socket id
    rw [hconnected, hrooms]
    exact hs.members socket id
  · intro socket id
    rw [hrooms, hlog, live_cons hh, granted_cons hh]
    exact hs.joined socket id

/-- What changes neither a table nor a room only has to fit. -/
theorem Sound.cons (hs : Sound env s) {h : Happening} (htables : h.ofTables = false)
    (hsockets : h.ofSockets = false) (hfits : Fits env s.log h) :
    Sound env { s with log := h :: s.log } where
  lawful := ⟨hfits, hs.lawful⟩
  tables := hs.tables.cons htables rfl rfl rfl
  rooms := hs.rooms.cons hsockets rfl rfl rfl
  tracks := hs.tracks
  bounded := hs.bounded

theorem Sound.answer (hs : Sound env s) {response : Response} (h : Right s.log response) :
    Sound env (s.answer response) :=
  hs.cons (h := .answered response) rfl rfl h

theorem Sound.emit (hs : Sound env s) {row : ℕ × SupportReply} (h : .posted row ∈ s.log) :
    Sound env (emitSupportReply s row) :=
  hs.cons (h := .emitted row _) rfl rfl ⟨h, nodup_receivers _ _, fun _ => mem_receivers hs⟩

/-! ### Sockets -/

theorem Sound.connect (hs : Sound env s) (client : Socket) :
    Sound env { s with
      sockets := s.sockets.insert client
      log := .connected s.sockets.nextId :: s.log } := by
  have hnew : .connected s.sockets.nextId ∉ s.log := fun h => (hs.rooms.fresh _ h).false
  have hgranted : ∀ socket id, Granted (.connected s.sockets.nextId :: s.log) socket id
      ↔ Granted s.log socket id := by
    intro socket id
    unfold Granted
    simp only [List.mem_cons, reduceCtorEq, false_or]
  refine ⟨⟨hnew, hs.lawful⟩, hs.tables.cons (h := .connected _) rfl rfl rfl rfl, ?_, hs.tracks,
    hs.bounded⟩
  constructor
  · intro socket
    have hold := hs.rooms.sockets socket
    unfold Live at hold ⊢
    simp only [List.mem_cons, Happening.connected.injEq, reduceCtorEq, false_or,
      Table.insert_row]
    split_ifs with heq
    · subst heq
      exact iff_of_true rfl ⟨.inl rfl, fun h => hnew (hs.rooms.closed _ h)⟩
    · rw [hold, or_iff_right heq]
  · intro socket h
    rcases List.mem_cons.mp h with heq | hmem
    · obtain rfl := Happening.connected.inj heq
      exact Nat.lt_succ_self _
    · exact (hs.rooms.fresh socket hmem).trans (Nat.lt_succ_self _)
  · intro socket h
    simp only [List.mem_cons, reduceCtorEq, false_or] at h
    exact List.mem_cons_of_mem _ (hs.rooms.closed socket h)
  · intro socket id h
    exact List.mem_cons_of_mem _ (hs.rooms.granted socket id ((hgranted socket id).mp h))
  · intro socket id h
    exact List.mem_cons_of_mem _ (hs.rooms.members socket id h)
  · intro socket id hlive
    rw [hgranted]
    by_cases heq : socket = s.sockets.nextId
    · subst heq
      exact iff_of_false (fun h => hnew (hs.rooms.members _ _ h)) fun h =>
        hnew (hs.rooms.granted _ _ h)
    · refine hs.rooms.joined socket id ⟨?_, fun h => hlive.2 (List.mem_cons_of_mem _ h)⟩
      rcases List.mem_cons.mp hlive.1 with h | h
      · exact absurd (Happening.connected.inj h) heq
      · exact h

theorem Sound.disconnect (hs : Sound env s) (h : (s.sockets.row socket).isSome = true) :
    Sound env { s with
      sockets := s.sockets.delete socket
      rooms := s.rooms.filter fun member => member.1 ≠ socket
      log := .closed socket :: s.log } := by
  have hlive := (hs.rooms.sockets socket).mp h
  have hgranted : ∀ other id, Granted (.closed socket :: s.log) other id
      ↔ Granted s.log other id := by
    intro other id
    unfold Granted
    simp only [List.mem_cons, reduceCtorEq, false_or]
  have hothers : ∀ other, Live (.closed socket :: s.log) other
      ↔ other ≠ socket ∧ Live s.log other := by
    intro other
    unfold Live
    simp only [List.mem_cons, Happening.closed.injEq, reduceCtorEq, false_or, not_or]
    exact and_left_comm
  refine ⟨⟨hlive, hs.lawful⟩, hs.tables.cons (h := .closed _) rfl rfl rfl rfl, ?_, hs.tracks,
    hs.bounded⟩
  constructor
  · intro other
    rw [hothers, ← hs.rooms.sockets, Table.delete_row]
    split_ifs with heq
    · exact iff_of_false Bool.false_ne_true fun hne => hne.1 heq
    · exact (and_iff_right heq).symm
  · intro other hmem
    simp only [List.mem_cons, reduceCtorEq, false_or] at hmem
    exact hs.rooms.fresh other hmem
  · intro other hmem
    refine List.mem_cons_of_mem _ ?_
    rcases List.mem_cons.mp hmem with heq | hmem
    · obtain rfl := Happening.closed.inj heq
      exact hlive.1
    · exact hs.rooms.closed other hmem
  · intro other id hmem
    exact List.mem_cons_of_mem _ (hs.rooms.granted other id ((hgranted other id).mp hmem))
  · intro other id hmem
    exact List.mem_cons_of_mem _ (hs.rooms.members other id (List.mem_filter.mp hmem).1)
  · intro other id hother
    obtain ⟨hne, hother⟩ := (hothers other).mp hother
    rw [List.mem_filter, decide_eq_true_eq, hgranted, and_iff_left hne]
    exact hs.rooms.joined other id hother

theorem Sound.subscribed (hs : Sound env s) (hconnected : .connected socket ∈ s.log)
    (hproven : env.Proven viewer) (h : Entitled s.log viewer id) :
    Sound env (subscribed s socket viewer id) := by
  have hgranted : ∀ other id', Granted (.granted socket viewer id :: s.log) other id'
      ↔ (other = socket ∧ id' = id) ∨ Granted s.log other id' := by
    intro other id'
    unfold Granted
    constructor
    · rintro ⟨viewer', hmem⟩
      rcases List.mem_cons.mp hmem with heq | hmem
      · obtain ⟨hsocket, -, hid⟩ := Happening.granted.inj heq
        exact .inl ⟨hsocket, hid⟩
      · exact .inr ⟨viewer', hmem⟩
    · rintro (⟨rfl, rfl⟩ | ⟨viewer', hmem⟩)
      · exact ⟨viewer, List.mem_cons_self⟩
      · exact ⟨viewer', List.mem_cons_of_mem _ hmem⟩
  have hlive : ∀ other, Live (.granted socket viewer id :: s.log) other ↔ Live s.log other := by
    intro other
    unfold Live
    simp only [List.mem_cons, reduceCtorEq, false_or]
  refine Sound.answer (s := { s with
    rooms := s.rooms.insert (socket, id)
    log := .granted socket viewer id :: s.log }) ⟨⟨⟨hconnected, hproven, h⟩, hs.lawful⟩,
      hs.tables.cons (h := .granted _ _ _) rfl rfl rfl rfl, ?_, hs.tracks, hs.bounded⟩
    ⟨id, viewer, List.mem_cons_self⟩
  constructor
  · exact fun other => (hs.rooms.sockets other).trans (hlive other).symm
  · intro other hmem
    simp only [List.mem_cons, reduceCtorEq, false_or] at hmem
    exact hs.rooms.fresh other hmem
  · intro other hmem
    simp only [List.mem_cons, reduceCtorEq, false_or] at hmem
    exact List.mem_cons_of_mem _ (hs.rooms.closed other hmem)
  · intro other id' hmem
    refine List.mem_cons_of_mem _ ?_
    rcases (hgranted other id').mp hmem with ⟨rfl, -⟩ | hold
    · exact hconnected
    · exact hs.rooms.granted other id' hold
  · intro other id' hmem
    refine List.mem_cons_of_mem _ ?_
    rcases List.mem_insert_iff.mp hmem with heq | hold
    · obtain ⟨rfl, -⟩ := Prod.mk.inj heq
      exact hconnected
    · exact hs.rooms.members other id' hold
  · intro other id' hother
    rw [List.mem_insert_iff, Prod.mk.injEq, hgranted]
    exact or_congr_right (hs.rooms.joined other id' ((hlive other).mp hother))

/-! ### Tables -/

theorem Sound.createMessage (hs : Sound env s) (userId : Option ℕ) (data : NewMessage) :
    Sound env (createMessage s userId data now) := by
  have hnone : ∀ row, .opened s.supportMessages.nextId row ∉ s.log := by
    intro row hmem
    obtain ⟨m, hm, -⟩ := (hs.tables.opened _ _).mp hmem
    exact (Table.row_lt hm).false
  refine ⟨⟨hnone, hs.lawful⟩, ?_, hs.rooms.cons (h := .opened _ _) rfl rfl rfl rfl, hs.tracks,
    hs.bounded⟩
  constructor
  · intro id row
    have hold := hs.tables.opened id row
    unfold Support.createMessage
    simp only [List.mem_cons, Happening.opened.injEq, Table.insert_row]
    split_ifs with heq
    · subst heq
      constructor
      · rintro (⟨-, rfl⟩ | hmem)
        · exact ⟨_, rfl, rfl⟩
        · exact absurd hmem (hnone row)
      · rintro ⟨m, hm, rfl⟩
        obtain rfl := Option.some.inj hm
        exact .inl ⟨rfl, rfl⟩
    · rw [hold, or_iff_right fun h => heq h.1]
  · intro row
    have hold := hs.tables.posted row
    unfold Support.createMessage
    simp only [List.mem_cons, reduceCtorEq, false_or]
    exact hold

/-- The flags of a row are not recorded. -/
theorem opened_modify {messages : Table SupportMessage} {f : SupportMessage → SupportMessage}
    (hf : ∀ m, (f m).unflagged = m.unflagged) {i : ℕ} {row : SupportMessage} :
    (∃ m, (messages.modify i f).row id = some m ∧ m.unflagged = row)
      ↔ ∃ m, messages.row id = some m ∧ m.unflagged = row := by
  rw [Table.modify_row]
  split_ifs with heq
  · constructor
    · rintro ⟨m, hm, rfl⟩
      obtain ⟨m, hrow, rfl⟩ := Option.map_eq_some_iff.mp hm
      exact ⟨m, hrow, (hf m).symm⟩
    · rintro ⟨m, hrow, rfl⟩
      exact ⟨f m, by rw [hrow, Option.map_some], hf m⟩
  · exact Iff.rfl

theorem Sound.markRead (hs : Sound env s) : Sound env (markRead s id) where
  lawful := hs.lawful
  tables :=
    { opened := fun i row => by
        refine (hs.tables.opened i row).trans (Iff.symm (opened_modify ?_))
        exact fun _ => rfl
      posted := hs.tables.posted }
  rooms := ⟨hs.rooms.sockets, hs.rooms.fresh, hs.rooms.closed, hs.rooms.granted, hs.rooms.members,
    hs.rooms.joined⟩
  tracks := hs.tracks
  bounded := hs.bounded

theorem Sound.createReply (hs : Sound env s) (h : Entitled s.log viewer id)
    (stored : Utf16Json.Utf16) : Sound env (createReply s viewer id stored now) := by
  have hnone : ∀ r, .posted (s.supportReplies.nextId, r) ∉ s.log := fun r hmem =>
    (Table.row_lt ((hs.tables.posted _).mp hmem)).false
  refine ⟨⟨⟨hnone, viewer, stored, now, rfl, h⟩, hs.lawful⟩, ?_,
    hs.rooms.cons (h := .posted _) rfl rfl rfl rfl, hs.tracks, hs.bounded⟩
  constructor
  · intro i row
    have hold := hs.tables.opened i row
    unfold Support.createReply
    simp only [List.mem_cons, reduceCtorEq, false_or]
    cases viewer with
    | user userId => exact hold
    | admin =>
      refine hold.trans (Iff.symm (opened_modify ?_))
      exact fun _ => rfl
  · rintro ⟨i, r⟩
    have hold := hs.tables.posted (i, r)
    unfold Support.createReply
    simp only [List.mem_cons, Happening.posted.injEq, Prod.mk.injEq, Table.insert_row]
    split_ifs with heq
    · subst heq
      rw [and_iff_right rfl, or_iff_left (hnone r), Option.some_inj]
      exact eq_comm
    · rw [hold, or_iff_right fun h => heq h.1]

/-! ### Subscriptions -/

theorem Sound.tick {s' : Site} (hs : Sound env s) (h : tick s now = some s') :
    Sound env s' ∧ s'.log = s.log ∧ s'.clock = now := by
  unfold Support.tick at h
  split_ifs at h with hlate
  obtain rfl := Option.some.inj h
  refine ⟨⟨hs.lawful, ⟨hs.tables.opened, hs.tables.posted⟩, ⟨hs.rooms.sockets, hs.rooms.fresh,
    hs.rooms.closed, hs.rooms.granted, hs.rooms.members, hs.rooms.joined⟩, ?_, hs.bounded⟩, rfl,
    rfl⟩
  exact fun key => (hs.tracks key).later (not_lt.mp hlate)

theorem Sound.allowJoin (hs : Sound env s) (key : String) :
    Sound env (allowJoin s key s.clock).1 ∧ (allowJoin s key s.clock).1.log = s.log := by
  have hrooms : ∀ buckets joined, Rooms { s with joinBuckets := buckets, joined := joined } :=
    fun _ _ => ⟨hs.rooms.sockets, hs.rooms.fresh, hs.rooms.closed, hs.rooms.granted,
      hs.rooms.members, hs.rooms.joined⟩
  refine ⟨?_, rfl⟩
  unfold Support.allowJoin
  by_cases hfew : (recent 60000 s.clock (timesOf key s.joined)).length < 60
  · rw [hs.tracks.allow_of_few le_rfl hfew]
    exact ⟨hs.lawful, ⟨hs.tables.opened, hs.tables.posted⟩, hrooms _ _, hs.tracks.accept le_rfl,
      SlidingWindow.bounded_accept hs.bounded hfew⟩
  · rw [hs.tracks.allow_of_full le_rfl (not_lt.mp hfew)]
    exact ⟨hs.lawful, ⟨hs.tables.opened, hs.tables.posted⟩, hrooms _ _, hs.tracks, hs.bounded⟩

theorem proven_userViewer {client : Socket} {token : Option (Json JsNumber)}
    (h : userViewer env client token now = some viewer) : env.Proven viewer := by
  obtain ⟨userId, huser, rfl⟩ := Option.map_eq_some_iff.mp h
  obtain ⟨text, -, hverified⟩ := Option.bind_eq_some_iff.mp (Option.filter_eq_some_iff.mp huser).1
  exact ⟨text, now, hverified⟩

theorem proven_adminViewer {client : Socket} {token : Option (Json JsNumber)}
    (h : adminViewer env client token now = some viewer) : env.Proven viewer := by
  obtain ⟨text, htext, rfl⟩ := Option.map_eq_some_iff.mp h
  exact ⟨text, now, (Option.filter_eq_some_iff.mp htext).2⟩

/-- The state is sound, and more is recorded; what waits is right. -/
def Advances (env : Env) (s : Site) (out : Site × Option Call) : Prop :=
  Sound env out.1 ∧ s.log ⊆ out.1.log ∧ ∀ c ∈ out.2, Waits env out.1.log c

theorem Sound.advances_answer (hs : Sound env s) {response : Response}
    (h : Right s.log response) : Advances env s (s.answer response, none) :=
  ⟨hs.answer h, fun _ hmem => List.mem_cons_of_mem _ hmem, fun c hc => by cases hc⟩

theorem Sound.advances_call (hs : Sound env s) {c : Call} (h : Waits env s.log c) :
    Advances env s (s, some c) := by
  refine ⟨hs, List.Subset.refl _, fun c' hc' => ?_⟩
  obtain rfl := Option.some.inj hc'
  exact h

theorem Advances.of_log {s' : Site} {out : Site × Option Call} (h : Advances env s' out)
    (hlog : s'.log = s.log) : Advances env s out :=
  ⟨h.1, hlog ▸ h.2.1, h.2.2⟩

theorem Sound.subscribeAs (hs : Sound env s) (hlive : (s.sockets.row socket).isSome = true)
    {key refusal : String} {who : Option Viewer} {sid : Option (Json JsNumber)}
    (hwho : ∀ v ∈ who, env.Proven v) (hclock : s.clock = now) :
    Advances env s (subscribeAs s socket key who refusal sid now) := by
  subst hclock
  obtain ⟨hsound, hlog⟩ := hs.allowJoin key
  unfold Support.subscribeAs
  generalize Support.allowJoin s key s.clock = joined at hsound hlog
  obtain ⟨s', allowed⟩ := joined
  refine Advances.of_log ?_ hlog
  dsimp only
  split_ifs
  · exact hsound.advances_answer trivial
  · exact hsound.advances_answer trivial
  · cases who with
    | none => exact hsound.advances_answer trivial
    | some v =>
      refine hsound.advances_call ⟨?_, hwho v rfl⟩
      rw [hlog]
      exact ((hs.rooms.sockets socket).mp hlive).1

theorem Sound.handle (hs : Sound env s) {r : Request} {out : Site × Option Call}
    (hclock : s.clock = now) (h : handle env s now r = some out) : Advances env s out := by
  cases r with
  | connect client =>
    obtain rfl := Option.some.inj h
    exact ⟨hs.connect client, fun _ hmem => List.mem_cons_of_mem _ hmem, fun c hc => by cases hc⟩
  | disconnect socket =>
    obtain ⟨client, hrow, rfl⟩ := Option.map_eq_some_iff.mp h
    refine ⟨hs.disconnect (by rw [hrow]; rfl), fun _ hmem => List.mem_cons_of_mem _ hmem,
      fun c hc => by cases hc⟩
  | subscribe socket token sid =>
    obtain ⟨client, hrow, rfl⟩ := Option.map_eq_some_iff.mp h
    exact hs.subscribeAs (by rw [hrow]; rfl) (fun v hv => proven_userViewer hv) hclock
  | subscribeAdmin socket token sid =>
    obtain ⟨client, hrow, rfl⟩ := Option.map_eq_some_iff.mp h
    exact hs.subscribeAs (by rw [hrow]; rfl) (fun v hv => proven_adminViewer hv) hclock
  | createMessage userId body =>
    obtain rfl := Option.some.inj h
    split
    · exact hs.advances_answer trivial
    · exact hs.advances_call trivial
  | getMessage viewer id =>
    obtain rfl := Option.some.inj h
    split
    · exact hs.advances_answer trivial
    · exact hs.advances_call trivial
  | replyToMessage viewer id body =>
    obtain rfl := Option.some.inj h
    split
    · exact hs.advances_answer trivial
    · split
      · exact hs.advances_answer trivial
      · exact hs.advances_call trivial

/-! ### Queries -/

theorem Sound.write (hs : Sound env s) {c : Call} (hc : Waits env s.log c) :
    Sound env (write s c now) ∧ s.log ⊆ (write s c now).log := by
  cases c with
  | createMessage userId data =>
    exact ⟨hs.createMessage userId data, fun _ hmem => List.mem_cons_of_mem _ hmem⟩
  | markRead id ticket => exact ⟨hs.markRead, List.Subset.refl _⟩
  | createReply viewer id stored =>
    exact ⟨hs.createReply hc stored, fun _ hmem => List.mem_cons_of_mem _ hmem⟩
  | _ => exact ⟨hs, List.Subset.refl _⟩

theorem Sound.found (hs : Sound env s) {n : JsNumber} {row : SupportMessage}
    (h : findSeen s viewer n = some (some (id, row))) : Advances env s (found s viewer id row) := by
  obtain ⟨hopened, hentitled⟩ := hs.entitled h
  have hread : Sound env { s with log := .read viewer id (repliesOf s id) :: s.log } :=
    hs.cons (h := .read viewer id _) rfl rfl ⟨hentitled, thread_repliesOf hs id⟩
  have hright : Right (.read viewer id (repliesOf s id) :: s.log)
      (.message viewer (enrichTicket id row (repliesOf s id))) :=
    ⟨row, _, List.mem_cons_of_mem _ hopened, List.mem_cons_self, rfl⟩
  have hsub : ∀ {out : Site × Option Call},
      Advances env { s with log := .read viewer id (repliesOf s id) :: s.log } out →
      Advances env s out := fun hout =>
    ⟨hout.1, fun _ hmem => hout.2.1 (List.mem_cons_of_mem _ hmem), hout.2.2⟩
  unfold Support.found
  cases viewer with
  | user userId => exact hsub (hread.advances_answer hright)
  | admin =>
    dsimp only
    split_ifs
    · exact hsub (hread.advances_answer hright)
    · exact hsub (hread.advances_call hright)

theorem Sound.query (hs : Sound env s) {c : Call} (hc : Waits env s.log c) :
    Advances env s (query s c now) := by
  obtain ⟨hwrite, hsub⟩ := @Sound.write env s now hs c hc
  cases c with
  | findSubscribed socket viewer sid =>
    unfold Support.query
    dsimp only
    split
    · exact hs.advances_answer trivial
    · exact hs.advances_answer trivial
    · next id row h =>
      refine ⟨hs.subscribed hc.1 hc.2 (hs.entitled h).2, fun _ hmem => ?_, fun c hc => by cases hc⟩
      exact List.mem_cons_of_mem _ (List.mem_cons_of_mem _ hmem)
  | createMessage userId data =>
    refine ⟨hwrite.answer ⟨_, List.mem_cons_self⟩, fun _ hmem => ?_, fun c hc => by cases hc⟩
    exact List.mem_cons_of_mem _ (hsub hmem)
  | findMessage viewer id =>
    unfold Support.query
    dsimp only
    split
    · exact hs.advances_answer trivial
    · exact hs.advances_answer trivial
    · next h => exact hs.found h
  | markRead id ticket =>
    refine ⟨hwrite.answer (Right.mono hc hsub), fun _ hmem => ?_, fun c hc => by cases hc⟩
    exact List.mem_cons_of_mem _ (hsub hmem)
  | findReplied viewer id body attachments =>
    unfold Support.query
    dsimp only
    split
    · exact hs.advances_answer trivial
    · refine hs.advances_answer ?_
      cases viewer <;> exact trivial
    · next h => exact hs.advances_call (hs.entitled h).2
  | createReply viewer id stored =>
    refine ⟨hwrite, hsub, fun c' hc' => ?_⟩
    obtain rfl := Option.some.inj hc'
    exact List.mem_cons_self
  | emit row =>
    refine ⟨(hs.emit hc).answer ⟨row, _, List.mem_cons_self, rfl⟩, fun _ hmem => ?_,
      fun c hc => by cases hc⟩
    exact List.mem_cons_of_mem _ (List.mem_cons_of_mem _ hmem)

theorem right_failure {c : Call} {response : Response} (h : c.failure = some response)
    (past : List Happening) : Right past response := by
  cases c with
  | emit row => cases h
  | _ =>
    obtain rfl := Option.some.inj h
    exact trivial

theorem Sound.resume (hs : Sound env s) {c : Call} {outcome : Outcome} {out : Site × Option Call}
    (hc : Waits env s.log c) (h : resume s c now outcome = some out) : Advances env s out := by
  cases outcome with
  | done =>
    obtain rfl := Option.some.inj h
    exact hs.query hc
  | error =>
    obtain ⟨response, hresponse, rfl⟩ := Option.map_eq_some_iff.mp h
    exact hs.advances_answer (right_failure hresponse _)
  | lost =>
    obtain ⟨response, hresponse, rfl⟩ := Option.map_eq_some_iff.mp h
    obtain ⟨hwrite, hsub⟩ := @Sound.write env s now hs c hc
    refine ⟨hwrite.answer (right_failure hresponse _), fun _ hmem => ?_, fun c hc => by cases hc⟩
    exact List.mem_cons_of_mem _ (hsub hmem)

end Steps

/-! ## Every run -/

section Runs

variable {env : Env} {es : List (Event (Request × ℤ) (Outcome × ℤ))} {t : InFlight Site Call}

theorem sound_start (env : Env) : Sound env .start where
  lawful := trivial
  tables :=
    { opened := fun id row => iff_of_false List.not_mem_nil fun ⟨m, hm, _⟩ => by cases hm
      posted := fun row => iff_of_false List.not_mem_nil fun hrow => by cases hrow }
  rooms :=
    { sockets := fun socket => iff_of_false Bool.false_ne_true fun h => List.not_mem_nil h.1
      fresh := fun socket h => absurd h List.not_mem_nil
      closed := fun socket h => absurd h List.not_mem_nil
      granted := fun socket id ⟨viewer, h⟩ => absurd h List.not_mem_nil
      members := fun socket id h => absurd h List.not_mem_nil
      joined := fun socket id h => absurd h.1 List.not_mem_nil }
  tracks := fun key later _ => rfl
  bounded := fun key start => Nat.zero_le _

theorem holds_step {t t' : InFlight Site Call} {e : Event (Request × ℤ) (Outcome × ℤ)}
    (h : Service.Holds (Sound env) (fun s c => Waits env s.log c) t)
    (hstep : (service env).step t e = some t') :
    Service.Holds (Sound env) (fun s c => Waits env s.log c) t' := by
  refine (service env).holds_step (C := fun _ _ _ => True) ?_ ?_ h ?_ hstep
  · intro s r s' cs hs hstart
    obtain ⟨s₁, htick, hstart⟩ := Option.bind_eq_some_iff.mp hstart
    obtain ⟨out, hout, heq⟩ := Option.map_eq_some_iff.mp hstart
    obtain ⟨rfl, rfl⟩ := Prod.mk.inj heq
    obtain ⟨hsound, hlog, hclock⟩ := hs.tick htick
    obtain ⟨hsound, hsub, hwaits⟩ := hsound.handle hclock hout
    refine ⟨hsound, fun d hd => Waits.mono hd (hlog ▸ hsub), fun c hc => ?_⟩
    exact hwaits c (Option.mem_toList.mp hc)
  · intro s c outcome s' next hs hc _ hresume
    obtain ⟨s₁, htick, hresume⟩ := Option.bind_eq_some_iff.mp hresume
    obtain ⟨hsound, hlog, -⟩ := hs.tick htick
    obtain ⟨hsound, hsub, hwaits⟩ := hsound.resume (hlog ▸ hc) hresume
    exact ⟨hsound, fun d hd => Waits.mono hd (hlog ▸ hsub), hwaits⟩
  · cases e with
    | start r => exact trivial
    | resume call outcome => exact fun _ _ => trivial

theorem run_sound (hrun : (service env).sys.run ⟨.start, .empty⟩ es = some t) :
    Service.Holds (Sound env) (fun s c => Waits env s.log c) t :=
  (service env).sys.run_invariant (C := fun _ _ => True) (fun _ _ _ hs _ h => holds_step hs h)
    ⟨sound_start env, fun i c hc => by cases hc⟩
    ((service env).sys.meets_of_forall (fun _ _ => trivial) _ _) hrun

theorem Lawful.fits {h : Happening} {past : List Happening} : ∀ {after : List Happening},
    Lawful env (after ++ h :: past) → Fits env past h
  | [], hl => hl.1
  | _ :: _, hl => Lawful.fits hl.2

/-! ### No reply is sent twice -/

def emittedIds (log : List Happening) : List ℕ :=
  log.filterMap fun h => match h with
    | .emitted row _ => some row.1
    | _ => none

/-- The reply that a call is about to send. -/
def Call.emits : Call → Option ℕ
  | .emit row => some row.1
  | _ => none

/-- The call and the state that a step leaves: what it sends, and what is left to send. -/
structure Emits (s : Site) (ids : List ℕ) (out : Site × Option Call) : Prop where
  log : emittedIds out.1.log = ids ++ emittedIds s.log
  next : ∀ c ∈ out.2, ∀ i ∈ c.emits, i = s.supportReplies.nextId

/-- It sends nothing, and leaves nothing to send. -/
structure Silent (s : Site) (out : Site × Option Call) : Prop where
  log : emittedIds out.1.log = emittedIds s.log
  next : ∀ c ∈ out.2, c.emits = none

variable {s : Site} {now : ℤ} {out : Site × Option Call}

theorem Silent.emits (h : Silent s out) : Emits s [] out := by
  refine ⟨h.log, fun c hc i hi => ?_⟩
  rw [h.next c hc] at hi
  cases hi

theorem silent_none {s' : Site} (h : emittedIds s'.log = emittedIds s.log) :
    Silent s (s', none) :=
  ⟨h, fun c hc => by cases hc⟩

theorem silent_call {s' : Site} {c : Call} (h : emittedIds s'.log = emittedIds s.log)
    (hc : c.emits = none) : Silent s (s', some c) := by
  refine ⟨h, fun c' hc' => ?_⟩
  obtain rfl := Option.some.inj hc'
  exact hc

theorem emits_none {s' : Site} (h : emittedIds s'.log = emittedIds s.log) :
    Emits s [] (s', none) :=
  (silent_none h).emits

theorem emits_call {s' : Site} {c : Call} (h : emittedIds s'.log = emittedIds s.log)
    (hc : c.emits = none) : Emits s [] (s', some c) :=
  (silent_call h hc).emits

theorem allowJoin_log (s : Site) (key : String) (now : ℤ) :
    (allowJoin s key now).1.log = s.log := rfl

theorem subscribeAs_silent {socket : ℕ} {key refusal : String} {who : Option Viewer}
    {sid : Option (Json JsNumber)} : Silent s (subscribeAs s socket key who refusal sid now) := by
  have hlog := allowJoin_log s key now
  unfold subscribeAs
  generalize allowJoin s key now = joined at hlog
  obtain ⟨s', allowed⟩ := joined
  dsimp only at hlog ⊢
  have hsame : emittedIds s'.log = emittedIds s.log := congrArg emittedIds hlog
  split_ifs
  · exact silent_none hsame
  · exact silent_none hsame
  · cases who with
    | none => exact silent_none hsame
    | some viewer => exact silent_call hsame rfl

theorem handle_silent {r : Request} (h : handle env s now r = some out) : Silent s out := by
  cases r with
  | connect client =>
    obtain rfl := Option.some.inj h
    exact silent_none rfl
  | disconnect socket =>
    obtain ⟨client, -, rfl⟩ := Option.map_eq_some_iff.mp h
    exact silent_none rfl
  | subscribe socket token sid =>
    obtain ⟨client, -, rfl⟩ := Option.map_eq_some_iff.mp h
    exact subscribeAs_silent
  | subscribeAdmin socket token sid =>
    obtain ⟨client, -, rfl⟩ := Option.map_eq_some_iff.mp h
    exact subscribeAs_silent
  | createMessage userId body =>
    obtain rfl := Option.some.inj h
    split
    · exact silent_none rfl
    · exact silent_call rfl rfl
  | getMessage viewer id =>
    obtain rfl := Option.some.inj h
    split
    · exact silent_none rfl
    · exact silent_call rfl rfl
  | replyToMessage viewer id body =>
    obtain rfl := Option.some.inj h
    split
    · exact silent_none rfl
    · split
      · exact silent_none rfl
      · exact silent_call rfl rfl

theorem write_emits (s : Site) (c : Call) (now : ℤ) :
    emittedIds (write s c now).log = emittedIds s.log := by
  cases c <;> rfl

theorem query_emits (s : Site) (c : Call) (now : ℤ) :
    Emits s c.emits.toList (query s c now) := by
  cases c with
  | findSubscribed socket viewer sid =>
    unfold query
    dsimp only
    split <;> exact emits_none rfl
  | createMessage userId data => exact emits_none rfl
  | findMessage viewer id =>
    unfold query
    dsimp only
    split
    · exact emits_none rfl
    · exact emits_none rfl
    · unfold found
      cases viewer with
      | user userId => exact emits_none rfl
      | admin =>
        dsimp only
        split_ifs
        · exact emits_none rfl
        · exact emits_call rfl rfl
  | markRead id ticket => exact emits_none rfl
  | findReplied viewer id body attachments =>
    unfold query
    dsimp only
    split
    · exact emits_none rfl
    · exact emits_none rfl
    · exact emits_call rfl rfl
  | createReply viewer id stored =>
    refine ⟨rfl, fun c' hc' i hi => ?_⟩
    obtain rfl := Option.some.inj hc'
    exact (Option.some.inj hi).symm
  | emit row => exact ⟨rfl, fun c hc => by cases hc⟩

theorem resume_emits {c : Call} {outcome : Outcome} (h : resume s c now outcome = some out) :
    Emits s c.emits.toList out := by
  have hnone : ∀ {response}, c.failure = some response → c.emits = none := by
    intro response hresponse
    cases c with
    | emit row => cases hresponse
    | _ => rfl
  cases outcome with
  | done =>
    obtain rfl := Option.some.inj h
    exact query_emits s c now
  | error =>
    obtain ⟨response, hresponse, rfl⟩ := Option.map_eq_some_iff.mp h
    rw [hnone hresponse]
    exact emits_none rfl
  | lost =>
    obtain ⟨response, hresponse, rfl⟩ := Option.map_eq_some_iff.mp h
    rw [hnone hresponse]
    exact emits_none (write_emits s c now)

theorem Lawful.posted {row : ℕ × SupportReply} {receivers : List ℕ} {log : List Happening}
    (hl : Lawful env log) (h : .emitted row receivers ∈ log) : .posted row ∈ log := by
  obtain ⟨newer, older, rfl⟩ := List.append_of_mem h
  exact List.mem_append_right _ (List.mem_cons_of_mem _ hl.fits.1)

theorem Sound.emitted_lt (hs : Sound env s) {i : ℕ} (h : i ∈ emittedIds s.log) :
    i < s.supportReplies.nextId := by
  obtain ⟨happening, hmem, heq⟩ := List.mem_filterMap.mp h
  cases happening with
  | emitted row receivers =>
    obtain rfl := Option.some.inj heq
    exact Table.row_lt ((hs.tables.posted row).mp (hs.lawful.posted hmem))
  | _ => cases heq

/-- What has been sent and what is about to be are different replies. -/
structure Once (t : InFlight Site Call) : Prop where
  sent : (emittedIds t.db.log).Nodup
  unsent : ∀ i c, t.calls.row i = some c → ∀ j ∈ c.emits, j ∉ emittedIds t.db.log
  apart : Service.Apart (fun c c' => ∀ j ∈ c.emits, j ∉ c'.emits) t.calls

theorem tick_eq {s' : Site} (h : tick s now = some s') : s' = { s with clock := now } := by
  unfold tick at h
  split_ifs at h
  exact (Option.some.inj h).symm

theorem Once.step {t t' : InFlight Site Call} {e : Event (Request × ℤ) (Outcome × ℤ)}
    (hsound : Service.Holds (Sound env) (fun s c => Waits env s.log c) t) (h : Once t)
    (hstep : (service env).step t e = some t') : Once t' := by
  have hlt : ∀ i c, t.calls.row i = some c → ∀ j ∈ c.emits, j < t.db.supportReplies.nextId := by
    intro i c hc j hj
    have hwaits := hsound.2 i c hc
    cases c with
    | emit row =>
      obtain rfl := Option.some.inj hj
      exact Table.row_lt ((hsound.1.tables.posted row).mp hwaits)
    | _ => cases hj
  cases e with
  | start r =>
    obtain ⟨db, cs, hr, rfl⟩ := (service env).step_start hstep
    obtain ⟨s₁, htick, hr⟩ := Option.bind_eq_some_iff.mp hr
    obtain rfl := tick_eq htick
    obtain ⟨out, hout, heq⟩ := Option.map_eq_some_iff.mp hr
    obtain ⟨rfl, rfl⟩ := Prod.mk.inj heq
    obtain ⟨hlog, hnone⟩ := handle_silent hout
    refine ⟨?_, fun i c hc => ?_, ?_⟩
    · rw [hlog]
      exact h.sent
    · rw [hlog]
      rcases Service.start_row hc with ⟨j, hold⟩ | hnew
      · exact h.unsent j c hold
      · rw [hnone c hnew]
        exact fun j hj => by cases hj
    · refine h.apart.foldl_insert fun d hd c => ?_
      rw [hnone d (Option.mem_toList.mp hd)]
      refine ⟨fun j _ hj => ?_, fun j hj => ?_⟩ <;> cases hj
  | resume call a =>
    obtain ⟨c, db, next, hc, hr, rfl⟩ := (service env).step_resume hstep
    obtain ⟨s₁, htick, hr⟩ := Option.bind_eq_some_iff.mp hr
    obtain rfl := tick_eq htick
    obtain ⟨hlog, hnext⟩ := resume_emits hr
    have hother : ∀ i d, i ≠ call → t.calls.row i = some d → ∀ j ∈ d.emits, j ∉ c.emits := by
      exact fun i d hne hd j hj => h.apart i call d c hne hd hc j hj
    have hnew : ∀ d ∈ next, ∀ j ∈ d.emits, j ∉ emittedIds t.db.log ∧ j ∉ c.emits := by
      intro d hd j hj
      obtain rfl := hnext d hd j hj
      exact ⟨fun hmem => (hsound.1.emitted_lt hmem).false, fun hmem => (hlt call c hc _ hmem).false⟩
    have hmem : ∀ {j}, j ∈ emittedIds db.log ↔ j ∈ c.emits ∨ j ∈ emittedIds t.db.log := by
      intro j
      rw [hlog, List.mem_append, Option.mem_toList]
      exact Iff.rfl
    refine ⟨?_, fun i d hd j hj hsent => ?_, ?_⟩
    · rw [hlog]
      cases hemits : c.emits with
      | none => exact h.sent
      | some j => exact List.nodup_cons.mpr ⟨h.unsent call c hc j hemits, h.sent⟩
    · rcases Service.advance_row hd with ⟨-, hd⟩ | ⟨hne, hd⟩
      · obtain ⟨hsent', hemits⟩ := hnew d hd j hj
        exact (hmem.mp hsent).elim hemits hsent'
      · exact (hmem.mp hsent).elim (hother i d hne hd j hj) (h.unsent i d hd j hj)
    · refine h.apart.advance fun d hd i c' hne hc' => ⟨fun j hj hj' => ?_, fun j hj hj' => ?_⟩
      · obtain rfl := hnext d hd j hj'
        exact (hlt i c' hc' _ hj).false
      · obtain rfl := hnext d hd j hj
        exact (hlt i c' hc' _ hj').false

/-- **However requests, queries, replies and sockets interleave**, everything
that happens fits what has happened before, and no reply is sent twice.
`allowJoin` lets a subscription through exactly if it has let fewer than 60 of
its key through in the minute before, so no minute has more than 60 of them. -/
theorem support_lawful (hrun : (service env).sys.run ⟨.start, .empty⟩ es = some t) :
    Lawful env t.db.log ∧ (emittedIds t.db.log).Nodup ∧ ∀ key,
      Bounded 60 60000 (timesOf key t.db.joined) ∧ ∀ now, t.db.clock ≤ now →
        ((allowJoin t.db key now).2 = true
          ↔ (recent 60000 now (timesOf key t.db.joined)).length < 60) := by
  have hstart : Once ⟨.start, .empty⟩ :=
    ⟨List.nodup_nil, fun i c hc => (by cases hc), fun i j c c' _ hc => (by cases hc)⟩
  have hboth : Service.Holds (Sound env) (fun s c => Waits env s.log c) t ∧ Once t := by
    refine (service env).sys.run_invariant (C := fun _ _ => True)
      (I := fun t => Service.Holds (Sound env) (fun s c => Waits env s.log c) t ∧ Once t) ?_
      ⟨⟨sound_start env, fun i c hc => (by cases hc)⟩, hstart⟩
      ((service env).sys.meets_of_forall (fun _ _ => trivial) _ _) hrun
    intro s e s' hs _ hstep
    exact ⟨holds_step hs.1 hstep, hs.2.step hs.1 hstep⟩
  exact ⟨hboth.1.1.lawful, hboth.2.sent, fun key => ⟨hboth.1.1.bounded key, fun now hnow =>
    hboth.1.1.tracks.allow_iff hnow⟩⟩

end Runs

/-! ### A run -/

open Utf16Json (Value ascii)

def oneUser : Env where
  verifyAccessToken token _ := if token = "a.b.c" then some 1 else none
  verifyAdminJwtToken _ _ := false
  isEmail _ := true

def someText : Value := .string (ascii ['h', 'i'])

def someBody : Value :=
  .object [(ascii "name".toList, someText), (ascii "email".toList, someText),
    (ascii "subject".toList, someText), (ascii "message".toList, someText)]

/-- A user opens a ticket, joins its room and is shown it; then an admin replies. -/
def oneTicket : List (Event (Request × ℤ) (Outcome × ℤ)) :=
  [.start (.connect ⟨"::1", none, none⟩, 1), .start (.createMessage (some 1) someBody, 2),
    .resume 1 (.done, 3),
    .start (.subscribe 1 (some (.string "a.b.c")) (some (.number (.finite 1))), 4),
    .resume 2 (.done, 5), .start (.getMessage (.user 1) "1", 6), .resume 3 (.done, 7),
    .start (.replyToMessage .admin "1" someBody, 8), .resume 4 (.done, 9), .resume 4 (.done, 10),
    .resume 4 (.done, 11)]

theorem support_lawful_one : ∃ t, (service oneUser).sys.run ⟨.start, .empty⟩ oneTicket = some t
    ∧ Lawful oneUser t.db.log := by
  obtain ⟨t, hrun⟩ : ∃ t, (service oneUser).sys.run ⟨.start, .empty⟩ oneTicket = some t := ⟨_, rfl⟩
  exact ⟨t, hrun, (support_lawful hrun).1⟩

section Runs

variable {env : Env} {es : List (Event (Request × ℤ) (Outcome × ℤ))} {t : InFlight Site Call}

/-- A socket that has joined before it was shown the thread, and is connected
still, has got every reply that was sent: in the thread, or sent to it. -/
theorem nothing_missed (hrun : (service env).sys.run ⟨.start, .empty⟩ es = some t)
    {after between before : List Happening} {viewer viewer' : Viewer} {id socket : ℕ}
    {replies : List (ℕ × SupportReply)} {row : ℕ × SupportReply} {receivers : List ℕ}
    (hlog : t.db.log = after ++ .read viewer id replies :: between
      ++ .granted socket viewer' id :: before)
    (hlive : Live t.db.log socket) (hrow : row.2.supportMessageId = id)
    (hemitted : .emitted row receivers ∈ t.db.log) : row ∈ replies ∨ socket ∈ receivers := by
  have hlawful := (run_sound hrun).1.lawful
  rw [hlog] at hlawful hemitted
  rcases List.mem_append.mp hemitted with hmem | hmem
  · -- it was sent when the socket was in the room
    right
    obtain ⟨newer, older, hsplit⟩ := List.append_of_mem hmem
    have hpast : t.db.log = newer ++ .emitted row receivers :: (older
        ++ .granted socket viewer' id :: before) := by
      rw [hlog, hsplit, List.append_assoc, List.cons_append]
    have hfits := (hpast ▸ (run_sound hrun).1.lawful : Lawful env _).fits
    have hconnected : .connected socket ∈ before := hlawful.fits.1
    refine (hfits.2.2 socket).mpr ⟨⟨?_, fun hclosed => hlive.2 ?_⟩, viewer', ?_⟩
    · exact List.mem_append_right _ (List.mem_cons_of_mem _ hconnected)
    · rw [hpast]
      exact List.mem_append_right _ (List.mem_cons_of_mem _ hclosed)
    · rw [hrow]
      exact List.mem_append_right _ List.mem_cons_self
  · -- it was sent before that, so it was there when the thread was read
    left
    have hbefore : .emitted row receivers ∈ before :=
      (List.mem_cons.mp hmem).resolve_left fun h => by cases h
    obtain ⟨newer, older, hsplit⟩ := List.append_of_mem hbefore
    have hposted : .posted row ∈ before := by
      rw [hsplit] at hlawful ⊢
      have hall : Lawful env ((after ++ .read viewer id replies :: between
          ++ .granted socket viewer' id :: newer) ++ .emitted row receivers :: older) := by
        rw [List.append_assoc, List.cons_append]
        exact hlawful
      exact List.mem_append_right _ (List.mem_cons_of_mem _ hall.fits.1)
    have hread : Lawful env (after ++ .read viewer id replies :: (between
        ++ .granted socket viewer' id :: before)) := by
      rw [← List.cons_append, ← List.append_assoc]
      exact hlawful
    refine (hread.fits.2.mem row).mpr ⟨?_, hrow⟩
    exact List.mem_append_right _ (List.mem_cons_of_mem _ hposted)

end Runs

theorem nothing_missed_one : ∃ t receivers, (service oneUser).sys.run ⟨.start, .empty⟩ oneTicket
      = some t
    ∧ .emitted (1, replyRow .admin 1 (ascii ['h', 'i']) 10) receivers ∈ t.db.log
    ∧ ((1, replyRow .admin 1 (ascii ['h', 'i']) 10) ∈ ([] : List (ℕ × SupportReply))
      ∨ 1 ∈ receivers) := by
  obtain ⟨t, hrun, hlog, hemitted, hlive⟩ : ∃ t, (service oneUser).sys.run ⟨.start, .empty⟩
        oneTicket = some t
      ∧ t.db.log = t.db.log.take 4 ++ .read (.user 1) 1 [] :: (t.db.log.drop 5).take 1
        ++ .granted 1 (.user 1) 1 :: t.db.log.drop 7
      ∧ .emitted (1, replyRow .admin 1 (ascii ['h', 'i']) 10) [1] ∈ t.db.log
      ∧ (t.db.sockets.row 1).isSome = true :=
    ⟨_, rfl, rfl, .tail _ (.head _), rfl⟩
  have hsockets := ((run_sound hrun).1.rooms.sockets 1).mp hlive
  exact ⟨t, [1], hrun, hemitted, nothing_missed hrun hlog hsockets rfl hemitted⟩

end BlockMiner.Support
