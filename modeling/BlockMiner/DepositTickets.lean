import BlockMiner.Json
import BlockMiner.Service

/-!
# Deposit tickets

`depositTicketController.js`: an administrator looks at a ticket, credits it or rejects
it. Each of the three requests reads the ticket and tests its status; after a wait it
writes the status of the ticket it has read, whatever has become of it since. A view
waits for the analysis on the chain, the other two for their transaction, whose
statements follow one another without a condition and take effect together.

So a ticket can be credited twice, credited after it was rejected, and reopened by a
view that began before it was resolved.

Amounts are exact. Notifications, the deletion of users and the copy of a balance in the
mining engine are left out.
-/

namespace BlockMiner.DepositTickets

inductive TicketStatus where
  | open
  | analyzing
  | approved
  | rejected
  | credited
deriving DecidableEq

structure DepositTicket where
  userId : ℕ
  walletAddress : String
  txHash : Option String
  status : TicketStatus
  onchainDataJson : Option String
  adminAction : Option String
  adminNote : Option String
  creditedAmount : Option ℚ
deriving DecidableEq

/-- A deposit that is credited to a user. -/
structure Transaction where
  userId : ℕ
  amount : ℚ
  txHash : Option String
  fromAddress : String
  /-- Not a column: the ticket it was credited for. -/
  ticket : ℕ
deriving DecidableEq

structure Db where
  tickets : Table DepositTicket
  transactions : List Transaction
  polBalance : ℕ → ℚ

/-- A finite amount, in texts too; the transaction of an infinite one fails. -/
def creditAmount (amount : Option (Json JsNumber)) : Option ℚ :=
  match Number amount with
  | .finite q => if 0 < q then some q else none
  | _ => none

inductive Request where
  | adminGetTicket (id : ℕ)
  | adminApproveTicket (id : ℕ) (amount : Option (Json JsNumber)) (note : Option String)
  | adminRejectTicket (id : ℕ) (note : Option String)

/-- A request between its read and its write. -/
inductive Call where
  | analyzing (id : ℕ)
  | crediting (id : ℕ) (ticket : DepositTicket) (amount : ℚ) (note : Option String)
  | rejecting (id : ℕ) (note : Option String)
deriving DecidableEq

inductive Answer where
  | analyzed (onchainDataJson : String)
  | committed
  | failed
deriving DecidableEq

section Steps

variable (db : Db)

def get (id : ℕ) : List Call :=
  match db.tickets.row id with
  | none => []
  | some ticket =>
      if ticket.status = .open ∨ ticket.status = .analyzing then [.analyzing id] else []

def approve (id : ℕ) (amount : Option (Json JsNumber)) (note : Option String) : List Call :=
  match creditAmount amount, db.tickets.row id with
  | some amount, some ticket =>
      if ticket.status = .approved ∨ ticket.status = .credited then []
      else [.crediting id ticket amount note]
  | _, _ => []

def reject (id : ℕ) (note : Option String) : List Call :=
  match db.tickets.row id with
  | none => []
  | some ticket =>
      if ticket.status = .approved ∨ ticket.status = .credited ∨ ticket.status = .rejected then []
      else [.rejecting id note]

def analyzed (onchainDataJson : String) (ticket : DepositTicket) : DepositTicket :=
  { ticket with status := .analyzing, onchainDataJson := some onchainDataJson }

def credited (amount : ℚ) (note : Option String) (ticket : DepositTicket) : DepositTicket :=
  { ticket with
    status := .credited
    adminAction := some "credit_applied"
    adminNote := note.filter (· ≠ "")
    creditedAmount := some amount }

def rejected (note : Option String) (ticket : DepositTicket) : DepositTicket :=
  { ticket with
    status := .rejected
    adminAction := some "none"
    adminNote := note.filter (· ≠ "") }

/-- The transaction of an approval: with the ticket as it was read, but for its row. -/
def credit (id : ℕ) (ticket : DepositTicket) (amount : ℚ) (note : Option String) : Db where
  tickets := db.tickets.modify id (credited amount note)
  transactions :=
    { userId := ticket.userId, amount, txHash := ticket.txHash.filter (· ≠ "")
      fromAddress := ticket.walletAddress, ticket := id } :: db.transactions
  polBalance := Function.update db.polBalance ticket.userId (db.polBalance ticket.userId + amount)

/-- An update of a row that is missing fails. -/
def write : Call → Answer → Option Db
  | .analyzing id, .analyzed data => (db.tickets.row id).map fun _ =>
      { db with tickets := db.tickets.modify id (analyzed data) }
  | .crediting id ticket amount note, .committed => (db.tickets.row id).map fun _ =>
      credit db id ticket amount note
  | .rejecting id note, .committed => (db.tickets.row id).map fun _ =>
      { db with tickets := db.tickets.modify id (rejected note) }
  | _, .failed => some db
  | _, _ => none

end Steps

def service : Service Db Call Request Answer where
  start db
    | .adminGetTicket id => some (db, get db id)
    | .adminApproveTicket id amount note => some (db, approve db id amount note)
    | .adminRejectTicket id note => some (db, reject db id note)
  resume db c a := (write db c a).map fun db' => (db', none)

/-! ## Resolved tickets -/

def Resolved (ticket : DepositTicket) : Prop :=
  ticket.status = .credited ∨ ticket.status = .rejected

instance : DecidablePred Resolved := fun ticket =>
  inferInstanceAs (Decidable (ticket.status = .credited ∨ ticket.status = .rejected))

/-- How many credits were made for a ticket. -/
def credits (db : Db) (id : ℕ) : ℕ := (db.transactions.filter (·.ticket = id)).length

/-- At most one credit is made for a ticket, and one exactly if it is credited. -/
structure CreditedOnce (db : Db) : Prop where
  once : ∀ id, credits db id ≤ 1
  status_iff : ∀ id, 0 < credits db id ↔
    ∃ ticket, db.tickets.row id = some ticket ∧ ticket.status = .credited

/-- The tickets that were resolved have their status still. -/
def StaysResolved (db db' : Db) : Prop :=
  ∀ id ticket, db.tickets.row id = some ticket → Resolved ticket →
    ∃ ticket', db'.tickets.row id = some ticket' ∧ ticket'.status = ticket.status

theorem StaysResolved.refl (db : Db) : StaysResolved db db :=
  fun _ ticket h _ => ⟨ticket, h, rfl⟩

section Writes

variable {db : Db} {id : ℕ} {ticket : DepositTicket}

theorem credits_credit (t : DepositTicket) (amount : ℚ) (note : Option String) (i : ℕ) :
    credits (credit db id t amount note) i = credits db i + if id = i then 1 else 0 := by
  unfold credits credit
  by_cases h : id = i <;> simp [h]

/-- A write of a status keeps the statuses of the resolved tickets exactly if the ticket
is none of them, or has that status already. -/
theorem staysResolved_modify_iff (hrow : db.tickets.row id = some ticket) {db' : Db}
    {f : DepositTicket → DepositTicket} (htickets : db'.tickets = db.tickets.modify id f) :
    StaysResolved db db' ↔ (Resolved ticket → (f ticket).status = ticket.status) := by
  have hnew : db'.tickets.row id = some (f ticket) := by
    rw [htickets, Table.modify_row, if_pos rfl, hrow, Option.map_some]
  constructor
  · intro h hres
    obtain ⟨t', ht', heq⟩ := h id ticket hrow hres
    obtain rfl := Option.some.inj (hnew.symm.trans ht')
    exact heq
  · intro h i t ht hres
    by_cases hi : i = id
    · subst hi
      obtain rfl := Option.some.inj (hrow.symm.trans ht)
      exact ⟨_, hnew, h hres⟩
    · refine ⟨t, ?_, rfl⟩
      rw [htickets, Table.modify_row, if_neg hi, ht]

/-- A write of another status leaves the credits right exactly where it leaves the
credited tickets alone. -/
theorem CreditedOnce.of_staysResolved (h : CreditedOnce db) (hrow : db.tickets.row id = some ticket)
    {db' : Db} {f : DepositTicket → DepositTicket}
    (htickets : db'.tickets = db.tickets.modify id f) (hf : (f ticket).status ≠ .credited)
    (htransactions : db'.transactions = db.transactions) (hstays : StaysResolved db db') :
    CreditedOnce db' := by
  have hcredits : ∀ i, credits db' i = credits db i := by
    intro i
    unfold credits
    rw [htransactions]
  refine ⟨fun i => (hcredits i).symm ▸ h.once i, fun i => ?_⟩
  rw [hcredits, h.status_iff]
  constructor
  · rintro ⟨t, ht, hst⟩
    obtain ⟨t', ht', heq⟩ := hstays i t ht (Or.inl hst)
    exact ⟨t', ht', heq.trans hst⟩
  · rintro ⟨t, ht, hst⟩
    rw [htickets] at ht
    rcases Table.modify_row_eq_some.mp ht with ⟨rfl, t₀, ht₀, rfl⟩ | ⟨-, hold⟩
    · obtain rfl := Option.some.inj (hrow.symm.trans ht₀)
      exact absurd hst hf
    · exact ⟨t, hold, hst⟩

/-- An approval leaves everything right exactly if it finds its ticket unresolved. -/
theorem CreditedOnce.credit_iff (h : CreditedOnce db) (hrow : db.tickets.row id = some ticket)
    (t : DepositTicket) (amount : ℚ) (note : Option String) :
    (CreditedOnce (credit db id t amount note) ∧ StaysResolved db (credit db id t amount note))
      ↔ ¬Resolved ticket := by
  have hstays : StaysResolved db (credit db id t amount note)
      ↔ (Resolved ticket → TicketStatus.credited = ticket.status) :=
    staysResolved_modify_iff (f := credited amount note) hrow rfl
  have hcount (i : ℕ) :
      credits (credit db id t amount note) i = credits db i + if id = i then 1 else 0 :=
    credits_credit t amount note i
  constructor
  · rintro ⟨honce, hkeeps⟩ hres
    have hpos := (h.status_iff id).mpr ⟨ticket, hrow, (hstays.mp hkeeps hres).symm⟩
    have hle := honce.once id
    rw [hcount, if_pos rfl] at hle
    omega
  · intro hres
    have hzero : credits db id = 0 := by
      by_contra hne
      obtain ⟨t', ht', hst⟩ := (h.status_iff id).mp (Nat.pos_of_ne_zero hne)
      obtain rfl := Option.some.inj (hrow.symm.trans ht')
      exact hres (Or.inl hst)
    have hnew : (credit db id t amount note).tickets.row id
        = some (credited amount note ticket) := by
      show (db.tickets.modify id _).row id = _
      rw [Table.modify_row, if_pos rfl, hrow, Option.map_some]
    refine ⟨⟨fun i => ?_, fun i => ?_⟩, hstays.mpr fun hr => absurd hr hres⟩
    · have hle := h.once i
      rw [hcount]
      split
      case isTrue hi =>
        subst hi
        omega
      case isFalse => omega
    · by_cases hi : id = i
      · subst hi
        rw [hcount, if_pos rfl]
        exact iff_of_true (by omega) ⟨_, hnew, rfl⟩
      · have hold : (credit db id t amount note).tickets.row i = db.tickets.row i := by
          show (db.tickets.modify id _).row i = _
          rw [Table.modify_row, if_neg (Ne.symm hi)]
        rw [hcount, if_neg hi, hold]
        exact h.status_iff i

end Writes

/-! ## Requests that interleave -/

/-- What the write of a call must not find. -/
def FindsOpen (db : Db) : Call → Answer → Prop
  | .analyzing id, .analyzed _ => ∀ ticket ∈ db.tickets.row id, ¬Resolved ticket
  | .crediting id _ _ _, .committed => ∀ ticket ∈ db.tickets.row id, ¬Resolved ticket
  | .rejecting id _, .committed => ∀ ticket ∈ db.tickets.row id, ticket.status ≠ .credited
  | _, _ => True

instance (db : Db) : ∀ c a, Decidable (FindsOpen db c a)
  | .analyzing id, .analyzed _ =>
      inferInstanceAs (Decidable (∀ ticket ∈ db.tickets.row id, ¬Resolved ticket))
  | .crediting id _ _ _, .committed =>
      inferInstanceAs (Decidable (∀ ticket ∈ db.tickets.row id, ¬Resolved ticket))
  | .rejecting id _, .committed =>
      inferInstanceAs (Decidable (∀ ticket ∈ db.tickets.row id, ticket.status ≠ .credited))
  | .analyzing _, .committed | .analyzing _, .failed | .crediting _ _ _ _, .analyzed _
  | .crediting _ _ _ _, .failed | .rejecting _ _, .analyzed _ | .rejecting _ _, .failed =>
      inferInstanceAs (Decidable True)

/-- After the step, too, the credits are right, and what was resolved has its status. -/
def KeepsResolved (s : InFlight Db Call) (e : Event Request Answer) : Prop :=
  ∀ s', service.step s e = some s' → CreditedOnce s'.db ∧ StaysResolved s.db s'.db

theorem not_resolved_iff {ticket : DepositTicket} {status : TicketStatus}
    (h : status ≠ .credited ∧ status ≠ .rejected) :
    (Resolved ticket → status = ticket.status) ↔ ¬Resolved ticket := by
  constructor
  · intro hkeeps hres
    have heq := hkeeps hres
    rcases hres with hst | hst
    · exact h.1 (heq.trans hst)
    · exact h.2 (heq.trans hst)
  · exact fun hnot hres => absurd hres hnot

theorem rejected_iff {ticket : DepositTicket} :
    (Resolved ticket → TicketStatus.rejected = ticket.status) ↔ ticket.status ≠ .credited := by
  constructor
  · intro hkeeps hst
    have heq := hkeeps (Or.inl hst)
    rw [hst] at heq
    cases heq
  · rintro hne (hst | hst)
    · exact absurd hst hne
    · exact hst.symm

/-- A write of a status other than `credited`. -/
theorem CreditedOnce.modify_iff {db db' : Db} {id : ℕ} {ticket : DepositTicket}
    {f : DepositTicket → DepositTicket} (h : CreditedOnce db)
    (hrow : db.tickets.row id = some ticket)
    (htickets : db'.tickets = db.tickets.modify id f) (hf : (f ticket).status ≠ .credited)
    (htransactions : db'.transactions = db.transactions) :
    (CreditedOnce db' ∧ StaysResolved db db')
      ↔ (Resolved ticket → (f ticket).status = ticket.status) := by
  have hstays := staysResolved_modify_iff hrow htickets
  constructor
  · exact fun hboth => hstays.mp hboth.2
  · intro hkeeps
    have hres := hstays.mpr hkeeps
    exact ⟨h.of_staysResolved hrow htickets hf htransactions hres, hres⟩

theorem write_iff {db : Db} (h : CreditedOnce db) (c : Call) (a : Answer) :
    (∀ db', write db c a = some db' → CreditedOnce db' ∧ StaysResolved db db')
      ↔ FindsOpen db c a := by
  have hfailed : ∀ db', some db = some db' → CreditedOnce db' ∧ StaysResolved db db' := by
    intro db' heq
    obtain rfl := Option.some.inj heq
    exact ⟨h, StaysResolved.refl db⟩
  have hnone : ∀ db', (none : Option Db) = some db' → CreditedOnce db' ∧ StaysResolved db db' := by
    intro db' heq
    cases heq
  -- one write: what it does is known once the row is
  have hone : ∀ (db₁ : Db) (P : Prop), ((CreditedOnce db₁ ∧ StaysResolved db db₁) ↔ P) →
      ((∀ db', some db₁ = some db' → CreditedOnce db' ∧ StaysResolved db db') ↔ P) := by
    intro db₁ P hiff
    rw [← hiff]
    exact ⟨fun hall => hall db₁ rfl, fun hboth db' heq => Option.some.inj heq ▸ hboth⟩
  cases c with
  | analyzing id =>
      cases a with
      | analyzed data =>
          cases hrow : db.tickets.row id with
          | none => simp [write, FindsOpen, hrow]
          | some ticket =>
              simp only [write, FindsOpen, hrow, Option.map_some, Option.mem_some_iff, forall_eq']
              refine hone _ _ (Iff.trans (h.modify_iff (f := analyzed data) hrow ?_ ?_ ?_)
                (not_resolved_iff ⟨?_, ?_⟩)) <;> simp [analyzed]
      | committed => exact iff_of_true hnone trivial
      | failed => exact iff_of_true hfailed trivial
  | crediting id t amount note =>
      cases a with
      | analyzed data => exact iff_of_true hnone trivial
      | committed =>
          cases hrow : db.tickets.row id with
          | none => simp [write, FindsOpen, hrow]
          | some ticket =>
              simp only [write, FindsOpen, hrow, Option.map_some, Option.mem_some_iff, forall_eq']
              exact hone _ _ (h.credit_iff hrow t amount note)
      | failed => exact iff_of_true hfailed trivial
  | rejecting id note =>
      cases a with
      | analyzed data => exact iff_of_true hnone trivial
      | committed =>
          cases hrow : db.tickets.row id with
          | none => simp [write, FindsOpen, hrow]
          | some ticket =>
              simp only [write, FindsOpen, hrow, Option.map_some, Option.mem_some_iff, forall_eq']
              refine hone _ _ (Iff.trans (h.modify_iff (f := rejected note) hrow ?_ ?_ ?_)
                rejected_iff) <;> simp [rejected]
      | failed => exact iff_of_true hfailed trivial

theorem start_db {s s' : InFlight Db Call} {r : Request}
    (h : service.step s (.start r) = some s') : s'.db = s.db := by
  obtain ⟨db, cs, hstart, rfl⟩ := service.step_start h
  cases r <;> exact (Prod.mk.inj (Option.some.inj hstart)).1.symm

theorem keepsResolved_iff {s : InFlight Db Call} (h : CreditedOnce s.db)
    (e : Event Request Answer) : KeepsResolved s e ↔ Service.Guard FindsOpen s e := by
  cases e with
  | start r =>
      refine iff_of_true (fun s' hstep => ?_) trivial
      rw [start_db hstep]
      exact ⟨h, StaysResolved.refl s.db⟩
  | resume i a =>
      constructor
      · intro hkeeps c hc
        refine (write_iff h c a).mp fun db' hwrite => ?_
        have hres : service.resume s.db c a = some (db', none) := by simp [service, hwrite]
        exact hkeeps _ (service.step_of_resume hc hres)
      · intro hguard s' hstep
        obtain ⟨c, db', next, hc, hres, rfl⟩ := service.step_resume hstep
        obtain ⟨db₁, hwrite, heq⟩ := Option.map_eq_some_iff.mp hres
        obtain rfl := (Prod.mk.inj heq).1
        exact (write_iff h c a).mpr (hguard c hc) db₁ hwrite

/-- Along any run of views, approvals and rejections, the tickets are credited once and
stay resolved exactly if no write of a view or an approval finds its ticket resolved, and
no write of a rejection finds it credited. -/
theorem tickets_stay_resolved_iff {s : InFlight Db Call} (h : CreditedOnce s.db)
    (es : List (Event Request Answer)) :
    service.sys.Meets KeepsResolved s es
      ↔ service.sys.Meets (Service.Guard FindsOpen) s es :=
  service.sys.meets_iff_of_kept (I := fun s => CreditedOnce s.db)
    (fun _ _ s' _ hkeeps hstep => (hkeeps s' hstep).1) (fun _ e h => keepsResolved_iff h e) h

/-- A ticket of user 7, with nothing credited. -/
def opened : InFlight Db Call :=
  ⟨⟨Table.empty.insert ⟨7, "0xfeed", none, .open, none, none, none, none⟩, [], fun _ => 0⟩,
    Table.empty⟩

theorem creditedOnce_opened : CreditedOnce opened.db where
  once _ := Nat.zero_le _
  status_iff id := by
    refine iff_of_false (Nat.lt_irrefl 0) ?_
    rintro ⟨ticket, hrow, hst⟩
    rcases Table.insert_row_eq_some.mp hrow with ⟨-, rfl⟩ | hold
    · cases hst
    · cases hold

/-- A view, then an approval, then a rejection that comes too late. -/
theorem tickets_stay_resolved_iff_approval :
    service.sys.Meets KeepsResolved opened
      [.start (.adminGetTicket 1), .resume 1 (.analyzed "{}"),
        .start (.adminApproveTicket 1 (some (.string "2.5")) none), .resume 2 .committed,
        .start (.adminRejectTicket 1 none)] :=
  (tickets_stay_resolved_iff creditedOnce_opened _).mpr (by decide +kernel)

/-- Two approvals that have both read the open ticket, with a view that reopens it
between their writes: two credits, and both from its own status. -/
theorem credited_twice :
    ∃ t, service.sys.run opened
        [.start (.adminGetTicket 1),
          .start (.adminApproveTicket 1 (some (.string "2.5")) none),
          .start (.adminApproveTicket 1 (some (.string "2.5")) none),
          .resume 2 .committed, .resume 1 (.analyzed "{}"), .resume 3 .committed] = some t
      ∧ credits t.db 1 = 2 := by
  have hrun : (service.sys.run opened
      [.start (.adminGetTicket 1),
        .start (.adminApproveTicket 1 (some (.string "2.5")) none),
        .start (.adminApproveTicket 1 (some (.string "2.5")) none),
        .resume 2 .committed, .resume 1 (.analyzed "{}"), .resume 3 .committed]).any
      (fun t => credits t.db 1 = 2) = true := by
    decide +kernel
  obtain ⟨t, ht, hcount⟩ := (Option.any_eq_true ..).mp hrun
  exact ⟨t, ht, of_decide_eq_true hcount⟩

end BlockMiner.DepositTickets
