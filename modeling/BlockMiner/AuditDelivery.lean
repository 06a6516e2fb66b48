import BlockMiner.Audit
import BlockMiner.TransactionRules

/-!
# Which outbox rows are delivered

A batch only takes rows in state `PENDING`. The schema admits the three event
statuses, none of which is `PENDING`, so an enqueued event is never taken; and
a row that a failure has left in `FAILED` is not taken again. Both follow from
`skipped_run`: a row that is not `PENDING` and that no call holds stays as it
is, and no batch selects it.
-/

namespace BlockMiner.Audit

variable (sha256 : Text → Text)

/-! ## What is claimed of a row -/

/-- A row that is still in the queue, copied and sent, or given up after five
failures. -/
def Tracked (db : Db) (id : ℕ) : Prop :=
  ∃ row, db.outbox.row id = some row ∧
    (row.status = .PENDING
      ∨ row.status = .SENT ∧ (∃ i event, db.events.row i = some event ∧ event.data = row.data)
      ∨ row.status = .DLQ ∧ 5 ≤ row.retryCount)

/-! ## Fetching -/

theorem mem_fetchPending {db : Db} {limit now : ℕ} {e : Entry}
    (h : e ∈ fetchPendingAuditOutbox db limit now) :
    db.outbox.row e.1 = some e.2 ∧ e.2.selectable now = true :=
  Table.mem_findMany.mp ((List.mem_insertionSort _).mp (List.mem_of_mem_take h))

/-- A row in another state than `PENDING` is in no batch. -/
theorem not_fetched {db : Db} {id : ℕ} {row : OutboxRow} (hrow : db.outbox.row id = some row)
    (hstatus : row.status ≠ .PENDING) {limit now : ℕ} {e : Entry}
    (h : e ∈ fetchPendingAuditOutbox db limit now) : e.1 ≠ id := by
  rintro rfl
  obtain ⟨hrow', hsel⟩ := mem_fetchPending h
  obtain rfl := Option.some.inj (hrow.symm.trans hrow')
  simp [OutboxRow.selectable, hstatus] at hsel

/-! ## Calls and the rows they hold -/

/-- No entry of the call fails `P`. -/
def Holding (P : ℕ → Prop) (tx : Tx Write Point) : Prop :=
  Owes sha256 tx ∧ ∀ e ∈ tx.point.entries, P e.1

theorem holding_start {P : ℕ → Prop} {r : Request} {p : Point} (h : start r = some p) :
    Holding sha256 P ⟨p, []⟩ := by
  refine ⟨owes_start sha256 h, ?_⟩
  cases r with
  | enqueueAuditEvent record =>
      obtain ⟨record', -, rfl⟩ := Option.map_eq_some_iff.mp h
      intro e he
      cases he
  | processAuditOutboxBatch limit =>
      obtain rfl := Option.some.inj h
      intro e he
      cases he

/-- A call only holds what it held before, and what it fetches. -/
theorem Effect.holding {P : ℕ → Prop} {db db' : Db} {tx tx' : Tx Write Point} {a : Answer}
    {next : Option (Tx Write Point)} (h : Effect sha256 db tx a db' next) (htx' : next = some tx')
    (hold : ∀ e ∈ tx.point.entries, P e.1)
    (hfetch : ∀ limit now, ∀ e ∈ fetchPendingAuditOutbox db limit now, P e.1) :
    Holding sha256 P tx' := by
  refine ⟨h.owes sha256 htx', ?_⟩
  cases h with
  | quiet tx'' hne he ho =>
      obtain rfl := Option.some.inj htx'
      rw [he]
      exact hold
  | ended => cases htx'
  | enqueued => cases htx'
  | fetched limit now =>
      rw [(owes_nextEntry sha256 htx').1]
      exact hfetch limit now
  | reserved outbox rest previous he =>
      obtain rfl := Option.some.inj htx'
      rw [he] at hold
      exact hold
  | sent outbox rest previous id hp ha =>
      rw [(owes_nextEntry sha256 htx').1]
      rw [hp] at hold
      exact fun e he => hold e (List.mem_cons_of_mem _ he)
  | failed outbox rest now hp =>
      rw [(owes_nextEntry sha256 htx').1]
      rw [hp] at hold
      exact fun e he => hold e (List.mem_cons_of_mem _ he)

theorem setOutbox_row_of_ne {db : Db} {i id : ℕ} (hne : i ≠ id) (status : Status)
    (retryCount : ℕ) (nextRetryAt : Option ℕ) :
    (setOutbox i status retryCount nextRetryAt db).outbox.row id = db.outbox.row id :=
  (Table.modify_row ..).trans (if_neg hne.symm)

/-- A step leaves a row that its call does not hold as it is. -/
theorem Effect.row_kept {db db' : Db} {tx : Tx Write Point} {a : Answer}
    {next : Option (Tx Write Point)} {id : ℕ} {row : OutboxRow}
    (h : Effect sha256 db tx a db' next)
    (hold : ∀ e ∈ tx.point.entries, e.1 ≠ id) (hrow : db.outbox.row id = some row) :
    db'.outbox.row id = some row := by
  cases h with
  | quiet | ended | fetched | reserved => exact hrow
  | enqueued record now hp => exact Table.insert_row_of_some hrow _
  | sent outbox rest previous i hp ha =>
      rw [hp] at hold
      exact (setOutbox_row_of_ne (hold outbox (List.mem_cons_self ..)) _ _ _).trans hrow
  | failed outbox rest now hp =>
      rw [hp] at hold
      exact (setOutbox_row_of_ne (hold outbox (List.mem_cons_self ..)) _ _ _).trans hrow

theorem Effect.nextId_le {db db' : Db} {tx : Tx Write Point} {a : Answer}
    {next : Option (Tx Write Point)} (h : Effect sha256 db tx a db' next) :
    db.outbox.nextId ≤ db'.outbox.nextId := by
  cases h with
  | quiet | ended | fetched | reserved | sent | failed => exact le_rfl
  | enqueued record now hp => exact Nat.le_succ _

/-! ## Runs -/

/-- Row `id` is `row`, and no call holds it. -/
def Skipped (id : ℕ) (row : OutboxRow) (s : InFlight Db (Tx Write Point)) : Prop :=
  (transactions sha256).Holds (fun db => db.outbox.row id = some row)
    (fun _ => Holding sha256 (· ≠ id)) s

/-- **A skipped row stays skipped.** A row that is not `PENDING` and that no
call holds is unchanged in every later state. -/
theorem skipped_run {s t : InFlight Db (Tx Write Point)} {es : List (Event Request Answer)}
    {id : ℕ} {row : OutboxRow} (hstatus : row.status ≠ .PENDING) (hs : Skipped sha256 id row s)
    (hrun : (transactions sha256).sys.run s es = some t) : Skipped sha256 id row t := by
  refine (transactions sha256).kept_run ?_ ?_ ?_ hs hrun
  · exact fun _ _ _ _ hr => holding_start sha256 hr
  · intro db tx a next hrow hold hstep
    have heffect := step_effect sha256 hold.1 hstep
    refine ⟨heffect.row_kept sha256 hold.2 hrow, fun tx' htx' => ?_⟩
    exact heffect.holding sha256 htx' hold.2 fun _ _ _ he => not_fetched hrow hstatus he
  · exact fun _ _ _ _ _ _ _ _ hold _ => hold

/-- The calls hold rows that are in the table. -/
theorem held_run {db : Db} {t : InFlight Db (Tx Write Point)} {es : List (Event Request Answer)}
    (hrun : (transactions sha256).sys.run (Transactions.idle db) es = some t) :
    (transactions sha256).Holds (fun _ => True)
      (fun db => Holding sha256 (· < db.outbox.nextId)) t := by
  refine (transactions sha256).kept_run ?_ ?_ ?_ ((transactions sha256).holds_idle trivial) hrun
  · exact fun _ _ _ _ hr => holding_start sha256 hr
  · intro db tx a next _ hold hstep
    have heffect := step_effect sha256 hold.1 hstep
    have hle := heffect.nextId_le
    refine ⟨trivial, fun tx' htx' => heffect.holding sha256 htx' ?_ ?_⟩
    · exact fun e he => (hold.2 e he).trans_le hle
    · exact fun _ _ e he => (Table.row_lt (mem_fetchPending he).1).trans_le hle
  · intro db tx a next tx' _ htx hstep hold _
    have hle := (step_effect sha256 htx.1 hstep).nextId_le
    exact ⟨hold.1, fun e he => (hold.2 e he).trans_le hle⟩

/-! ## Enqueued events -/

/-- The schema admits event statuses only. -/
theorem status_of_valid {record record' : EventRecord}
    (h : auditEventInputSchema record = some record') : record'.status ∈ auditEventStatuses := by
  unfold auditEventInputSchema at h
  split at h
  case isTrue hvalid =>
    obtain rfl := Option.some.inj h
    simp only [EventRecord.valid, Bool.and_eq_true, decide_eq_true_eq] at hvalid
    tauto
  case isFalse => cases h

/-- What a call is about to enqueue has passed the schema. -/
def Checked (tx : Tx Write Point) : Prop :=
  Owes sha256 tx ∧ ∀ record, tx.point = .createOutbox record → record.status ∈ auditEventStatuses

theorem checked_run {db : Db} {t : InFlight Db (Tx Write Point)} {es : List (Event Request Answer)}
    (hrun : (transactions sha256).sys.run (Transactions.idle db) es = some t) :
    (transactions sha256).Holds (fun _ => True) (fun _ => Checked sha256) t := by
  have hentries : ∀ {tx : Tx Write Point}, Owes sha256 tx → tx.point.entries ≠ [] →
      Checked sha256 tx := by
    intro tx ho hne
    refine ⟨ho, fun record hp => ?_⟩
    rw [hp] at hne
    exact absurd rfl hne
  have hnext : ∀ {rest : List Entry} {tx : Tx Write Point},
      (nextEntry rest).map (⟨·, []⟩) = some tx → Checked sha256 tx := by
    intro rest tx h
    obtain ⟨he, ho⟩ := owes_nextEntry sha256 h
    refine hentries ho ?_
    rw [he]
    rintro rfl
    cases h
  refine (transactions sha256).kept_run ?_ ?_ ?_ ((transactions sha256).holds_idle trivial) hrun
  · intro db r p _ hr
    refine ⟨owes_start sha256 hr, ?_⟩
    cases r with
    | enqueueAuditEvent record =>
        obtain ⟨record', hvalid, rfl⟩ := Option.map_eq_some_iff.mp hr
        rintro _ ⟨⟩
        exact status_of_valid hvalid
    | processAuditOutboxBatch limit =>
        obtain rfl := Option.some.inj hr
        intro record hp
        cases hp
  · intro db tx a next _ hchecked hstep
    refine ⟨trivial, fun tx' htx' => ?_⟩
    have heffect := step_effect sha256 hchecked.1 hstep
    have htx'' : tx.after next = some tx' := htx'
    generalize tx.after next = next' at heffect htx''
    generalize (transactions sha256).dbAfter db tx next = db' at heffect
    cases heffect with
    | quiet tx₀ hne he ho =>
        obtain rfl := Option.some.inj htx''
        exact hentries ho (he ▸ hne)
    | ended => cases htx''
    | enqueued => cases htx''
    | reserved =>
        obtain rfl := Option.some.inj htx''
        exact hentries rfl (List.cons_ne_nil _ _)
    | fetched | sent | failed => exact hnext htx''
  · exact fun _ _ _ _ _ _ _ _ hchecked _ => hchecked

/-- The row that an event adds to the outbox. -/
def enqueued (s : InFlight Db (Tx Write Point)) : Event Request Answer → Option OutboxRow
  | .resume call (.ok now) =>
      match s.calls.row call with
      | some ⟨.createOutbox record, _⟩ => some (record.row now)
      | _ => none
  | _ => none

theorem enqueued_eq_some {s : InFlight Db (Tx Write Point)} {e : Event Request Answer}
    {row : OutboxRow} (h : enqueued s e = some row) :
    ∃ call now record ws, e = .resume call (.ok now)
      ∧ s.calls.row call = some ⟨.createOutbox record, ws⟩ ∧ row = record.row now := by
  unfold enqueued at h
  split at h
  case h_1 call now =>
    split at h
    case h_1 record ws hcall =>
      exact ⟨call, now, record, ws, rfl, hcall, (Option.some.inj h).symm⟩
    case h_2 => cases h
  case h_2 => cases h

/-- **No enqueued event is delivered.** The row that a step of a run adds to
the outbox is in every later state as it was added: no batch selects it, it is
not copied and sent, and it is not given up. -/
theorem enqueued_never_delivered {db : Db} {es es' : List (Event Request Answer)}
    {s s' t : InFlight Db (Tx Write Point)} {e : Event Request Answer} {row : OutboxRow}
    (hrun : (transactions sha256).sys.run (Transactions.idle db) es = some s)
    (hadded : enqueued s e = some row) (hstep : (transactions sha256).stepTx s e = some s')
    (hrun' : (transactions sha256).sys.run s' es' = some t) :
    t.db.outbox.row s.db.outbox.nextId = some row ∧ ¬Tracked t.db s.db.outbox.nextId
      ∧ ∀ limit now, ∀ f ∈ fetchPendingAuditOutbox t.db limit now,
          f.1 ≠ s.db.outbox.nextId := by
  obtain ⟨call, now, record, ws, rfl, hcall, rfl⟩ := enqueued_eq_some hadded
  have hstatus : record.status ∈ auditEventStatuses :=
    ((checked_run sha256 hrun).calls call _ hcall).2 record rfl
  have hqueue : record.status ≠ .PENDING ∧ record.status ≠ .SENT ∧ record.status ≠ .DLQ := by
    refine ⟨?_, ?_, ?_⟩ <;> rintro heq <;> rw [heq] at hstatus <;> revert hstatus <;> decide
  have hheld := held_run sha256 hrun
  obtain ⟨tx, next, htx, -, hnext, rfl⟩ := (transactions sha256).step_resume hstep
  obtain rfl := Option.some.inj (hcall.symm.trans htx)
  obtain rfl := Option.some.inj hnext
  have hs : Skipped sha256 s.db.outbox.nextId (record.row now)
      ⟨createAuditEventOutbox record now s.db, s.calls.delete call⟩ := by
    refine ⟨Table.insert_row_self .., fun i tx hrow => ?_,
      (transactions sha256).exclusive_step hheld.locks hstep⟩
    change (Service.advance s.calls call none).row i = some tx at hrow
    rcases Service.advance_row hrow with ⟨-, ⟨⟩⟩ | ⟨-, hrow⟩
    exact ⟨(hheld.calls i tx hrow).1, fun e he => ((hheld.calls i tx hrow).2 e he).ne⟩
  have ht := skipped_run sha256 hqueue.1 hs hrun'
  refine ⟨ht.db, ?_, fun limit now f hf => not_fetched ht.db hqueue.1 hf⟩
  rintro ⟨row, hrow, htracked⟩
  obtain rfl := Option.some.inj (ht.db.symm.trans hrow)
  rcases htracked with hpending | ⟨hsent, -⟩ | ⟨hdlq, -⟩
  · exact hqueue.1 hpending
  · exact hqueue.2.1 hsent
  · exact hqueue.2.2 hdlq

/-- A registration as it is enqueued. -/
def registered : EventRecord where
  data :=
    { correlationId := "018f0000-0000-7000-8000-000000000001", userId := some 1,
      anonymousId := none, eventType := "AUTH_REGISTER", severity := none,
      resultCode := "USER_REGISTERED", payload := [], timestamp := 1700000000000,
      ipHash := "12ca17b49af22894", userAgent := none, txHash := none, errorContext := none,
      signature := "deadbeef", schemaVersion := AUDIT_SCHEMA_VERSION, source := "api" }
  status := .SUCCESS

def noRows : Db := ⟨.empty, .empty⟩

/-- The registration waits for its insert. -/
def registering : InFlight Db (Tx Write Point) :=
  ⟨noRows, Table.empty.insert ⟨.createOutbox registered, []⟩⟩

def waiting : InFlight Db (Tx Write Point) :=
  ⟨createAuditEventOutbox registered 0 noRows, registering.calls.delete 1⟩

/-- After the insert a batch of up to 50 rows is processed. -/
def processed : List (Event Request Answer) :=
  [.start (.processAuditOutboxBatch 50), .resume 2 (.ok 10000)]

theorem registered_accepted : auditEventInputSchema registered = some registered := by
  have hvalid : registered.valid = true := by decide +kernel
  rw [auditEventInputSchema, if_pos hvalid]
  rfl

theorem run_registering :
    (transactions id).sys.run (Transactions.idle noRows) [.start (.enqueueAuditEvent registered)]
      = some registering := by
  show some (InFlight.mk noRows (((auditEventInputSchema registered).map _).toList.foldl _ _)) = _
  rw [registered_accepted]
  rfl

theorem step_registering :
    (transactions id).stepTx registering (.resume 1 (.ok 0)) = some waiting := rfl

theorem run_waiting : ((transactions id).sys.run waiting processed).isSome := rfl

theorem registered_never_delivered :
    ∃ t, (transactions id).sys.run waiting processed = some t ∧ ¬Tracked t.db 1 :=
  ⟨_, (Option.some_get run_waiting).symm,
    (enqueued_never_delivered id run_registering rfl step_registering
      (Option.some_get run_waiting).symm).2.1⟩

/-- The batch has skipped the registration. -/
theorem registered_skipped :
    ¬∀ (db : Db) (es es' : List (Event Request Answer)) (s s' t : InFlight Db (Tx Write Point))
        (e : Event Request Answer) (row : OutboxRow),
      (transactions id).sys.run (Transactions.idle db) es = some s → enqueued s e = some row →
      (transactions id).stepTx s e = some s' → (transactions id).sys.run s' es' = some t →
      Tracked t.db s.db.outbox.nextId := by
  intro h
  have hskipped : ∃ t, (transactions id).sys.run waiting processed = some t
      ∧ ∃ row, t.db.outbox.row 1 = some row ∧ row.status = .SUCCESS :=
    ⟨_, rfl, _, rfl, rfl⟩
  obtain ⟨t, ht, row, hrow, hstatus⟩ := hskipped
  obtain ⟨row', hrow', htracked⟩ :=
    h noRows _ processed registering _ t (.resume 1 (.ok 0)) _ run_registering rfl step_registering
      ht
  obtain rfl := Option.some.inj (hrow.symm.trans hrow')
  rw [hstatus] at htracked
  simp at htracked

end BlockMiner.Audit
