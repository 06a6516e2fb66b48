import BlockMiner.Audit
import BlockMiner.HashChain

/-!
# The chain of audit events

A verifier goes through `audit_events` in id order and recomputes every chain
hash from the one before it. A copy commits the hash it made from the last
row it read, which is the right one if no other copy has committed since and
its own id is the highest (`Unforked`); then the chain stays verifiable, in
any interleaving.

What a chain hash covers is what `computeChainHash` hands to `stableStringify`,
and of a `Date` that prints nothing: a change of a stored event is found out if
and only if it changes a covered field other than the timestamp
(`changed_verifiable`).
-/

namespace BlockMiner.Audit

variable (sha256 : Text → Text)

/-! ## Verifying -/

/-- The chain hash of an event fits it and its predecessor's. -/
def Linked (previous : Option Text) (event : AuditEvent) : Prop :=
  event.chainHash = some (chainHash sha256 previous event.data)

/-- A verifier that recomputes the chain accepts it. -/
def Verifiable (db : Db) : Prop :=
  HashChain.Chained (Linked sha256) AuditEvent.chainHash none (db.events.rows.map Prod.snd)

instance (previous : Option Text) (event : AuditEvent) :
    Decidable (Linked sha256 previous event) :=
  inferInstanceAs (Decidable (_ = _))

instance (db : Db) : Decidable (Verifiable sha256 db) :=
  inferInstanceAs (Decidable (HashChain.Chained ..))

theorem lastHash_eq (db : Db) :
    db.lastHash = HashChain.lastHash AuditEvent.chainHash none (db.events.rows.map Prod.snd) := by
  rw [Db.lastHash, HashChain.lastHash, List.getLast?_map]
  cases db.events.rows.getLast? <;> rfl

/-! ## What a chain hash covers -/

/-- The fields of `hashed`, by their keys. -/
def hashedFields : List (String × (EventData → JsonText)) :=
  [("correlationId", fun e => .string e.correlationId),
    ("timestamp", fun e => dateValue e.timestamp),
    ("eventType", fun e => .string e.eventType),
    ("userId", fun e => optional (fun n => .number (numberText n)) e.userId),
    ("anonymousId", fun e => optional .string e.anonymousId),
    ("payload", fun e => .object e.payload),
    ("resultCode", fun e => .string e.resultCode),
    ("ipHash", fun e => .string e.ipHash),
    ("txHash", fun e => optional .string e.txHash),
    ("schemaVersion", fun e => .string e.schemaVersion)]

/-- The same in every covered field but the timestamp; of a payload the order
of the keys does not count. -/
structure SameCovered (d d' : EventData) : Prop where
  correlationId : d.correlationId = d'.correlationId
  eventType : d.eventType = d'.eventType
  userId : d.userId = d'.userId
  anonymousId : d.anonymousId = d'.anonymousId
  payload : canonical (.object d.payload) = canonical (.object d'.payload)
  resultCode : d.resultCode = d'.resultCode
  ipHash : d.ipHash = d'.ipHash
  txHash : d.txHash = d'.txHash
  schemaVersion : d.schemaVersion = d'.schemaVersion

theorem numberText_inj {m n : ℕ} (h : numberText m = numberText n) : m = n := by
  have hdigits : Nat.toDigits 10 m = Nat.toDigits 10 n := congrArg NumberText.text h
  rw [← Nat.ofDigitChars_ten_toDigits (n := m), hdigits, Nat.ofDigitChars_ten_toDigits]

theorem canonical_userId {x y : Option ℕ} :
    canonical (optional (fun n => .number (numberText n)) x)
      = canonical (optional (fun n => .number (numberText n)) y) ↔ x = y := by
  constructor
  · intro h
    cases x <;> cases y <;> simp only [optional, Option.elim, canonical] at h
    · rfl
    · cases h
    · cases h
    · exact congrArg some (numberText_inj (Json.number.inj h))
  · rintro rfl
    rfl

theorem canonical_text {x y : Option String} :
    canonical (optional .string x) = canonical (optional .string y) ↔ x = y := by
  constructor
  · intro h
    cases x <;> cases y <;> simp only [optional, Option.elim, canonical] at h
    · rfl
    · cases h
    · cases h
    · exact congrArg some (Json.string.inj h)
  · rintro rfl
    rfl

/-- The text that is hashed tells the covered fields but the timestamp. -/
theorem hashed_inj {d d' : EventData} :
    stableStringify d.hashed = stableStringify d'.hashed ↔ SameCovered d d' := by
  have hcanonical : ∀ d : EventData, canonical d.hashed =
      .object (sortKeys (hashedFields.map (Prod.map id fun get => canonical (get d)))) := by
    intro d
    rw [EventData.hashed, canonical, canonicalFields_eq]
    rfl
  rw [stableStringify_inj, hcanonical, hcanonical, Json.object.injEq, sortKeys_congr]
  simp only [hashedFields, List.forall_mem_cons, List.not_mem_nil, false_imp_iff, implies_true,
    and_true, canonical_userId, canonical_text, dateValue, true_and]
  constructor
  · rintro ⟨h₁, h₂, h₃, h₄, h₅, h₆, h₇, h₈, h₉⟩
    exact ⟨Json.string.inj h₁, Json.string.inj h₂, h₃, h₄, h₅, Json.string.inj h₆,
      Json.string.inj h₇, h₈, Json.string.inj h₉⟩
  · intro h
    rw [h.correlationId, h.eventType, h.resultCode, h.ipHash, h.schemaVersion]
    exact ⟨rfl, rfl, h.userId, h.anonymousId, h.payload, rfl, rfl, h.txHash, rfl⟩

/-! ## Changing a stored event -/

/-- The stored event `i` with other data, and the chain hash it had. -/
def changed (i : ℕ) (data : EventData) (db : Db) : Db :=
  { db with events := db.events.modify i fun event => { event with data } }

/-- A changed event passes the verifier if and only if it has the same covered
fields, but for the timestamp. -/
theorem changed_verifiable (hsha : Function.Injective sha256) {db : Db}
    (hdb : Verifiable sha256 db) {i : ℕ} {event : AuditEvent}
    (h : db.events.row i = some event) (data : EventData) :
    Verifiable sha256 (changed i data db) ↔ SameCovered event.data data := by
  obtain ⟨before, after, hrows, hmodify⟩ := Table.rows_split h
  have hchanged : (changed i data db).events.rows = before ++ (i, { event with data }) :: after :=
    hmodify _
  rw [Verifiable, hrows, List.map_append, List.map_cons] at hdb
  have hlink := (HashChain.chained_append.mp hdb).2.1
  rw [Verifiable, hchanged, List.map_append, List.map_cons,
    HashChain.chained_replace (d := { event with data }) hdb rfl, ← hashed_inj]
  generalize HashChain.lastHash AuditEvent.chainHash none (before.map Prod.snd) = previous
    at hlink ⊢
  unfold Linked at hlink ⊢
  rw [hlink, Option.some_inj]
  constructor
  · intro heq
    have htext := List.append_cancel_left (hsha heq)
    exact hsha (List.cons.inj htext).2
  · intro heq
    rw [chainHash, chainHash, heq]

/-! ## Runs -/

/-- The commit of a copy finds the chain as its transaction read it, and no
event with a higher id. -/
def Unforked (db : Db) (tx : Tx Write Point) (a : Answer) : Prop :=
  match tx.point with
  | .commitSent _ _ previous id =>
      a ≠ .error → db.lastHash = previous ∧ ∀ r ∈ db.events.rows, r.1 < id
  | _ => True

instance (db : Db) (tx : Tx Write Point) (a : Answer) : Decidable (Unforked db tx a) := by
  unfold Unforked
  split <;> infer_instance

/-- The next link of the chain. -/
theorem verifiable_place {db : Db} (hdb : Verifiable sha256 db) {id : ℕ} {event : AuditEvent}
    (hlink : Linked sha256 db.lastHash event) (habove : ∀ r ∈ db.events.rows, r.1 < id) :
    Verifiable sha256 { db with events := db.events.place id event } := by
  by_cases hid : id < db.events.nextId
  · have hrows := Table.rows_place hid (fun i a h => habove (i, a) (Table.mem_rows.mpr h)) event
    rw [Verifiable, hrows, List.map_append]
    rw [lastHash_eq] at hlink
    exact HashChain.chained_append_singleton hdb hlink
  · -- an id the sequence has not handed out
    have hplace : db.events.place id event = db.events := by
      unfold Table.place
      congr
      funext i
      rw [if_neg]
      omega
    rw [hplace]
    exact hdb

theorem Effect.verifiable {db db' : Db} {tx : Tx Write Point} {a : Answer}
    {next : Option (Tx Write Point)} (h : Effect sha256 db tx a db' next)
    (hC : Unforked db tx a) (hdb : Verifiable sha256 db) : Verifiable sha256 db' := by
  cases h with
  | quiet | ended | enqueued | fetched | failed => exact hdb
  | reserved outbox rest previous he =>
      rw [Verifiable, Table.rows_reserve]
      exact hdb
  | sent outbox rest previous id hp ha =>
      unfold Unforked at hC
      rw [hp] at hC
      obtain ⟨hlast, habove⟩ := hC ha
      refine verifiable_place sha256 hdb ?_ habove
      rw [hlast]
      rfl

/-- **One verifiable chain.** If every copy commits to the chain its
transaction has read, the table is verifiable in every state, and the
verifier finds out every change of a stored event but those of its timestamp
and of what no chain hash covers. -/
theorem chain_verifiable (hsha : Function.Injective sha256) {db : Db}
    (hdb : Verifiable sha256 db) {es : List (Event Request Answer)}
    {t : InFlight Db (Tx Write Point)}
    (hrun : (transactions sha256).sys.run (Transactions.idle db) es = some t)
    (hC : (transactions sha256).sys.Meets (Transactions.Guard Unforked) (Transactions.idle db) es) :
    Verifiable sha256 t.db ∧ ∀ i event, t.db.events.row i = some event → ∀ data,
      (Verifiable sha256 (changed i data t.db) ↔ SameCovered event.data data) := by
  have ht : (transactions sha256).Holds (Verifiable sha256) (fun _ => Owes sha256) t := by
    refine (transactions sha256).invariant ?_ ?_ ?_ ((transactions sha256).holds_idle hdb) hC hrun
    · exact fun _ _ _ _ hr => owes_start sha256 hr
    · intro db tx a next hdb ho hC hstep
      have heffect := step_effect sha256 ho hstep
      exact ⟨heffect.verifiable sha256 hC hdb, fun tx' htx' => heffect.owes sha256 htx'⟩
    · exact fun _ _ _ _ _ _ _ _ _ ho _ => ho
  exact ⟨ht.db, fun i event hrow data => changed_verifiable sha256 hsha ht.db hrow data⟩

/-! ## One batch, and two -/

def eventData (correlationId : String) : EventData where
  correlationId := correlationId
  userId := some 1
  anonymousId := none
  eventType := "AUTH_LOGIN_SUCCESS"
  severity := none
  resultCode := "OK"
  payload := [("b", .null), ("a", .null)]
  timestamp := 1700000000000
  ipHash := "12ca17b49af22894"
  userAgent := none
  txHash := none
  errorContext := none
  signature := "deadbeef"
  schemaVersion := AUDIT_SCHEMA_VERSION
  source := "api"

def pendingRow (correlationId : String) (createdAt : ℕ) (nextRetryAt : Option ℕ) : OutboxRow :=
  { data := eventData correlationId, status := .PENDING, retryCount := 0, nextRetryAt, createdAt }

/-- Two rows of the queue, of which the older one has to wait until time 10. -/
def twoRows : Db where
  outbox := (Table.empty.insert (pendingRow "c1" 1 none)).insert (pendingRow "c2" 0 (some 10))
  events := .empty

theorem twoRows_verifiable : Verifiable id twoRows := trivial

/-- One batch copies both rows. -/
def copiedInTurn : List (Event Request Answer) :=
  .start (.processAuditOutboxBatch 50) :: List.replicate 11 (.resume 1 (.ok 10))

theorem chain_verifiable_copied :
    ∃ t, (transactions id).sys.run (Transactions.idle twoRows) copiedInTurn = some t
      ∧ Verifiable id t.db := by
  have hrun : ((transactions id).sys.run (Transactions.idle twoRows) copiedInTurn).isSome := by
    decide +kernel
  exact ⟨_, (Option.some_get hrun).symm,
    (chain_verifiable id Function.injective_id twoRows_verifiable (Option.some_get hrun).symm
      (by decide +kernel)).1⟩

/-- A batch at time 0 takes the first row and reads that there is no event
yet; one at time 10 copies the older row, and then the first batch goes on. -/
def copiedBeside : List (Event Request Answer) :=
  [.start (.processAuditOutboxBatch 50), .resume 1 (.ok 0), .resume 1 (.ok 0),
    .start (.processAuditOutboxBatch 50), .resume 2 (.ok 10), .resume 2 (.ok 10),
    .resume 2 (.ok 10), .resume 2 (.ok 10), .resume 2 (.ok 10), .resume 2 (.ok 10),
    .resume 1 (.ok 10), .resume 1 (.ok 10), .resume 1 (.ok 10), .resume 1 (.ok 10)]

theorem chain_forked :
    ¬∀ (db : Db) (es : List (Event Request Answer)) (t : InFlight Db (Tx Write Point)),
        Verifiable id db → (transactions id).sys.run (Transactions.idle db) es = some t →
        Verifiable id t.db := by
  intro h
  have hforked : ∃ t ∈ (transactions id).sys.run (Transactions.idle twoRows) copiedBeside,
      ¬Verifiable id t.db := by
    decide +kernel
  obtain ⟨t, hrun, hnot⟩ := hforked
  exact hnot (h twoRows copiedBeside t twoRows_verifiable hrun)

end BlockMiner.Audit
