import BlockMiner.AuditRecords
import BlockMiner.JsonSame

/-!
# Which stored records their signature fits

A verifier recomputes the signature from the fields of a stored row. It fits if
the record was stored as it was signed, and no other fields fit it: the text
that is signed tells all fields, up to the order of keys (`objectText_inj`).
The schema drops a severity, the keys of an error context that it does not
name and what a key `__proto__` of the payload makes the copy inherit; the
timestamp is a date in the row, of which the verifier has some view
(`stored_signature_iff`).
-/

namespace BlockMiner.AuditSignatures

open AuditPayloads (Value Node PROTO auditEventPayloadSchema sanitizeAuditPayload sanitizeNode
  sanitizeFields)

/-! ## What the signed text tells -/

/-- The same fields with the same values, up to the order of keys. -/
def SameFields (fields fields' : Fields) : Prop :=
  sortKeys (fields.map (Prod.map id (Option.map canonical)))
    = sortKeys (fields'.map (Prod.map id (Option.map canonical)))

theorem fieldValueText_unique (x y : Option JsonText) {r r' : Text} (hr : Follows r)
    (hr' : Follows r') (h : fieldValueText x ++ r = fieldValueText y ++ r') :
    x.map canonical = y.map canonical ∧ r = r' := by
  -- no value starts with the `u` of `undefined`
  have hundefined (v : JsonText) (r r' : Text) :
      stableStringify v ++ r ≠ "undefined".toList ++ r' := by
    intro heq
    obtain ⟨c, t, ht, hc⟩ := stableStringify_lead v
    rw [ht, List.cons_append] at heq
    have hlt := kind_lt v
    rw [← hc, (List.cons.inj heq).1] at hlt
    exact absurd hlt (by decide)
  cases x with
  | none =>
      cases y with
      | none => exact ⟨rfl, List.append_cancel_left h⟩
      | some w => exact absurd h.symm (hundefined w r' r)
  | some v =>
      cases y with
      | none => exact absurd h (hundefined v r r')
      | some w =>
          obtain ⟨hcanonical, hrest⟩ := text_unique v w hr hr' h
          exact ⟨congrArg some hcanonical, hrest⟩

theorem fieldValueText_canonical (x : Option JsonText) :
    fieldValueText (x.map canonical) = fieldValueText x := by
  cases x with
  | none => rfl
  | some v => exact stableStringify_canonical v

/-- The text of an object tells its fields. -/
theorem objectText_inj {fields fields' : Fields} :
    objectText fields = objectText fields' ↔ SameFields fields fields' := by
  constructor
  · intro h
    simp only [objectText, sortKeys_map, List.map_map, List.cons.injEq, true_and] at h
    have hstart : ∀ (f : String × Option JsonText) r r',
        (fieldText ∘ Prod.map id fieldValueText) f ++ r ≠ '}' :: r' := fun f r r' heq =>
      absurd (List.cons.inj heq).1 (by decide)
    have hunique : ∀ f ∈ sortKeys fields, ∀ (f' : String × Option JsonText) r r',
        Follows r → Follows r' →
          (fieldText ∘ Prod.map id fieldValueText) f ++ r
            = (fieldText ∘ Prod.map id fieldValueText) f' ++ r' →
          Prod.map id (Option.map canonical) f = Prod.map id (Option.map canonical) f'
            ∧ r = r' := by
      rintro ⟨key, x⟩ - ⟨key', y⟩ r r' hr hr' heq
      simp only [Function.comp_apply, fieldText, Prod.map_apply, id_eq, List.append_assoc] at heq
      obtain ⟨rfl, htail⟩ := quote_unique heq
      obtain ⟨hvalue, hrest⟩ := fieldValueText_unique x y hr hr' (List.cons.inj htail).2
      exact ⟨by rw [Prod.map_apply, hvalue, Prod.map_apply], hrest⟩
    obtain ⟨hfields, -⟩ := join_unique rfl (by decide) hstart hunique h
    rw [SameFields, sortKeys_map, sortKeys_map, hfields]
  · intro h
    have htext (fields : Fields) : sortKeys (fields.map (Prod.map id fieldValueText))
        = (sortKeys (fields.map (Prod.map id (Option.map canonical)))).map
          (Prod.map id fieldValueText) := by
      rw [← sortKeys_map, List.map_map]
      congr 1
      exact List.map_congr_left fun f _ => by simp [Prod.map, fieldValueText_canonical]
    rw [objectText, objectText, htext fields, htext fields', h]

/-! ## Fields of two records -/

/-- The fields of a record but its signature, by their keys. -/
def signedFields : List (String × (JsonText → Record → Option JsonText)) := [
  ("correlationId", fun _ r => some (.string r.correlationId)),
  ("userId", fun _ r => some (Audit.optional (fun n => .number (Audit.numberText n)) r.userId)),
  ("anonymousId", fun _ r => some (Audit.optional .string r.anonymousId)),
  ("eventType", fun _ r => some (.string r.eventType)),
  ("status", fun _ r => some (.string (statusText r.status))),
  ("severity", fun _ r => some r.severity),
  ("resultCode", fun _ r => some (.string r.resultCode)),
  ("payload", fun _ r => some (json r.payload)),
  ("timestamp", fun timestamp _ => some timestamp),
  ("ipHash", fun _ r => some (.string r.ipHash)),
  ("userAgent", fun _ r => some (Audit.optional .string r.userAgent)),
  ("txHash", fun _ r => some (Audit.optional .string r.txHash)),
  ("errorContext", fun _ r => some r.errorContext),
  ("schemaVersion", fun _ r => some (.string r.schemaVersion)),
  ("source", fun _ r => some (.string r.source)),
  ("signature", fun _ _ => none)]

theorem unsigned_fields (timestamp : JsonText) (r : Record) :
    unsigned (r.fields timestamp) = signedFields.map (Prod.map id fun get => get timestamp r) := by
  simp [unsigned, Record.fields, signedFields]

/-- A signed record and the row that is stored of it have the same fields if those are the
same that storing can change. -/
theorem sameFields_stored {r : Record} {severity errorContext timestamp timestamp' : JsonText}
    {payload : Node} :
    SameFields (unsigned (r.fields timestamp))
        (unsigned ({ r with severity, payload, errorContext }.fields timestamp'))
      ↔ canonical r.severity = canonical severity ∧ canonical (json r.payload)
        = canonical (json payload) ∧ canonical timestamp = canonical timestamp'
        ∧ canonical r.errorContext = canonical errorContext := by
  rw [SameFields, unsigned_fields, unsigned_fields, List.map_map, List.map_map]
  simp only [Prod.map_comp_map, Function.id_comp]
  rw [sortKeys_congr]
  simp [signedFields]

/-! ## Fields that storing drops -/

theorem canonical_null {v : JsonText} : canonical v = canonical .null ↔ v = .null := by
  cases v <;> simp [canonical]

theorem canonical_string {v : JsonText} {s : String} :
    canonical (.string s) = canonical v ↔ v = .string s := by
  cases v <;> simp [canonical, eq_comm]

theorem length_canonicalFields (fields : List (String × JsonText)) :
    (sortKeys (canonicalFields fields)).length = fields.length := by
  rw [(sortKeys_perm _).length_eq, canonicalFields_eq, List.length_map]

theorem canonical_filter_iff {fields : List (String × JsonText)} {p : String × JsonText → Bool} :
    canonical (.object fields) = canonical (.object (fields.filter p)) ↔ ∀ f ∈ fields, p f := by
  constructor
  · intro h
    rw [canonical, canonical] at h
    have hlength := congrArg List.length (Json.object.inj h)
    rw [length_canonicalFields, length_canonicalFields] at hlength
    exact List.length_filter_eq_length_iff.mp hlength.symm
  · intro h
    rw [List.filter_eq_self.mpr h]

theorem canonical_append_iff {fields more : List (String × JsonText)} :
    canonical (.object fields) = canonical (.object (fields ++ more)) ↔ more = [] := by
  constructor
  · intro h
    rw [canonical, canonical] at h
    have hlength := congrArg List.length (Json.object.inj h)
    rw [length_canonicalFields, length_canonicalFields, List.length_append] at hlength
    exact List.length_eq_zero_iff.mp (by omega)
  · rintro rfl
    rw [List.append_nil]

/-- Values changed field by field. -/
theorem canonical_map_iff {fields : List (String × JsonText)}
    {h : String × JsonText → String × JsonText} (hkey : ∀ f, (h f).1 = f.1) :
    canonical (.object fields) = canonical (.object (fields.map h))
      ↔ ∀ f ∈ fields, canonical f.2 = canonical (h f).2 := by
  have hsort (g : String × JsonText → String × JsonText) (hg : ∀ f, (g f).1 = f.1) :
      sortKeys (fields.map g) = (sortKeys fields).map g :=
    (List.map_insertionSort _ _ g fields fun a _ b _ => by rw [hg, hg]).symm
  have hmap : (fields.map h).map (Prod.map id canonical)
      = fields.map fun f => (f.1, canonical (h f).2) := by
    rw [List.map_map]
    exact List.map_congr_left fun f _ => by simp [Prod.map, hkey]
  rw [canonical, canonical, Json.object.injEq, canonicalFields_eq, canonicalFields_eq, hmap,
    sortKeys_map, hsort (fun f => (f.1, canonical (h f).2)) fun _ => rfl, List.map_inj_left]
  constructor
  · intro heq f hf
    exact (Prod.mk.inj (heq f (mem_sortKeys.mpr hf))).2
  · intro heq f hf
    exact Prod.ext rfl (heq f (mem_sortKeys.mp hf))

/-! ## The error context -/

/-- The value has no key `__proto__` if it is an object. -/
def NoProto : JsonText → Prop
  | .object fields => ∀ f ∈ fields, f.1 ≠ PROTO
  | _ => True

/-- An error context with the keys of the schema only, none of them `__proto__` in `details`. -/
def KnownKeys : JsonText → Prop
  | .object fields =>
      ∀ f ∈ fields, f.1 ∈ errorContextKeys ∧ (f.1 = "details" → NoProto f.2)
  | _ => True

theorem canonical_copyRecord {v : JsonText} :
    canonical v = canonical (copyRecord v) ↔ NoProto v := by
  cases v with
  | object fields =>
      rw [copyRecord, canonical_filter_iff]
      simp [NoProto]
  | _ => exact iff_of_true rfl trivial

theorem canonical_copyField {f : String × JsonText} :
    canonical f.2 = canonical (copyField f).2 ↔ (f.1 = "details" → NoProto f.2) := by
  unfold copyField
  split
  · rename_i hkey
    rw [canonical_copyRecord]
    simp [hkey]
  · rename_i hkey
    simp [hkey]

theorem canonical_errorContext {v stored : JsonText}
    (h : auditErrorContextSchema v = some stored) :
    canonical v = canonical stored ↔ KnownKeys v := by
  cases v with
  | null =>
      obtain rfl := Option.some.inj h
      exact iff_of_true rfl trivial
  | object fields =>
      rw [auditErrorContextSchema] at h
      split at h
      · obtain rfl := Option.some.inj h
        have hkey (f : String × JsonText) : (copyField f).1 = f.1 := by
          unfold copyField
          split <;> rfl
        by_cases hknown : ∀ f ∈ fields, decide (f.1 ∈ errorContextKeys) = true
        · rw [List.filter_eq_self.mpr hknown, canonical_map_iff hkey]
          refine forall₂_congr fun f hf => ?_
          rw [canonical_copyField]
          simp [of_decide_eq_true (hknown f hf)]
        · refine iff_of_false (fun heq => hknown ?_) fun hkeys =>
            hknown fun f hf => decide_eq_true (hkeys f hf).1
          rw [canonical, canonical] at heq
          have hlength := congrArg List.length (Json.object.inj heq)
          rw [length_canonicalFields, length_canonicalFields, List.length_map] at hlength
          exact List.length_filter_eq_length_iff.mp hlength.symm
      · cases h
  | bool | number | string | array => cases h

/-! ## The payload -/

mutual

/-- The keys of a `for … in` over what the sanitizer makes of a value, where it is set as a
prototype. -/
def keysIn : Value → List String
  | .array items => (List.range items.length).map toString
  | .object fields => (fields.map Prod.fst).filter (· ≠ PROTO) ++ protoKeysIn fields
  | _ => []

/-- The keys that an object with these fields inherits. -/
def protoKeysIn : List (String × Value) → List String
  | [] => []
  | (key, value) :: fields => if key = PROTO then keysIn value else protoKeysIn fields

end

/-- A payload whose copy inherits no key that it has not itself. -/
def NothingInherited : Value → Prop
  | .object fields => ∀ key ∈ protoKeysIn fields, key ∈ fields.map Prod.fst
  | _ => True

theorem length_sanitizeItems (key : Option String) (items : List Value) :
    (AuditPayloads.sanitizeItems key items).length = items.length := by
  induction items with
  | nil => rfl
  | cons item items ih => rw [AuditPayloads.sanitizeItems, List.length_cons, ih, List.length_cons]

/-- The object that an assignment of `__proto__` leaves as prototype. -/
def protoOf (fields : List (String × Value)) : Node :=
  ((sanitizeFields fields).lookup PROTO).elim .null Node.asPrototype

theorem keys_own {fields : List (String × Value)} :
    ((sanitizeFields fields).filter (·.1 ≠ PROTO)).map Prod.fst
      = (fields.map Prod.fst).filter (· ≠ PROTO) := by
  rw [← AuditPayloads.keys_sanitizeFields, List.filter_map]
  rfl

theorem keys_zipIdx (nodes : List Node) :
    (nodes.zipIdx.map fun (item, i) => (toString i, item)).map Prod.fst
      = (List.range nodes.length).map toString := by
  rw [List.map_map, List.range_eq_range', ← List.zipIdx_map_snd, List.map_map]
  rfl

/-- A key that is shadowed is there anyway. -/
theorem mem_keys_shadowed {own inherited : List (String × Node)} {k : String} :
    k ∈ (own ++ inherited.filter fun field => field.1 ∉ own.map Prod.fst).map Prod.fst
      ↔ k ∈ own.map Prod.fst ∨ k ∈ inherited.map Prod.fst := by
  rw [List.map_append, List.mem_append]
  by_cases hown : k ∈ own.map Prod.fst
  · exact iff_of_true (.inl hown) (.inl hown)
  · refine or_congr_right ?_
    simp only [List.mem_map, List.mem_filter, decide_eq_true_eq]
    constructor
    · rintro ⟨field, ⟨hfield, -⟩, hkey⟩
      exact ⟨field, hfield, hkey⟩
    · rintro ⟨field, hfield, rfl⟩
      exact ⟨field, ⟨hfield, by simpa using hown⟩, rfl⟩

mutual

theorem mem_keysIn {key : Option String} {k : String} :
    ∀ v : Value, k ∈ (sanitizeNode key v).asPrototype.enumerable.map Prod.fst ↔ k ∈ keysIn v
  | .null | .bool _ | .number _ | .string _ => by
      simp [sanitizeNode, Node.asPrototype, Node.enumerable, keysIn]
  | .array items => by
      rw [sanitizeNode, Node.asPrototype, Node.enumerable, keysIn, keys_zipIdx,
        length_sanitizeItems]
  | .object fields => by
      rw [sanitizeNode, Node.assign, Node.asPrototype, Node.enumerable, mem_keys_shadowed,
        keys_own, keysIn, List.mem_append]
      exact or_congr_right (mem_protoKeysIn fields)

theorem mem_protoKeysIn {k : String} :
    ∀ fields : List (String × Value),
      k ∈ (protoOf fields).enumerable.map Prod.fst ↔ k ∈ protoKeysIn fields
  | [] => by simp [protoOf, sanitizeFields, Node.enumerable, protoKeysIn]
  | (key, value) :: fields => by
      rw [protoOf, sanitizeFields, List.lookup_cons, protoKeysIn]
      by_cases hkey : key = PROTO
      · rw [if_pos hkey, hkey]
        simpa using mem_keysIn value
      · rw [if_neg hkey]
        have hne : (PROTO == key) = false := by simpa using Ne.symm hkey
        rw [hne]
        exact mem_protoKeysIn fields

end

theorem proto_of_mem {k : String} :
    ∀ {fields : List (String × Value)}, k ∈ protoKeysIn fields → PROTO ∈ fields.map Prod.fst
  | [], h => by cases h
  | (key, value) :: fields, h => by
      rw [protoKeysIn] at h
      split at h
      · rename_i hkey
        exact hkey ▸ List.mem_cons_self ..
      · exact List.mem_cons_of_mem _ (proto_of_mem h)

/-- What the schema takes over from the prototype of a sanitized object. -/
def inherited (fields : List (String × Value)) : List (String × Node) :=
  ((protoOf fields).enumerable.filter fun field =>
      field.1 ∉ ((sanitizeFields fields).filter (·.1 ≠ PROTO)).map Prod.fst).filter (·.1 ≠ PROTO)

theorem stored_object (fields : List (String × Value)) :
    auditEventPayloadSchema (sanitizeAuditPayload (.object fields))
      = some (.object ((sanitizeFields fields).filter (·.1 ≠ PROTO) ++ inherited fields)
          .null) := by
  rw [sanitizeAuditPayload, sanitizeNode, Node.assign, auditEventPayloadSchema, Node.enumerable,
    List.filter_append, List.filter_filter]
  simp only [Bool.and_self]
  rfl

theorem inherited_eq_nil {fields : List (String × Value)} :
    inherited fields = [] ↔ NothingInherited (.object fields) := by
  rw [inherited, List.filter_filter, List.filter_eq_nil_iff, keys_own, NothingInherited]
  have hkeys : (∀ field ∈ (protoOf fields).enumerable,
      ¬(decide (field.1 ≠ PROTO)
        && decide (field.1 ∉ (fields.map Prod.fst).filter (· ≠ PROTO))) = true)
      ↔ ∀ key ∈ (protoOf fields).enumerable.map Prod.fst,
        ¬(key ≠ PROTO ∧ key ∉ (fields.map Prod.fst).filter (· ≠ PROTO)) := by
    rw [List.forall_mem_map]
    exact forall₂_congr fun field _ => by simp
  rw [hkeys]
  refine forall_congr' fun key => ?_
  rw [mem_protoKeysIn]
  refine imp_congr_right fun hmem => ?_
  have hproto := proto_of_mem hmem
  by_cases hkey : key = PROTO
  · rw [hkey]
    simp [hproto]
  · simp [hkey]

theorem canonical_object (fields : List (String × Value)) {stored : Node}
    (h : auditEventPayloadSchema (sanitizeAuditPayload (.object fields)) = some stored) :
    canonical (json (sanitizeAuditPayload (.object fields))) = canonical (json stored)
      ↔ NothingInherited (.object fields) := by
  rw [stored_object] at h
  obtain rfl := Option.some.inj h
  rw [sanitizeAuditPayload, sanitizeNode, Node.assign, json, json, jsonFields_eq, jsonFields_eq,
    List.map_append, canonical_append_iff, List.map_eq_nil_iff, inherited_eq_nil]

theorem canonical_payload {payload : Value} {stored : Node}
    (h : auditEventPayloadSchema (sanitizeAuditPayload payload.orEmpty) = some stored) :
    canonical (json (sanitizeAuditPayload payload.orEmpty)) = canonical (json stored)
      ↔ NothingInherited payload := by
  cases payload with
  | null =>
      refine (canonical_object [] h).trans (iff_of_true ?_ trivial)
      exact fun key hkey => nomatch hkey
  | object fields => exact canonical_object fields h
  | bool | number | string | array => cases h

/-! ## The signature of a stored record -/

theorem enqueueAuditEvent_eq_some {hmac : Text → Text} {isDatetime : String → Bool}
    {correlationId timestamp : String} {e : Event} {row : Record}
    (h : enqueueAuditEvent hmac isDatetime correlationId timestamp e = some row) :
    ∃ (record : Record) (payload : Node) (errorContext : JsonText),
      record.severity = e.severity ∧ record.payload = sanitizeAuditPayload e.payload.orEmpty
        ∧ record.errorContext = e.errorContext
        ∧ record.signature
          = buildAuditSignature hmac (record.fields (.string record.timestamp))
        ∧ auditEventPayloadSchema record.payload = some payload
        ∧ auditErrorContextSchema record.errorContext = some errorContext
        ∧ row = { record with severity := .null, payload, errorContext } := by
  rw [enqueueAuditEvent, auditEventInputSchema] at h
  split at h
  · obtain ⟨payload, hpayload, hrow⟩ := Option.bind_eq_some_iff.mp h
    obtain ⟨errorContext, herror, rfl⟩ := Option.map_eq_some_iff.mp hrow
    exact ⟨_, payload, errorContext, rfl, rfl, rfl, rfl, hpayload, herror, rfl⟩
  · cases h

/-- The signature of a row is that of its fields, as a verifier sees them, and of no others. -/
def Verifies (hmac : Text → Text) (view : String → JsonText) (row : Record) : Prop :=
  ∀ fields : Fields, buildAuditSignature hmac fields = row.signature
    ↔ SameFields (unsigned fields) (unsigned (row.fields (view row.timestamp)))

/-- `stableStringify` tells values apart, and only values. -/
def TellsValues : Prop :=
  ∀ v v' : JsonText, v.Distinct → (stableStringify v = stableStringify v' ↔ v.Same v')

theorem verifies_iff_same {hmac : Text → Text} (hinj : Function.Injective hmac)
    {view : String → JsonText} {row : Record} {signed : Fields}
    (hsigned : row.signature = buildAuditSignature hmac signed) :
    Verifies hmac view row
      ↔ SameFields (unsigned signed) (unsigned (row.fields (view row.timestamp))) := by
  have hsame (fields : Fields) : buildAuditSignature hmac fields = row.signature
      ↔ SameFields (unsigned fields) (unsigned signed) := by
    rw [hsigned, buildAuditSignature, buildAuditSignature, hinj.eq_iff, objectText_inj]
  constructor
  · intro h
    exact (h signed).mp hsigned.symm
  · intro h fields
    rw [hsame]
    exact ⟨fun heq => heq.trans h, fun heq => heq.trans h.symm⟩

/-- The signature of a stored row verifies, and no other fields do, if and only if the event
had no severity, its error context only known keys and its payload nothing to inherit, and the
verifier sees the timestamp as the text that was signed. -/
theorem stored_signature_iff {hmac : Text → Text} (hinj : Function.Injective hmac)
    (view : String → JsonText) {isDatetime : String → Bool} {correlationId timestamp : String}
    {e : Event} {row : Record}
    (h : enqueueAuditEvent hmac isDatetime correlationId timestamp e = some row) :
    Verifies hmac view row ∧ TellsValues
      ↔ e.severity = .null ∧ NothingInherited e.payload
        ∧ view row.timestamp = .string row.timestamp ∧ KnownKeys e.errorContext := by
  have htells : TellsValues := fun v v' hv => Json.stableStringify_iff_same hv
  obtain ⟨record, payload, errorContext, hseverity, hpayload, herror, hsignature, hp, he, rfl⟩ :=
    enqueueAuditEvent_eq_some h
  have hsame := @verifies_iff_same hmac hinj view
    { record with severity := .null, payload, errorContext } _ hsignature
  rw [hpayload] at hp
  rw [herror] at he
  rw [and_iff_left htells, hsame, sameFields_stored, hseverity, canonical_null, hpayload,
    canonical_payload hp, herror, canonical_errorContext he, canonical_string]

/-- An event with all that the schema asks for and a severity. -/
def loginEvent (severity : JsonText) : Event where
  correlationId := some "0190a6a4-7b5c-7000-8000-000000000000"
  userId := some 1
  anonymousId := none
  timestamp := some "2024-01-01T00:00:00.000Z"
  eventType := "AUTH_LOGIN_SUCCESS"
  status := .SUCCESS
  severity := severity
  resultCode := "LOGIN_SUCCESS"
  payload := .object []
  ipHash := "00"
  userAgent := none
  txHash := none
  errorContext := .null
  schemaVersion := none
  source := none

def loginRow (severity : JsonText) : Record :=
  { buildEventRecord id "" "" (loginEvent severity) with
    severity := .null, payload := .object [] .null }

theorem enqueue_loginEvent (severity : JsonText) :
    enqueueAuditEvent id (fun _ => true) "" "" (loginEvent severity)
      = some (loginRow severity) := by
  have huuid : Audit.isUuid "0190a6a4-7b5c-7000-8000-000000000000" = true := by decide
  have hvalid : (buildEventRecord id "" "" (loginEvent severity)).valid (fun _ => true) = true := by
    simp [Record.valid, buildEventRecord, loginEvent, buildAuditSignature, objectText,
      Audit.auditEventTypes, Audit.auditEventStatuses]
    exact huuid
  rw [enqueueAuditEvent, auditEventInputSchema, if_pos hvalid]
  rfl

theorem stored_signature_iff_login :
    Verifies id .string (loginRow .null) ∧ TellsValues
      ↔ (loginEvent .null).severity = .null ∧ NothingInherited (loginEvent .null).payload
        ∧ (Json.string (loginRow .null).timestamp : JsonText) = .string (loginRow .null).timestamp
        ∧ KnownKeys (loginEvent .null).errorContext :=
  stored_signature_iff Function.injective_id .string (enqueue_loginEvent .null)

/-- With a severity, the stored fields have another signature. -/
theorem severity_signed_not_stored :
    ∃ row, enqueueAuditEvent id (fun _ => true) "" "" (loginEvent (.string "high")) = some row
      ∧ buildAuditSignature id (row.fields (.string row.timestamp)) ≠ row.signature := by
  refine ⟨_, enqueue_loginEvent _, fun heq => ?_⟩
  have hsame := (objectText_inj.mp heq).symm
  have hseverity := (sameFields_stored (r := buildEventRecord id "" "" (loginEvent _))).mp hsame
  cases canonical_null.mp hseverity.1

end BlockMiner.AuditSignatures
