import BlockMiner.AuditMasking
import BlockMiner.JsText
import BlockMiner.StableStringify

/-!
# What the payload of an audit event gives away

`sanitizeAuditPayload` of `audit/utils.js` and the way of a payload into the
outbox. A sensitive key masks the texts right below it and in the arrays
below it, but not those below a further key, and it masks no number. So not
every payload is hidden (`hidesStored_iff`).

A key `__proto__`, which `JSON.parse` makes an ordinary one, is no key of the
copy: the assignment to it sets the prototype of the copy. The schema goes over
the payload with `for … in`, which takes the keys of prototypes along. Of the
characters outside ASCII that a key may have, İ gives an `i` when lowered, with
a dot after it that no pattern has.
-/

namespace BlockMiner.AuditPayloads

/-! ## Values -/

/-- A JSON value. A number is as it prints. -/
inductive Value where
  | null
  | bool (b : Bool)
  | number (n : NumberText)
  | string (s : Units)
  | array (items : List Value)
  | object (fields : List (String × Value))

/-- A value of the program. The prototype of an object is `null` also if it is the one of
all objects, from which no key comes in a `for … in`. -/
inductive Node where
  | null
  | bool (b : Bool)
  | number (n : NumberText)
  | string (s : Units)
  | array (items : List Node)
  | object (own : List (String × Node)) (prototype : Node)

def asciiUnits (cs : List Char) : Units := cs.map fun c => c.toNat.toUInt16

def PROTO : String := "__proto__"

namespace Node

/-- The prototype that an assignment of the value to `__proto__` sets. -/
def asPrototype : Node → Node
  | array items => array items
  | object own prototype => object own prototype
  | _ => null

/-- An object after the assignments to its keys. -/
def assign (fields : List (String × Node)) : Node :=
  object (fields.filter (·.1 ≠ PROTO)) ((fields.lookup PROTO).elim null asPrototype)

/-- The keys and values of a `for … in`. -/
def enumerable : Node → List (String × Node)
  | array items => items.zipIdx.map fun (item, i) => (toString i, item)
  | object own prototype =>
      own ++ prototype.enumerable.filter fun field => field.1 ∉ own.map Prod.fst
  | _ => []

/-- The text of a leaf. -/
def text : Node → Units
  | number n => asciiUnits n.text
  | string s => s
  | _ => []

end Node

/-! ## `sanitizeAuditPayload` -/

def SENSITIVE_KEYS : List String :=
  ["email", "cpf", "cnpj", "wallet", "walletaddress", "wallet_address", "privatekey",
    "private_key", "secret", "token", "password", "passphrase", "ssn"]

def isSensitiveKey : Option String → Bool
  | none => false
  | some key =>
      key ≠ "" && SENSITIVE_KEYS.any fun pattern =>
        pattern.toList <:+: (toLowerCase key).toList

mutual

def sanitizeNode (key : Option String) : Value → Node
  | .null => .null
  | .bool b => .bool b
  | .number n => .number n
  | .string s => .string (if isSensitiveKey key then maskString s else s)
  | .array items => .array (sanitizeItems key items)
  | .object fields => .assign (sanitizeFields fields)

def sanitizeItems (key : Option String) : List Value → List Node
  | [] => []
  | item :: items => sanitizeNode key item :: sanitizeItems key items

def sanitizeFields : List (String × Value) → List (String × Node)
  | [] => []
  | (childKey, value) :: fields =>
      (childKey, sanitizeNode (some childKey) value) :: sanitizeFields fields

end

def sanitizeAuditPayload (payload : Value) : Node := sanitizeNode none payload

/-- `payload ?? {}` -/
def Value.orEmpty : Value → Value
  | .null => .object []
  | payload => payload

/-- `z.record(z.any())`, which never copies a key `__proto__`. -/
def auditEventPayloadSchema : Node → Option Node
  | .object own prototype =>
      some (.object ((Node.object own prototype).enumerable.filter (·.1 ≠ PROTO)) .null)
  | _ => none

/-- The payload that `enqueueAuditEvent` stores; `none` where the schema refuses it. -/
def storedPayload (payload : Value) : Option Node :=
  auditEventPayloadSchema (sanitizeAuditPayload payload.orEmpty)

/-! ## What is hidden -/

/-- What is stored in the place of a text longer than four characters does not contain it. -/
def Masked (original : Units) (stored : Node) : Prop :=
  4 < original.length → ¬original <:+: stored.text

mutual

/-- A stored value hides the original: below a sensitive key its texts and numbers are
masked, elsewhere they are the same, and keys and lengths are the same everywhere. -/
def Hides (below : Bool) : Value → Node → Prop
  | .null, stored => below = true ∨ stored = .null
  | .bool b, stored => below = true ∨ stored = .bool b
  | .number n, stored => if below then Masked (asciiUnits n.text) stored else stored = .number n
  | .string s, stored => if below then Masked s stored else stored = .string s
  | .array items, .array nodes => HidesItems below items nodes
  | .object fields, .object own _ => HidesFields below fields own
  | .array _, _ | .object _, _ => False

def HidesItems (below : Bool) : List Value → List Node → Prop
  | [], [] => True
  | item :: items, node :: nodes => Hides below item node ∧ HidesItems below items nodes
  | _, _ => False

def HidesFields (below : Bool) : List (String × Value) → List (String × Node) → Prop
  | [], [] => True
  | (key, value) :: fields, (key', node) :: own =>
      key = key' ∧ Hides (below || isSensitiveKey (some key)) value node
        ∧ HidesFields below fields own
  | _, _ => False

end

def HidesStored (payload : Value) : Prop :=
  ∀ stored, storedPayload payload = some stored → Hides false payload stored

mutual

/-- No key `__proto__`, and below a sensitive key no number of more than four characters,
nor a text of more than four whose own key is not sensitive or which its mask keeps. -/
def Covered (below sensitive : Bool) : Value → Prop
  | .null | .bool _ => True
  | .number n => below = true → n.text.length ≤ 4
  | .string s => below = true → 4 < s.length → sensitive = true ∧ ¬KeptByMask s
  | .array items => CoveredItems below sensitive items
  | .object fields => CoveredFields below fields

def CoveredItems (below sensitive : Bool) : List Value → Prop
  | [] => True
  | item :: items => Covered below sensitive item ∧ CoveredItems below sensitive items

def CoveredFields (below : Bool) : List (String × Value) → Prop
  | [] => True
  | (key, value) :: fields =>
      key ≠ PROTO
        ∧ Covered (below || isSensitiveKey (some key)) (isSensitiveKey (some key)) value
        ∧ CoveredFields below fields

end

/-! ## Leaves -/

theorem masked_text {stored : Node} : Masked stored.text stored ↔ stored.text.length ≤ 4 := by
  unfold Masked
  constructor
  · intro hmasked
    by_contra hlong
    exact hmasked (by omega) List.infix_rfl
  · intro hshort hlong
    omega

theorem masked_maskString {s : Units} :
    Masked s (.string (maskString s)) ↔ (4 < s.length → ¬KeptByMask s) :=
  imp_congr_right fun hlong => not_congr (infix_maskString_iff hlong)

theorem hides_number {below : Bool} {n : NumberText} :
    Hides below (.number n) (.number n) ↔ (below = true → n.text.length ≤ 4) := by
  cases below with
  | false => simp [Hides]
  | true =>
      have htext : Masked (Node.text (.number n)) (.number n) ↔ _ := masked_text
      rw [Node.text, asciiUnits, List.length_map] at htext
      rw [Hides, if_pos rfl, asciiUnits, htext]
      simp

theorem hides_string {below sensitive : Bool} (h : sensitive = true → below = true) {s : Units} :
    Hides below (.string s) (.string (if sensitive then maskString s else s))
      ↔ (below = true → 4 < s.length → sensitive = true ∧ ¬KeptByMask s) := by
  cases below with
  | false =>
      obtain rfl : sensitive = false := by simpa using h
      simp [Hides]
  | true =>
      rw [Hides, if_pos rfl]
      cases sensitive with
      | true =>
          rw [if_pos rfl, masked_maskString]
          simp
      | false =>
          have htext : Masked (Node.text (.string s)) (.string s) ↔ _ := masked_text
          rw [Node.text] at htext
          rw [if_neg Bool.false_ne_true, htext]
          simp

/-! ## Objects -/

theorem keys_of_hidesFields {below : Bool} :
    ∀ {fields : List (String × Value)} {own : List (String × Node)},
      HidesFields below fields own → own.map Prod.fst = fields.map Prod.fst
  | [], [], _ => rfl
  | (key, value) :: fields, (key', node) :: own, h => by
      obtain ⟨rfl, -, hrest⟩ := h
      rw [List.map_cons, List.map_cons, keys_of_hidesFields hrest]

/-- An object without a key `__proto__` does not hide one with it. -/
theorem not_hidesFields {below : Bool} {fields : List (String × Value)}
    {own : List (String × Node)} (hproto : PROTO ∈ fields.map Prod.fst) :
    ¬HidesFields below fields (own.filter (·.1 ≠ PROTO)) := by
  intro h
  rw [← keys_of_hidesFields h] at hproto
  obtain ⟨field, hfield, hkey⟩ := List.mem_map.mp hproto
  exact of_decide_eq_true (List.mem_filter.mp hfield).2 hkey

theorem keys_of_coveredFields {below : Bool} :
    ∀ {fields : List (String × Value)}, CoveredFields below fields →
      PROTO ∉ fields.map Prod.fst
  | [], _ => List.not_mem_nil
  | (_, _) :: _, ⟨hkey, _, hrest⟩ =>
      List.not_mem_cons_of_ne_of_not_mem hkey.symm (keys_of_coveredFields hrest)

theorem keys_sanitizeFields :
    ∀ fields : List (String × Value),
      (sanitizeFields fields).map Prod.fst = fields.map Prod.fst
  | [] => by rw [sanitizeFields]; rfl
  | (key, value) :: fields => by
      rw [sanitizeFields, List.map_cons, List.map_cons, keys_sanitizeFields fields]

/-! ## The recursion -/

mutual

/-- The sanitizer knows only the last key; the claim goes by all of them. -/
theorem hides_sanitizeNode (key : Option String) (below : Bool)
    (h : isSensitiveKey key = true → below = true) :
    ∀ value : Value,
      Hides below value (sanitizeNode key value) ↔ Covered below (isSensitiveKey key) value
  | .null => by simp [Hides, Covered, sanitizeNode]
  | .bool b => by simp [Hides, Covered, sanitizeNode]
  | .number n => by
      rw [sanitizeNode, Covered]
      exact hides_number
  | .string s => by
      rw [sanitizeNode, Covered]
      exact hides_string h
  | .array items => by
      rw [sanitizeNode, Hides, Covered]
      exact hidesItems_sanitizeItems key below h items
  | .object fields => by
      rw [sanitizeNode, Node.assign, Hides, Covered]
      exact hidesFields_sanitizeFields below fields

theorem hidesItems_sanitizeItems (key : Option String) (below : Bool)
    (h : isSensitiveKey key = true → below = true) :
    ∀ items : List Value,
      HidesItems below items (sanitizeItems key items)
        ↔ CoveredItems below (isSensitiveKey key) items
  | [] => by simp [HidesItems, CoveredItems, sanitizeItems]
  | item :: items => by
      rw [sanitizeItems, HidesItems, CoveredItems, hides_sanitizeNode key below h item,
        hidesItems_sanitizeItems key below h items]

theorem hidesFields_sanitizeFields (below : Bool) :
    ∀ fields : List (String × Value),
      HidesFields below fields ((sanitizeFields fields).filter (·.1 ≠ PROTO))
        ↔ CoveredFields below fields
  | [] => by simp [HidesFields, CoveredFields, sanitizeFields]
  | (key, value) :: fields => by
      by_cases hkey : key = PROTO
      · exact iff_of_false (not_hidesFields (hkey ▸ List.mem_cons_self ..))
          fun hcovered => hcovered.1 hkey
      · rw [sanitizeFields, List.filter_cons_of_pos (by simpa using hkey), HidesFields,
          CoveredFields, hides_sanitizeNode (some key) _ (fun hsensitive => by simp [hsensitive])
            value,
          hidesFields_sanitizeFields below fields]
        simp [hkey]

end

/-- What is stored of an object without a key `__proto__`. -/
theorem stored_of_notMem {fields : List (String × Value)} (h : PROTO ∉ fields.map Prod.fst) :
    storedPayload (.object fields)
      = some (.object ((sanitizeFields fields).filter (·.1 ≠ PROTO)) .null) := by
  have hlookup : (sanitizeFields fields).lookup PROTO = none := by
    rw [List.lookup_eq_none_iff]
    intro field hfield
    have hmem := List.mem_map_of_mem (f := Prod.fst) hfield
    rw [keys_sanitizeFields] at hmem
    simpa using fun heq : PROTO = field.1 => h (heq ▸ hmem)
  have hassign : sanitizeAuditPayload (Value.object fields)
      = .object ((sanitizeFields fields).filter (·.1 ≠ PROTO)) .null := by
    rw [sanitizeAuditPayload, sanitizeNode, Node.assign, hlookup]
    rfl
  show auditEventPayloadSchema (sanitizeAuditPayload (.object fields)) = _
  rw [hassign]
  simp [auditEventPayloadSchema, Node.enumerable]

/-- A payload is hidden in the outbox if and only if it is not `null` and, where it is an
object, it is covered; any other one is refused. -/
theorem hidesStored_iff (payload : Value) :
    HidesStored payload
      ↔ payload ≠ .null ∧ ∀ fields, payload = .object fields → CoveredFields false fields := by
  cases payload with
  | null =>
      refine iff_of_false (fun h => ?_) fun h => h.1 rfl
      have hnull := h _ rfl
      simp [Hides] at hnull
  | bool | number | string | array =>
      refine iff_of_true (fun stored hstored => ?_) ⟨nofun, nofun⟩
      cases hstored
  | object fields =>
      have hobject : (Value.object fields ≠ .null
          ∧ ∀ fields', Value.object fields = .object fields' → CoveredFields false fields')
            ↔ CoveredFields false fields :=
        ⟨fun h => h.2 fields rfl, fun h => ⟨nofun, fun _ heq => Value.object.inj heq ▸ h⟩⟩
      rw [hobject]
      by_cases hproto : PROTO ∈ fields.map Prod.fst
      · refine iff_of_false (fun h => ?_) fun h => keys_of_coveredFields h hproto
        exact not_hidesFields hproto (h _ rfl)
      · rw [HidesStored, stored_of_notMem hproto, ← hidesFields_sanitizeFields]
        constructor
        · intro h
          exact h _ rfl
        · rintro h _ ⟨⟩
          exact h

/-- `{"token": {"value": "abcdef"}}` is stored as it is. -/
theorem token_value_not_hidden :
    ¬HidesStored
      (.object [("token", .object [("value", .string [97, 98, 99, 100, 101, 102])])]) := by
  intro h
  have hstored := h _ (stored_of_notMem (by decide))
  have htoken : isSensitiveKey (some "token") = true := by decide
  have hvalue : isSensitiveKey (some "value") = false := by decide
  simp [Hides, HidesFields, sanitizeFields, sanitizeNode, Node.assign, htoken, hvalue, Masked,
    Node.text, PROTO] at hstored

end BlockMiner.AuditPayloads
