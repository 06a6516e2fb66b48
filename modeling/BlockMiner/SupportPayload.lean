import BlockMiner.Utf16Json
import Mathlib.Data.List.Infix

/-!
# The messages of support tickets

`utils/supportMessagePayload.js`. A message with attachments is stored as JSON
behind a prefix, one without as it is. What is stored is read back unless
(`support_roundtrip_iff`) a plain message looks like an encoded one, or a MIME
type that is cut at 120 units ends in white space then, which is trimmed when
it is read.
-/

namespace BlockMiner.SupportPayload

open Utf16Json

def PAYLOAD_PREFIX : Utf16 := ascii "__BM_SPT1__\n".toList

def MAX_ATTACHMENTS : ℕ := 5

def MAX_URL_LENGTH : ℕ := 512

def MAX_BODY_LENGTH : ℕ := 12000

/-! ## Trimming -/

def isSpaceUnit (u : UInt16) : Bool := isStrWhiteSpaceChar (JsonSyntax.unitChar u.toNat)

def trimEnd (s : Utf16) : Utf16 := s.rdropWhile isSpaceUnit

def trim (s : Utf16) : Utf16 := trimEnd (s.dropWhile isSpaceUnit)

/-! ## `supportMessagePayload.js` -/

def isAllowedUploadUrl (url : Utf16) : Bool :=
  let u := trim url
  ascii "/uploads/".toList <+: u
    && !(ascii "..".toList <:+: u || ascii "\\".toList <:+: u)
    && u.length ≤ MAX_URL_LENGTH

structure Attachment where
  url : Utf16
  mimeType : Option Utf16
deriving DecidableEq

structure Payload where
  body : Utf16
  attachments : List Attachment
deriving DecidableEq

def string? : Value → Option Utf16
  | .string s => some s
  | _ => none

/-- Only an object has a `url` that is a text. -/
def sanitizeAttachment (attachment : Value) : Option Attachment :=
  let url := (((attachment.get "url").bind string?).map trim).getD []
  if isAllowedUploadUrl url then
    let mimeType := ((attachment.get "mimeType").bind string?).map fun t => (trim t).take 120
    some ⟨url, mimeType.filter (· ≠ [])⟩
  else none

/-- The first attachments that are sanitized, of those given or read. -/
def sanitizeAttachments (attachments : List Value) : List Attachment :=
  attachments.filterMap sanitizeAttachment

def Attachment.out (a : Attachment) : Out :=
  .record (("url", .text a.url) :: a.mimeType.elim [] fun m => [("mimeType", .text m)])

/-- `String(body ?? "").slice(0, MAX_BODY_LENGTH).trimEnd()` -/
def trimmedBody (body : Utf16) : Utf16 := trimEnd (body.take MAX_BODY_LENGTH)

def serializeSupportPayload (body : Utf16) (attachments : List Value) : Utf16 :=
  let trimmed := trimmedBody body
  let safe := sanitizeAttachments (attachments.take MAX_ATTACHMENTS)
  if safe = [] then trimmed
  else
    PAYLOAD_PREFIX ++ stringify (.record [("v", .whole 1), ("body", .text trimmed),
      ("attachments", .list (safe.map Attachment.out))])

/-- `v === 1`, for the double that is nearest to a literal. -/
def isOne (q : ℚ) : Bool := 1 - 1 / 2 ^ 54 ≤ q && q ≤ 1 + 1 / 2 ^ 53

/-- What is made of the value behind the prefix, if it is a payload. -/
def decode (data : Value) : Option Payload :=
  match data.get "v", data.get "body" with
  | some (.number v), some (.string body) =>
      if isOne v then
        let attachments := match data.get "attachments" with
          | some (.array items) => sanitizeAttachments items
          | _ => []
        some ⟨body.take MAX_BODY_LENGTH, attachments⟩
      else none
  | _, _ => none

def parseSupportPayload (raw : Utf16) : Payload :=
  if PAYLOAD_PREFIX <+: raw then
    ((parse (raw.drop PAYLOAD_PREFIX.length)).bind decode).getD ⟨raw, []⟩
  else ⟨raw, []⟩

/-! ## The condition -/

/-- The value has a URL that is allowed. -/
def NamesUpload (attachment : Value) : Prop :=
  ∃ url, attachment.get "url" = some (.string url) ∧ isAllowedUploadUrl url = true

/-- The MIME type does not end in white space where it is cut. -/
def CutsClean (attachment : Value) : Prop :=
  ∀ t, attachment.get "mimeType" = some (.string t) →
    trimEnd ((trim t).take 120) = (trim t).take 120

/-- The text is the prefix with the JSON of a payload behind it. -/
def LooksEncoded (raw : Utf16) : Prop :=
  PAYLOAD_PREFIX <+: raw ∧ ∃ data v body, parse (raw.drop PAYLOAD_PREFIX.length) = some data
    ∧ data.get "v" = some (.number v) ∧ isOne v = true ∧ data.get "body" = some (.string body)

/-! ## Trimming twice -/

theorem trimEnd_trimEnd (s : Utf16) : trimEnd (trimEnd s) = trimEnd s :=
  List.rdropWhile_idempotent _ s

theorem length_trimEnd (s : Utf16) : (trimEnd s).length ≤ s.length :=
  (List.rdropWhile_prefix isSpaceUnit s).length_le

/-- What is left of a text that starts with no white space starts with none. -/
theorem dropWhile_prefix {s t : Utf16} (h : t <+: s) (hs : s.dropWhile isSpaceUnit = s) :
    t.dropWhile isSpaceUnit = t := by
  refine List.dropWhile_eq_self_iff.mpr fun hpos => ?_
  rw [h.getElem hpos]
  exact List.dropWhile_eq_self_iff.mp hs _

theorem dropWhile_trim (s : Utf16) : (trim s).dropWhile isSpaceUnit = trim s :=
  dropWhile_prefix (List.rdropWhile_prefix isSpaceUnit _) (List.dropWhile_idempotent _ s)

theorem trim_trim (s : Utf16) : trim (trim s) = trim s := by
  rw [trim, dropWhile_trim, trim, trimEnd_trimEnd]

theorem isAllowedUploadUrl_trim (url : Utf16) :
    isAllowedUploadUrl (trim url) = isAllowedUploadUrl url := by
  rw [isAllowedUploadUrl, trim_trim, isAllowedUploadUrl]

theorem not_isAllowedUploadUrl_nil : isAllowedUploadUrl [] = false := by
  decide

theorem length_trimmedBody (body : Utf16) : (trimmedBody body).length ≤ MAX_BODY_LENGTH :=
  (length_trimEnd _).trans (List.length_take_le _ _)

/-! ## Attachments -/

/-- The MIME type that is kept of an attachment. -/
def keptMimeType (attachment : Value) : Option Utf16 :=
  (((attachment.get "mimeType").bind string?).map fun t => (trim t).take 120).filter (· ≠ [])

theorem sanitizeAttachment_eq_some {v : Value} {a : Attachment} :
    sanitizeAttachment v = some a
      ↔ ∃ url, v.get "url" = some (.string url) ∧ isAllowedUploadUrl url = true
        ∧ a = ⟨trim url, keptMimeType v⟩ := by
  have hnone (hv : (v.get "url").bind string? = none) : sanitizeAttachment v = none := by
    rw [sanitizeAttachment, hv]
    exact if_neg (by simp [not_isAllowedUploadUrl_nil])
  constructor
  · intro h
    cases hurl : (v.get "url").bind string? with
    | none =>
        rw [hnone hurl] at h
        cases h
    | some url =>
        obtain ⟨w, hw, hstring⟩ := Option.bind_eq_some_iff.mp hurl
        cases w with
        | string s =>
            obtain rfl := Option.some.inj hstring
            rw [sanitizeAttachment, hurl] at h
            simp only [Option.map_some, Option.getD_some, isAllowedUploadUrl_trim] at h
            split at h
            · rename_i hallowed
              exact ⟨s, hw, hallowed, (Option.some.inj h).symm⟩
            · cases h
        | _ => cases hstring
  · rintro ⟨url, hurl, hallowed, rfl⟩
    rw [sanitizeAttachment, hurl]
    simp only [Option.bind_some, string?, Option.map_some, Option.getD_some,
      isAllowedUploadUrl_trim, hallowed, if_true]
    rfl

theorem sanitizeAttachment_eq_none {v : Value} : sanitizeAttachment v = none ↔ ¬NamesUpload v := by
  rw [Option.eq_none_iff_forall_ne_some]
  constructor
  · rintro h ⟨url, hurl, hallowed⟩
    exact h _ (sanitizeAttachment_eq_some.mpr ⟨url, hurl, hallowed, rfl⟩)
  · intro h a ha
    obtain ⟨url, hurl, hallowed, -⟩ := sanitizeAttachment_eq_some.mp ha
    exact h ⟨url, hurl, hallowed⟩

theorem allowed_of_mem {items : List Value} {a : Attachment} (h : a ∈ sanitizeAttachments items) :
    isAllowedUploadUrl a.url = true := by
  obtain ⟨v, -, hv⟩ := List.mem_filterMap.mp h
  obtain ⟨url, -, hallowed, rfl⟩ := sanitizeAttachment_eq_some.mp hv
  exact (isAllowedUploadUrl_trim url).trans hallowed

theorem keptMimeType_eq {v : Value} {t : Utf16} (h : v.get "mimeType" = some (.string t)) :
    keptMimeType v = (some ((trim t).take 120)).filter (· ≠ []) := by
  rw [keptMimeType, h]
  rfl

theorem keptMimeType_eq_none {v : Value} (h : ∀ t, v.get "mimeType" ≠ some (.string t)) :
    keptMimeType v = none := by
  rw [keptMimeType]
  cases hget : v.get "mimeType" with
  | none => rfl
  | some w =>
      cases w with
      | string t => exact absurd hget (h t)
      | _ => rfl

/-- A kept MIME type that is sanitized again. -/
theorem keptMimeType_again {t : Utf16} (h : (trim t).take 120 ≠ []) :
    (some ((trim ((trim t).take 120)).take 120)).filter (· ≠ []) = some ((trim t).take 120)
      ↔ trimEnd ((trim t).take 120) = (trim t).take 120 := by
  have hstart := dropWhile_prefix (List.take_prefix 120 (trim t)) (dropWhile_trim t)
  have hlength : (trimEnd ((trim t).take 120)).length ≤ 120 :=
    (length_trimEnd _).trans (List.length_take_le _ _)
  rw [trim, hstart, List.take_of_length_le hlength, Option.filter_eq_some_iff, Option.some_inj]
  constructor
  · rintro ⟨heq, -⟩
    exact heq
  · intro heq
    exact ⟨heq, by simpa using h⟩

/-- What is stored of an attachment is read as it was if its MIME type is cut clean. -/
theorem sanitizeAttachment_out {v : Value} {a : Attachment} (h : sanitizeAttachment v = some a) :
    sanitizeAttachment a.out.value = some a ↔ CutsClean v := by
  obtain ⟨url, -, hallowed, rfl⟩ := sanitizeAttachment_eq_some.mp h
  have hagain {mimeType : Option Utf16} :
      sanitizeAttachment (Attachment.mk (trim url) mimeType).out.value
        = some ⟨trim url, keptMimeType (Attachment.mk (trim url) mimeType).out.value⟩ := by
    refine sanitizeAttachment_eq_some.mpr ⟨trim url, ?_, ?_, by rw [trim_trim]⟩
    · cases mimeType <;> rfl
    · rw [isAllowedUploadUrl_trim, hallowed]
  rw [hagain, Option.some_inj, Attachment.mk.injEq, and_iff_right rfl]
  by_cases hmime : ∃ t, v.get "mimeType" = some (.string t)
  · obtain ⟨t, ht⟩ := hmime
    have hclean : CutsClean v ↔ trimEnd ((trim t).take 120) = (trim t).take 120 := by
      refine ⟨fun hv => hv t ht, fun heq t' ht' => ?_⟩
      obtain rfl : t = t' := Value.string.inj (Option.some.inj (ht.symm.trans ht'))
      exact heq
    rw [hclean, keptMimeType_eq ht]
    by_cases hempty : (trim t).take 120 = []
    · rw [hempty]
      exact iff_of_true rfl rfl
    · have hsome : (some ((trim t).take 120)).filter (· ≠ []) = some ((trim t).take 120) := by
        simp [Option.filter, hempty]
      rw [hsome, ← keptMimeType_again hempty]
      exact Eq.congr_left (keptMimeType_eq rfl)
  · rw [not_exists] at hmime
    rw [keptMimeType_eq_none hmime]
    exact iff_of_true (keptMimeType_eq_none nofun) fun t ht => absurd ht (hmime t)

/-- A list of stored attachments is read as it was if each of them is. -/
theorem sanitizeAttachments_out {items : List Value} :
    sanitizeAttachments ((sanitizeAttachments items).map fun a => a.out.value)
        = sanitizeAttachments items
      ↔ ∀ v ∈ items, NamesUpload v → CutsClean v := by
  have hmap : ∀ as : List Attachment, (∀ a ∈ as, (sanitizeAttachment a.out.value).isSome) →
      (sanitizeAttachments (as.map fun a => a.out.value) = as
        ↔ ∀ a ∈ as, sanitizeAttachment a.out.value = some a) := by
    intro as
    induction as with
    | nil => simp [sanitizeAttachments]
    | cons a as ih =>
        intro hsome
        obtain ⟨b, hb⟩ := Option.isSome_iff_exists.mp (hsome a (List.mem_cons_self ..))
        have hrest := ih fun c hc => hsome c (List.mem_cons_of_mem _ hc)
        rw [List.map_cons, sanitizeAttachments, List.filterMap_cons_some hb, List.cons.injEq,
          List.forall_mem_cons, hb, Option.some_inj]
        exact and_congr_right fun _ => hrest
  have hsome (a : Attachment) (h : a ∈ sanitizeAttachments items) :
      (sanitizeAttachment a.out.value).isSome := by
    obtain ⟨v, -, hv⟩ := List.mem_filterMap.mp h
    obtain ⟨url, -, hallowed, rfl⟩ := sanitizeAttachment_eq_some.mp hv
    rw [← Option.ne_none_iff_isSome, ne_eq, sanitizeAttachment_eq_none, not_not]
    refine ⟨trim url, ?_, by rw [isAllowedUploadUrl_trim, hallowed]⟩
    cases keptMimeType v <;> rfl
  rw [hmap _ hsome]
  constructor
  · rintro h v hv ⟨url, hurl, hallowed⟩
    have hsanitized := sanitizeAttachment_eq_some.mpr ⟨url, hurl, hallowed, rfl⟩
    exact (sanitizeAttachment_out hsanitized).mp
      (h _ (List.mem_filterMap.mpr ⟨v, hv, hsanitized⟩))
  · intro h a ha
    obtain ⟨v, hv, hsanitized⟩ := List.mem_filterMap.mp ha
    obtain ⟨url, hurl, hallowed, -⟩ := sanitizeAttachment_eq_some.mp hsanitized
    exact (sanitizeAttachment_out hsanitized).mpr (h v hv ⟨url, hurl, hallowed⟩)

theorem sanitizeAttachments_eq_nil {items : List Value} :
    sanitizeAttachments items = [] ↔ ∀ v ∈ items, ¬NamesUpload v := by
  rw [sanitizeAttachments, List.filterMap_eq_nil_iff]
  exact forall₂_congr fun v _ => sanitizeAttachment_eq_none

/-! ## What is read -/

theorem decode_eq_some {data : Value} {p : Payload} (h : decode data = some p) :
    ∃ v body, data.get "v" = some (.number v) ∧ isOne v = true
      ∧ data.get "body" = some (.string body) ∧ p.body = body.take MAX_BODY_LENGTH
      ∧ ∀ a ∈ p.attachments, isAllowedUploadUrl a.url = true := by
  rw [decode] at h
  split at h
  · rename_i v body hv hbody
    split at h
    · rename_i hone
      obtain rfl := Option.some.inj h
      refine ⟨v, body, hv, hone, hbody, rfl, fun a ha => ?_⟩
      simp only at ha
      split at ha
      · exact allowed_of_mem ha
      · cases ha
    · cases h
  · cases h

/-- Every attachment that is read has an allowed URL. -/
theorem parseSupportPayload_allowed (raw : Utf16) :
    ∀ a ∈ (parseSupportPayload raw).attachments, isAllowedUploadUrl a.url = true := by
  intro a ha
  rw [parseSupportPayload] at ha
  split at ha
  · cases hdecoded : (parse (raw.drop PAYLOAD_PREFIX.length)).bind decode with
    | none =>
        rw [hdecoded] at ha
        cases ha
    | some p =>
        rw [hdecoded] at ha
        obtain ⟨data, -, hp⟩ := Option.bind_eq_some_iff.mp hdecoded
        obtain ⟨_, _, -, -, -, -, hallowed⟩ := decode_eq_some hp
        exact hallowed a ha
  · cases ha

/-- A text is read as a plain message if and only if it does not look like an encoded one:
the body of an encoded message is shorter than its text. -/
theorem parseSupportPayload_plain {raw : Utf16} :
    parseSupportPayload raw = ⟨raw, []⟩ ↔ ¬LooksEncoded raw := by
  constructor
  · rintro h ⟨hstart, data, v, body, hparse, hv, hone, hbody⟩
    have hdecode : ∃ attachments,
        decode data = some ⟨body.take MAX_BODY_LENGTH, attachments⟩ := by
      rw [decode, hv, hbody]
      simp only [hone, if_true]
      exact ⟨_, rfl⟩
    obtain ⟨attachments, hdecode⟩ := hdecode
    rw [parseSupportPayload, if_pos hstart, hparse, Option.bind_some, hdecode,
      Option.getD_some, Payload.mk.injEq] at h
    have hshort := length_get hparse hbody
    have hlength := congrArg List.length h.1
    rw [List.length_drop] at hshort
    rw [List.length_take] at hlength
    omega
  · intro h
    rw [parseSupportPayload]
    split
    · rename_i hstart
      cases hdecoded : (parse (raw.drop PAYLOAD_PREFIX.length)).bind decode with
      | none => rfl
      | some p =>
          obtain ⟨data, hparse, hp⟩ := Option.bind_eq_some_iff.mp hdecoded
          obtain ⟨v, body, hv, hone, hbody, -, -⟩ := decode_eq_some hp
          exact absurd ⟨hstart, data, v, body, hparse, hv, hone, hbody⟩ h
    · rfl

theorem itemValues_map (as : List Attachment) :
    itemValues (as.map Attachment.out) = as.map fun a => a.out.value := by
  induction as with
  | nil => rfl
  | cons a as ih => rw [List.map_cons, itemValues, ih, List.map_cons]

/-- An encoded message is read with its attachments sanitized again. -/
theorem parseSupportPayload_encoded {body : Utf16} (hbody : body.length ≤ MAX_BODY_LENGTH)
    (as : List Attachment) :
    parseSupportPayload (PAYLOAD_PREFIX ++ stringify (.record [("v", .whole 1),
        ("body", .text body), ("attachments", .list (as.map Attachment.out))]))
      = ⟨body, sanitizeAttachments (as.map fun a => a.out.value)⟩ := by
  rw [parseSupportPayload, if_pos (List.prefix_append _ _), List.drop_left, parse_stringify,
    Option.bind_some]
  have hv : (Out.record [("v", .whole 1), ("body", .text body),
      ("attachments", .list (as.map Attachment.out))]).value.get "v" = some (.number 1) := by
    simp [Out.value, fieldValues, Value.get, ascii, List.lookup_cons, List.lookup_nil]
  have hget : (Out.record [("v", .whole 1), ("body", .text body),
      ("attachments", .list (as.map Attachment.out))]).value.get "body"
        = some (.string body) := by
    simp [Out.value, fieldValues, Value.get, ascii, List.lookup_cons, List.lookup_nil]
  have hattachments : (Out.record [("v", .whole 1), ("body", .text body),
      ("attachments", .list (as.map Attachment.out))]).value.get "attachments"
        = some (.array (as.map fun a => a.out.value)) := by
    simp [Out.value, fieldValues, Value.get, ascii, itemValues_map]
  have hone : isOne 1 = true := by decide +kernel
  rw [decode, hv, hget]
  simp only [hone, if_true, hattachments, List.take_of_length_le hbody]
  rfl

/-- **Round trip.** A message is read as it was stored, and all that is read has allowed URLs,
if and only if it looks like no encoded one where it is stored as it is, and the MIME types
of its attachments are cut clean. -/
theorem support_roundtrip_iff (body : Utf16) (attachments : List Value) :
    (parseSupportPayload (serializeSupportPayload body attachments)
        = ⟨trimmedBody body, sanitizeAttachments (attachments.take MAX_ATTACHMENTS)⟩
      ∧ ∀ raw, ∀ a ∈ (parseSupportPayload raw).attachments, isAllowedUploadUrl a.url = true)
      ↔ ((∀ v ∈ attachments.take MAX_ATTACHMENTS, ¬NamesUpload v) →
          ¬LooksEncoded (trimmedBody body))
        ∧ ∀ v ∈ attachments.take MAX_ATTACHMENTS, NamesUpload v → CutsClean v := by
  rw [and_iff_left parseSupportPayload_allowed, serializeSupportPayload]
  by_cases hsafe : sanitizeAttachments (attachments.take MAX_ATTACHMENTS) = []
  · have hnone := sanitizeAttachments_eq_nil.mp hsafe
    rw [if_pos hsafe, hsafe, parseSupportPayload_plain]
    constructor
    · intro h
      exact ⟨fun _ => h, fun v hv hnames => absurd hnames (hnone v hv)⟩
    · intro h
      exact h.1 hnone
  · rw [if_neg hsafe, parseSupportPayload_encoded (length_trimmedBody body), Payload.mk.injEq,
      and_iff_right rfl, sanitizeAttachments_out]
    rw [sanitizeAttachments_eq_nil] at hsafe
    exact (and_iff_right fun h => absurd h hsafe).symm

/-- A message that a user can type: the prefix with `{"v":1,"body":"x"}` behind it. -/
theorem typed_prefix_read_as_encoded :
    let body := PAYLOAD_PREFIX ++ stringify (.record [("v", .whole 1), ("body", .text [120])])
    parseSupportPayload (serializeSupportPayload body [])
      ≠ ⟨trimmedBody body, sanitizeAttachments ([].take MAX_ATTACHMENTS)⟩ := by
  decide +kernel

end BlockMiner.SupportPayload
