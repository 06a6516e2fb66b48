import BlockMiner.IframeHosts
import BlockMiner.JsonSyntax
import BlockMiner.OrdMap
import BlockMiner.RewardsPaid
import Mathlib.Data.List.Infix

/-!
# The URLs and the metadata of internal offers

What `RewardDefinitions` leaves open of `parseAdminOfferBody`: the check of an
offer's URL, for a list of hosts that stays as it is while hosts are added to
the table, and `internalOfferwallTaskMetadata.js`.

Metadata that was normalized stays as it is when it is normalized again if its
note does (`normalizeTaskMetadata_again`): a note is trimmed before it is cut.

A cut through a pair of surrogates drops both.
-/

namespace BlockMiner.RewardDefinitions

open IframeHosts (UrlApi Allowlist Answer validateIframeUrl isDottedQuad)

/-! ## The URL of an offer -/

/-- The message of a refusal, if there is one. -/
def validateFrameHostnameForStorage (host : String) : Option String :=
  let h := toLowerCase (trim host)
  let isHostChar := fun c : Char => ('a' ≤ c && c ≤ 'z') || c.isDigit || c = '.' || c = '-'
  if h = "" ∨ h = "localhost" ∨ 253 < utf16Length h then some "Invalid iframe hostname."
  else if h.toList.all isHostChar = false ∨ h.toList.head? = some '.'
      ∨ h.toList.getLast? = some '.' ∨ "..".toList <:+: h.toList then
    some "Invalid iframe hostname."
  else if isDottedQuad h then some "IP addresses are not allowed as iframe hosts."
  else none

section Urls

variable (api : UrlApi) (allowHttp : Bool) (allowedHosts : Allowlist)

/-- A host that is not allowed is added to the table, and the list read again. -/
def offerUrl (rawUrl : String) : Except Refusal String :=
  match validateIframeUrl api rawUrl allowHttp allowedHosts with
  | .ok url => .ok url
  | .refused _ message none => refuse message
  | .refused code message (some host) =>
      if code = "IFRAME_URL_NOT_ALLOWED" then
        refuse ((validateFrameHostnameForStorage host).getD message)
      else refuse message

end Urls

/-! ## `internalOfferwallTaskMetadata.js` -/

def asObject (raw : Body) : Option (Json JsNumber) :=
  match raw with
  | some (.object fields) => some (.object fields)
  | some (.string s) =>
      (JsonSyntax.parse s).bind fun v =>
        match v with
        | .object fields => some (.object fields)
        | _ => none
  | _ => none

/-- `/^[A-Z]{2}$/` -/
def isCountryCode (u : String) : Bool :=
  match u.toList with
  | [a, b] => ('A' ≤ a && a ≤ 'Z') && ('A' ≤ b && b ≤ 'Z')
  | _ => false

structure TaskMetadata where
  requiredActions : List String
  targetCountryCodes : List String
  externalInfoUrl : Option String
  verificationNote : Option String

def listField (key : String) (texts : List String) : List (String × Json JsNumber) :=
  if texts = [] then [] else [(key, .array (texts.map .string))]

def textField (key : String) (text : Option String) : List (String × Json JsNumber) :=
  text.elim [] fun s => [(key, .string s)]

def TaskMetadata.fields (m : TaskMetadata) : List (String × Json JsNumber) :=
  listField "requiredActions" m.requiredActions
    ++ listField "targetCountryCodes" m.targetCountryCodes
    ++ textField "externalInfoUrl" m.externalInfoUrl
    ++ textField "verificationNote" m.verificationNote

/-- `Object.keys(out).length ? out : null` -/
def TaskMetadata.json (m : TaskMetadata) : Json JsNumber :=
  if m.fields = [] then .null else .object m.fields

section Metadata

variable (env : Env)

def requiredAction (a : Json JsNumber) : Except Refusal String := do
  let s := trim (← stringOr env (some a))
  refuseIf (500 < utf16Length s) "Each required action must be at most 500 characters."
  return s

def targetCountryCode (c : Json JsNumber) : Except Refusal String := do
  let u := toUpperCase (trim (← stringOr env (some c)))
  refuseIf (!isCountryCode u) "targetCountryCodes must be ISO 3166-1 alpha-2 codes."
  return u

/-- The texts of a list, which may be left out. -/
def textsOf (limit : ℕ) (text : Json JsNumber → Except Refusal String)
    (notArray tooMany : String) (value : Body) : Except Refusal (List String) :=
  match value with
  | none => .ok []
  | some (.array items) => do
      refuseIf (limit < items.length) tooMany
      items.mapM text
  | some _ => refuse notArray

def requiredActionsOf (value : Body) : Except Refusal (List String) := do
  return (← textsOf 15 (requiredAction env) "taskMetadata.requiredActions must be an array."
    "taskMetadata.requiredActions allows at most 15 items." value).filter (· ≠ "")

def targetCountryCodesOf (value : Body) : Except Refusal (List String) :=
  textsOf 60 (targetCountryCode env) "taskMetadata.targetCountryCodes must be an array."
    "taskMetadata.targetCountryCodes allows at most 60 items." value

def externalInfoUrlOf (kind : String) (value : Body) : Except Refusal (Option String) := do
  match ← givenText env value with
  | none => return none
  | some ext => do
      refuseIf (kind ≠ OFFER_KIND_GENERAL_TASK)
        "externalInfoUrl is only allowed for GENERAL_TASK offers."
      return some (← env.iframeUrl ext)

/-- `text.trim().slice(0, n)` -/
def cutText (n : ℕ) (text : String) : String := String.ofList (sliceUnits n (trim text).toList)

def verificationNoteOf (value : Body) : Except Refusal (Option String) := do
  return (← givenText env value).map (cutText 2000)

def taskMetadataOf (kind : String) (obj : Json JsNumber) : Except Refusal TaskMetadata := do
  return {
    requiredActions := ← requiredActionsOf env (obj.get "requiredActions")
    targetCountryCodes := ← targetCountryCodesOf env (obj.get "targetCountryCodes")
    externalInfoUrl := ← externalInfoUrlOf env kind (obj.get "externalInfoUrl")
    verificationNote := ← verificationNoteOf env (obj.get "verificationNote") }

def normalizeTaskMetadata (kind : String) (raw : Body) : Except Refusal Body :=
  match asObject raw with
  | none => .ok (some .null)
  | some obj => do return some (← taskMetadataOf env kind obj).json

end Metadata

/-- The environment of `parseAdminOfferBody` with both. -/
def offerEnv (env : Env) (api : UrlApi) (allowHttp : Bool) (allowedHosts : Allowlist) : Env :=
  let env := { env with iframeUrl := offerUrl api allowHttp allowedHosts }
  { env with normalizeTaskMetadata := normalizeTaskMetadata env }

/-! ## Texts that were cut -/

theorem sliceUnits_cons {n : ℕ} {c : Char} {cs : List Char} (h : 2 ≤ n) :
    sliceUnits n (c :: cs) = c :: sliceUnits (n - if c.toNat < 0x10000 then 1 else 2) cs :=
  if_neg (by split <;> omega)

theorem sliceUnits_initial (n : ℕ) (cs : List Char) : sliceUnits n cs <+: cs := by
  induction cs generalizing n with
  | nil => exact List.prefix_rfl
  | cons c cs ih =>
      by_cases h : n < if c.toNat < 0x10000 then 1 else 2
      · have hnil : sliceUnits n (c :: cs) = [] := if_pos h
        rw [hnil]
        exact List.nil_prefix
      · have hcons : sliceUnits n (c :: cs)
            = c :: sliceUnits (n - if c.toNat < 0x10000 then 1 else 2) cs := if_neg h
        rw [hcons]
        exact List.cons_prefix_cons.mpr ⟨rfl, ih _⟩

theorem sliceUnits_sliceUnits (n : ℕ) (cs : List Char) :
    sliceUnits n (sliceUnits n cs) = sliceUnits n cs := by
  induction cs generalizing n with
  | nil => rfl
  | cons c cs ih =>
      by_cases h : n < if c.toNat < 0x10000 then 1 else 2
      · have hnil : sliceUnits n (c :: cs) = [] := if_pos h
        rw [hnil, sliceUnits]
      · have hcons (ds : List Char) : sliceUnits n (c :: ds)
            = c :: sliceUnits (n - if c.toNat < 0x10000 then 1 else 2) ds := if_neg h
        rw [hcons, hcons, ih]

theorem trimStr_sublist (cs : List Char) : (trimStr cs).Sublist cs :=
  (List.rdropWhile_prefix isStrWhiteSpaceChar _).sublist.trans
    (List.dropWhile_suffix isStrWhiteSpaceChar).sublist

theorem trim_eq_empty_iff {s : String} :
    trim s = "" ↔ ∀ c ∈ s.toList, isStrWhiteSpaceChar c = true := by
  have hempty : trim s = "" ↔ trimStr s.toList = [] := by
    rw [← String.toList_inj, trim, String.toList_ofList]
    rfl
  have htrim : trimStr s.toList
      = (s.toList.dropWhile isStrWhiteSpaceChar).rdropWhile isStrWhiteSpaceChar := rfl
  rw [hempty, htrim, List.rdropWhile_eq_nil_iff]
  constructor
  · intro h
    have hnil : s.toList.dropWhile isStrWhiteSpaceChar = [] := by
      by_contra hne
      have hhead := List.head_dropWhile_not isStrWhiteSpaceChar hne
      rw [h _ (List.head_mem hne)] at hhead
      cases hhead
    exact List.dropWhile_eq_nil_iff.mp hnil
  · intro h c hc
    exact h c ((List.dropWhile_suffix isStrWhiteSpaceChar).subset hc)

/-- A trimmed text starts with no white space. -/
theorem head_trim {s : String} {c : Char} {cs : List Char} (h : (trim s).toList = c :: cs) :
    isStrWhiteSpaceChar c = false := by
  by_contra hspace
  have hdrop : trimStr (c :: cs) = trimStr cs := by
    rw [trimStr, List.dropWhile_cons_of_pos (by simpa using hspace), trimStr]
  have hagain : trimStr (c :: cs) = c :: cs := by
    rw [← h, ← String.toList_ofList (l := trimStr (trim s).toList)]
    exact congrArg String.toList (trim_trim s)
  have hle := (trimStr_sublist cs).length_le
  rw [← hdrop, hagain, List.length_cons] at hle
  omega

/-- A cut text is cut to itself again if it ends in no white space. -/
theorem cutText_again {n : ℕ} {s d : String} (hd : d = cutText n s) :
    cutText n d = d ↔ trim d = d := by
  constructor
  · intro h
    have hslice : sliceUnits n (trim d).toList = d.toList := by
      rw [← String.toList_ofList (l := sliceUnits n (trim d).toList)]
      exact congrArg String.toList h
    have hlength := (sliceUnits_initial n (trim d).toList).length_le
    rw [hslice] at hlength
    rw [trim, String.toList_ofList] at hlength
    have htrim := (trimStr_sublist d.toList).eq_of_length_le hlength
    rw [trim, htrim, String.ofList_toList]
  · intro h
    rw [cutText, h, hd, cutText, String.toList_ofList, sliceUnits_sliceUnits]

theorem trim_cutText_ne_empty {n : ℕ} {s : String} (hn : 2 ≤ n) (h : trim s ≠ "") :
    trim (cutText n s) ≠ "" := by
  rw [Ne, trim_eq_empty_iff, cutText, String.toList_ofList]
  cases hchars : (trim s).toList with
  | nil => exact absurd (String.toList_injective hchars) h
  | cons c cs =>
      intro hspace
      have hc := hspace c (by simp [sliceUnits_cons hn])
      rw [head_trim hchars] at hc
      cases hc

/-! ## Fields -/

theorem get_eq_some_iff {fields : List (String × Json JsNumber)} {key : String}
    {v : Json JsNumber} (h : (fields.map Prod.fst).Nodup) :
    Json.get key (.object fields) = some v ↔ (key, v) ∈ fields := by
  have hnodup : (fields.reverse.map Prod.fst).Nodup := by
    rwa [List.map_reverse, List.nodup_reverse]
  rw [Json.get, OrdMap.lookup_eq_some_iff_mem hnodup, List.mem_reverse]

theorem mem_listField {key k : String} {texts : List String} {v : Json JsNumber} :
    (k, v) ∈ listField key texts ↔ k = key ∧ texts ≠ [] ∧ v = .array (texts.map .string) := by
  unfold listField
  split
  case isTrue h => simp [h]
  case isFalse h => simp [h]

theorem mem_textField {key k : String} {text : Option String} {v : Json JsNumber} :
    (k, v) ∈ textField key text ↔ k = key ∧ ∃ s, text = some s ∧ v = .string s := by
  cases text with
  | none => simp [textField]
  | some s => simp [textField]

theorem TaskMetadata.nodup_fields (m : TaskMetadata) : (m.fields.map Prod.fst).Nodup := by
  have hlist (key : String) (texts : List String) :
      ((listField key texts).map Prod.fst).Sublist [key] := by
    unfold listField
    split
    · exact List.nil_sublist _
    · exact List.Sublist.refl _
  have htext (key : String) (text : Option String) :
      ((textField key text).map Prod.fst).Sublist [key] := by
    cases text with
    | none => exact List.nil_sublist _
    | some s => exact List.Sublist.refl _
  have hkeys := (((hlist "requiredActions" m.requiredActions).append
    (hlist "targetCountryCodes" m.targetCountryCodes)).append
    (htext "externalInfoUrl" m.externalInfoUrl)).append
    (htext "verificationNote" m.verificationNote)
  rw [← List.map_append, ← List.map_append, ← List.map_append] at hkeys
  exact hkeys.nodup (by decide)

/-- Metadata without fields is `null`, which has none either. -/
theorem TaskMetadata.get_json {m : TaskMetadata} {key : String} {v : Json JsNumber} :
    m.json.get key = some v ↔ (key, v) ∈ m.fields := by
  unfold TaskMetadata.json
  split
  case isTrue h => simp [h, Json.get]
  case isFalse h => exact get_eq_some_iff m.nodup_fields

def listValue (texts : List String) : Body :=
  if texts = [] then none else some (.array (texts.map .string))

theorem get_requiredActions (m : TaskMetadata) :
    m.json.get "requiredActions" = listValue m.requiredActions := by
  ext v
  rw [TaskMetadata.get_json, listValue]
  simp [TaskMetadata.fields, mem_listField, mem_textField, eq_comm]

theorem get_targetCountryCodes (m : TaskMetadata) :
    m.json.get "targetCountryCodes" = listValue m.targetCountryCodes := by
  ext v
  rw [TaskMetadata.get_json, listValue]
  simp [TaskMetadata.fields, mem_listField, mem_textField, eq_comm]

theorem get_externalInfoUrl (m : TaskMetadata) :
    m.json.get "externalInfoUrl" = m.externalInfoUrl.map .string := by
  ext v
  rw [TaskMetadata.get_json]
  simp [TaskMetadata.fields, mem_listField, mem_textField, eq_comm]

theorem get_verificationNote (m : TaskMetadata) :
    m.json.get "verificationNote" = m.verificationNote.map .string := by
  ext v
  rw [TaskMetadata.get_json]
  simp [TaskMetadata.fields, mem_listField, mem_textField, eq_comm]

/-! ## Normalizing again -/

section Again

variable {env : Env}

theorem mapM_texts {text : Json JsNumber → Except Refusal String} {texts : List String}
    (h : ∀ s ∈ texts, text (.string s) = .ok s) : (texts.map .string).mapM text = .ok texts := by
  induction texts with
  | nil => rfl
  | cons s texts ih =>
      rw [List.map_cons, List.mapM_cons, h s List.mem_cons_self,
        ih fun t ht => h t (List.mem_cons_of_mem s ht)]
      rfl

theorem mapM_eq_ok {text : Json JsNumber → Except Refusal String} {items : List (Json JsNumber)}
    {texts : List String} (h : items.mapM text = .ok texts) :
    texts.length = items.length ∧ ∀ s ∈ texts, ∃ item, text item = .ok s := by
  induction items generalizing texts with
  | nil =>
      obtain rfl := Except.ok.inj h
      simp
  | cons item items ih =>
      rw [List.mapM_cons] at h
      obtain ⟨s, hs, h⟩ := bind_eq_ok h
      obtain ⟨rest, hrest, h⟩ := bind_eq_ok h
      obtain rfl := Except.ok.inj h
      obtain ⟨hlength, hmem⟩ := ih hrest
      refine ⟨by simp [hlength], fun t ht => ?_⟩
      rcases List.mem_cons.mp ht with rfl | ht
      · exact ⟨item, hs⟩
      · exact hmem t ht

theorem textsOf_eq_ok {limit : ℕ} {text : Json JsNumber → Except Refusal String}
    {notArray tooMany : String} {value : Body} {texts : List String}
    (h : textsOf limit text notArray tooMany value = .ok texts) :
    texts.length ≤ limit ∧ ∀ s ∈ texts, ∃ item, text item = .ok s := by
  unfold textsOf at h
  split at h
  case h_1 =>
    obtain rfl := Except.ok.inj h
    simp
  case h_2 items =>
    obtain ⟨_, hfew, h⟩ := bind_eq_ok h
    obtain ⟨hlength, hmem⟩ := mapM_eq_ok h
    have hle : items.length ≤ limit := by simpa using refuseIf_eq_ok.mp hfew
    exact ⟨hlength ▸ hle, hmem⟩
  case h_3 => cases h

theorem textsOf_listValue {limit : ℕ} {text : Json JsNumber → Except Refusal String}
    {notArray tooMany : String} {texts : List String} (hlimit : texts.length ≤ limit)
    (h : ∀ s ∈ texts, text (.string s) = .ok s) :
    textsOf limit text notArray tooMany (listValue texts) = .ok texts := by
  unfold listValue
  split
  case isTrue hnil => rw [hnil, textsOf]
  case isFalse =>
    have hfew : refuseIf (limit < (texts.map (Json.string (ν := JsNumber))).length) tooMany
        = .ok () := refuseIf_eq_ok.mpr (by simpa using hlimit)
    rw [textsOf, hfew]
    exact mapM_texts h

theorem requiredAction_again {item : Json JsNumber} {s : String}
    (h : requiredAction env item = .ok s) : requiredAction env (.string s) = .ok s := by
  obtain ⟨text, -, h⟩ := bind_eq_ok h
  obtain ⟨_, hlength, h⟩ := bind_eq_ok h
  obtain rfl := Except.ok.inj h
  have hread : stringOr env (some (.string (trim text))) = .ok (trim text) := rfl
  rw [requiredAction, hread]
  simp only [bind, Except.bind, trim_trim, hlength]
  rfl

theorem upper_letter {c : Char} (h : ('A' ≤ c && c ≤ 'Z') = true) :
    isStrWhiteSpaceChar c = false ∧ upperChar c = [c] := by
  have hall : ∀ n < 91, 65 ≤ n → isStrWhiteSpaceChar (Char.ofNat n) = false
      ∧ upperChar (Char.ofNat n) = [Char.ofNat n] := by decide
  simp only [Bool.and_eq_true, decide_eq_true_eq, Char.le_def, UInt32.le_iff_toNat_le] at h
  have hc := hall c.toNat (Nat.lt_succ_of_le h.2) h.1
  rwa [Char.ofNat_toNat] at hc

theorem isCountryCode_again {u : String} (h : isCountryCode u = true) :
    trim u = u ∧ toUpperCase u = u := by
  unfold isCountryCode at h
  split at h
  case h_1 a b hu =>
    rw [Bool.and_eq_true] at h
    obtain ⟨haspace, ha⟩ := upper_letter h.1
    obtain ⟨hbspace, hb⟩ := upper_letter h.2
    constructor
    · rw [trim, hu, ← String.ofList_toList (s := u), hu]
      simp [trimStr, haspace, hbspace]
    · rw [toUpperCase, hu, ← String.ofList_toList (s := u), hu]
      simp [ha, hb]
  case h_2 => cases h

theorem targetCountryCode_again {item : Json JsNumber} {u : String}
    (h : targetCountryCode env item = .ok u) : targetCountryCode env (.string u) = .ok u := by
  obtain ⟨text, -, h⟩ := bind_eq_ok h
  obtain ⟨_, hcode, h⟩ := bind_eq_ok h
  obtain rfl := Except.ok.inj h
  obtain ⟨htrim, hupper⟩ := isCountryCode_again (by simpa using refuseIf_eq_ok.mp hcode)
  generalize toUpperCase (trim text) = u at htrim hupper hcode ⊢
  have hread : stringOr env (some (.string u)) = .ok u := rfl
  rw [targetCountryCode, hread]
  simp only [bind, Except.bind, htrim, hupper, hcode]
  rfl

theorem requiredActionsOf_again {value : Body} {actions : List String}
    (h : requiredActionsOf env value = .ok actions) :
    requiredActionsOf env (listValue actions) = .ok actions := by
  obtain ⟨texts, htexts, h⟩ := bind_eq_ok h
  obtain rfl := Except.ok.inj h
  obtain ⟨hlength, hmem⟩ := textsOf_eq_ok htexts
  have hagain (s : String) (hs : s ∈ texts.filter (· ≠ "")) :
      requiredAction env (.string s) = .ok s := by
    obtain ⟨item, hitem⟩ := hmem s (List.mem_of_mem_filter hs)
    exact requiredAction_again hitem
  have hkept : (texts.filter (· ≠ "")).filter (· ≠ "") = texts.filter (· ≠ "") :=
    List.filter_eq_self.mpr fun s hs => (List.mem_filter.mp hs).2
  rw [requiredActionsOf, textsOf_listValue ((List.length_filter_le _ _).trans hlength) hagain]
  exact congrArg Except.ok hkept

theorem targetCountryCodesOf_again {value : Body} {codes : List String}
    (h : targetCountryCodesOf env value = .ok codes) :
    targetCountryCodesOf env (listValue codes) = .ok codes := by
  obtain ⟨hlength, hmem⟩ := textsOf_eq_ok h
  refine textsOf_listValue hlength fun u hu => ?_
  obtain ⟨item, hitem⟩ := hmem u hu
  exact targetCountryCode_again hitem

theorem givenText_eq_ok {value : Body} {s : String} (h : givenText env value = .ok (some s)) :
    trim s ≠ "" := by
  unfold givenText at h
  split at h
  case h_1 => cases h
  case h_2 => cases h
  case h_3 =>
    obtain ⟨text, -, h⟩ := bind_eq_ok h
    have h := Except.ok.inj h
    split at h
    · cases h
    · obtain rfl := Option.some.inj h
      assumption

theorem givenText_string {s : String} (h : trim s ≠ "") :
    givenText env (some (.string s)) = .ok (some s) := by
  change Except.ok (if trim s = "" then none else some s) = _
  rw [if_neg h]

/-- A frame has no further URL. -/
theorem externalInfoUrlOf_eq_none {kind : String} {value : Body} {url : Option String}
    (hkind : kind ≠ OFFER_KIND_GENERAL_TASK) (h : externalInfoUrlOf env kind value = .ok url) :
    url = none := by
  obtain ⟨given, -, h⟩ := bind_eq_ok h
  cases given with
  | none => exact (Except.ok.inj h).symm
  | some ext =>
      obtain ⟨_, hrefused, -⟩ := bind_eq_ok h
      exact absurd hkind (by simpa using refuseIf_eq_ok.mp hrefused)

theorem verificationNoteOf_eq_ok {value : Body} {note : Option String}
    (h : verificationNoteOf env value = .ok note) :
    ∀ n ∈ note, ∃ s, n = cutText 2000 s ∧ trim s ≠ "" := by
  obtain ⟨given, hgiven, h⟩ := bind_eq_ok h
  obtain rfl := Except.ok.inj h
  intro n hn
  obtain ⟨s, rfl, rfl⟩ := Option.map_eq_some_iff.mp hn
  exact ⟨s, rfl, givenText_eq_ok hgiven⟩

theorem verificationNoteOf_again {value : Body} {note : Option String}
    (h : verificationNoteOf env value = .ok note) :
    verificationNoteOf env (note.map .string) = .ok (note.map (cutText 2000)) := by
  cases note with
  | none => rfl
  | some n =>
      obtain ⟨s, rfl, hs⟩ := verificationNoteOf_eq_ok h n rfl
      rw [verificationNoteOf, Option.map_some,
        givenText_string (trim_cutText_ne_empty (by norm_num) hs)]
      rfl

/-- The metadata of a frame comes back with its note cut again. -/
theorem taskMetadataOf_again {kind : String} {obj : Json JsNumber} {m : TaskMetadata}
    (hkind : kind ≠ OFFER_KIND_GENERAL_TASK) (h : taskMetadataOf env kind obj = .ok m) :
    taskMetadataOf env kind m.json
      = .ok { m with verificationNote := m.verificationNote.map (cutText 2000) } := by
  obtain ⟨actions, hactions, h⟩ := bind_eq_ok h
  obtain ⟨codes, hcodes, h⟩ := bind_eq_ok h
  obtain ⟨url, hurl, h⟩ := bind_eq_ok h
  obtain ⟨note, hnote, h⟩ := bind_eq_ok h
  obtain rfl := Except.ok.inj h
  obtain rfl := externalInfoUrlOf_eq_none hkind hurl
  rw [taskMetadataOf, get_requiredActions, get_targetCountryCodes, get_externalInfoUrl,
    get_verificationNote, requiredActionsOf_again hactions, targetCountryCodesOf_again hcodes,
    verificationNoteOf_again hnote]
  rfl

theorem TaskMetadata.json_cut_iff {m : TaskMetadata} :
    { m with verificationNote := m.verificationNote.map (cutText 2000) }.json = m.json
      ↔ ∀ n ∈ m.verificationNote, cutText 2000 n = n := by
  constructor
  · intro h n hn
    have hnote := congrArg (Json.get "verificationNote") h
    rw [get_verificationNote, get_verificationNote, Option.mem_def.mp hn] at hnote
    simpa using hnote
  · intro h
    have hnote : m.verificationNote.map (cutText 2000) = m.verificationNote := by
      cases hm : m.verificationNote with
      | none => rfl
      | some n => rw [Option.map_some, h n hm]
    rw [hnote]

theorem normalizeTaskMetadata_json {kind : String} {m again : TaskMetadata}
    (h : taskMetadataOf env kind m.json = .ok again) (hempty : m.fields = [] → again = m) :
    normalizeTaskMetadata env kind (some m.json) = .ok (some again.json) := by
  by_cases hfields : m.fields = []
  · have hnull : m.json = .null := if_pos hfields
    rw [hempty hfields, hnull]
    rfl
  · have hobject : m.json = .object m.fields := if_neg hfields
    have hread : normalizeTaskMetadata env kind (some m.json)
        = (taskMetadataOf env kind m.json).bind fun again => .ok (some again.json) := by
      rw [hobject]
      rfl
    rw [hread, h]
    rfl

/-- The metadata of a frame stays as it is if its note is trimmed. -/
theorem normalizeTaskMetadata_again {kind : String} {raw : Body} {metadata : Json JsNumber}
    (hkind : kind ≠ OFFER_KIND_GENERAL_TASK)
    (h : normalizeTaskMetadata env kind raw = .ok (some metadata)) :
    normalizeTaskMetadata env kind (some metadata) = .ok (some metadata)
      ↔ ∀ n, metadata.get "verificationNote" = some (.string n) → trim n = n := by
  unfold normalizeTaskMetadata at h
  split at h
  case h_1 =>
    obtain rfl := Option.some.inj (Except.ok.inj h)
    simp [normalizeTaskMetadata, asObject, Json.get]
  case h_2 obj hobj =>
    obtain ⟨m, hm, h⟩ := bind_eq_ok h
    obtain rfl := Option.some.inj (Except.ok.inj h)
    have hcut : ∀ n ∈ m.verificationNote, cutText 2000 n = n ↔ trim n = n := by
      obtain ⟨_, _, hm⟩ := bind_eq_ok hm
      obtain ⟨_, _, hm⟩ := bind_eq_ok hm
      obtain ⟨_, _, hm⟩ := bind_eq_ok hm
      obtain ⟨note, hnote, hm⟩ := bind_eq_ok hm
      obtain rfl := Except.ok.inj hm
      intro n hn
      obtain ⟨s, hs, -⟩ := verificationNoteOf_eq_ok hnote n hn
      exact cutText_again hs
    have hempty (hfields : m.fields = []) :
        { m with verificationNote := m.verificationNote.map (cutText 2000) } = m := by
      have hnone : m.verificationNote = none := by
        refine Option.eq_none_iff_forall_not_mem.mpr fun n hn => ?_
        have hmem : ("verificationNote", Json.string n) ∈ m.fields := by
          rw [← TaskMetadata.get_json, get_verificationNote, Option.mem_def.mp hn, Option.map_some]
        rw [hfields] at hmem
        cases hmem
      rw [hnone, Option.map_none, ← hnone]
    rw [normalizeTaskMetadata_json (taskMetadataOf_again hkind hm) hempty, Except.ok.injEq,
      Option.some.injEq, TaskMetadata.json_cut_iff, get_verificationNote]
    simp only [Option.map_eq_some_iff, Json.string.injEq, exists_eq_right]
    exact forall₂_congr hcut

end Again

end BlockMiner.RewardDefinitions
