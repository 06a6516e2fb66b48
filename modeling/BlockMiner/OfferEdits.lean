import BlockMiner.OfferParsed
import BlockMiner.Units

/-!
# Saving an offer as it is

`patchOffer` of `adminInternalOfferwallController.js` merges a stored offer with
the body of the request and parses it as a new offer. With an empty body the
offer should stay as it is. It does if (`patch_unedited_iff`) it frames a page
and not a task's, if its URL, which grows when it is encoded, is not too long by
now, and if neither its description nor its note ends in white space where it
was cut.

Of the columns of an offer the times are left out.
-/

namespace BlockMiner.RewardDefinitions

open IframeHosts (UrlApi Allowlist portApi exampleHosts)

/-! ## Rows -/

structure OfferRow where
  kind : String
  title : String
  description : Option String
  iframeUrl : Option String
  minViewSeconds : ℤ
  reward : Reward Decimal20_8
  dailyLimitPerUser : ℤ
  sortOrder : ℤ
  isActive : Bool
  completionMode : String
  taskMetadata : Json JsNumber

def InternalOfferwallOffer.row (data : InternalOfferwallOffer) (reward : Reward Decimal20_8) :
    OfferRow where
  kind := data.kind
  title := data.title
  description := data.description
  iframeUrl := data.iframeUrl
  minViewSeconds := data.minViewSeconds
  reward := reward
  dailyLimitPerUser := data.dailyLimitPerUser
  sortOrder := data.sortOrder
  isActive := data.isActive
  completionMode := data.completionMode
  taskMetadata := data.taskMetadata.getD .null

def adminCreateOffer (data : InternalOfferwallOffer) : Option OfferRow :=
  data.reward.store.map data.row

/-- An update leaves the columns of other kinds of rewards as they are. -/
def Reward.patched (old new : Reward Decimal20_8) : Reward Decimal20_8 :=
  { new with
    hashRate := new.hashRate.or old.hashRate
    hashRateDays := new.hashRateDays.or old.hashRateDays
    blkAmount := new.blkAmount.or old.blkAmount
    polAmount := new.polAmount.or old.polAmount }

def adminPatchOffer (row : OfferRow) (data : InternalOfferwallOffer) : Option OfferRow :=
  data.reward.store.map fun reward => data.row (row.reward.patched reward)

/-- The row that was stored of some data. -/
inductive StoredOffer (data : InternalOfferwallOffer) : OfferRow → Prop
  | created {row : OfferRow} (h : adminCreateOffer data = some row) : StoredOffer data row
  | patched (old : OfferRow) {row : OfferRow} (h : adminPatchOffer old data = some row) :
      StoredOffer data row

section Patch

variable (env : Env)

def numberOrNull (x : Option JsNumber) : Json JsNumber := x.elim .null .number

/-- `Number(decimal)` -/
def decimalNumber (d : Decimal20_8) : JsNumber := env.double (.finite (units d.units))

def plainMetadata (row : OfferRow) : Json JsNumber :=
  if row.taskMetadata.isObject then row.taskMetadata else .null

def offerToPlain (row : OfferRow) : List (String × Json JsNumber) := [
  ("kind", .string row.kind),
  ("title", .string row.title),
  ("description", textOrNull row.description),
  ("iframeUrl", textOrNull row.iframeUrl),
  ("minViewSeconds", .number (.finite row.minViewSeconds)),
  ("rewardKind", .string row.reward.rewardKind),
  ("rewardBlkAmount", numberOrNull (row.reward.blkAmount.map (decimalNumber env))),
  ("rewardPolAmount", numberOrNull (row.reward.polAmount.map (decimalNumber env))),
  ("rewardHashRate", numberOrNull (row.reward.hashRate.map .finite)),
  ("rewardHashRateDays", numberOrNull (row.reward.hashRateDays.map fun n : ℤ => .finite n)),
  ("dailyLimitPerUser", .number (.finite row.dailyLimitPerUser)),
  ("sortOrder", .number (.finite row.sortOrder)),
  ("isActive", .bool row.isActive),
  ("completionMode", .string row.completionMode),
  ("taskMetadata", plainMetadata row)]

/-- The row after a request with the fields of its body, unless the database refuses it. -/
def patchOffer (row : OfferRow) (body : List (String × Json JsNumber)) :
    Except Refusal (Option OfferRow) := do
  let data ← parseAdminOfferBody env (some (.object (offerToPlain env row ++ body)))
  return adminPatchOffer row data

end Patch

/-! ## The reward of a row -/

/-- Amounts in whole units. -/
structure WholeUnits (r : Reward JsNumber) : Prop where
  blkAmount : ∀ q, r.blkAmount = some (.finite q) → ∃ m, q = units m
  polAmount : ∀ q, r.polAmount = some (.finite q) → ∃ m, q = units m

section Rewards

variable {env : Env}

theorem Reward.patched_self (s : Reward Decimal20_8) : s.patched s = s := by
  simp [Reward.patched]

theorem Reward.patched_patched (old s : Reward Decimal20_8) :
    (old.patched s).patched s = old.patched s := by
  simp [Reward.patched, ← Option.or_assoc]

theorem store_hashRateDays {r : Reward JsNumber} {s : Reward Decimal20_8} (h : r.store = some s) :
    s.hashRateDays = r.hashRateDays := by
  obtain ⟨_, -, h⟩ := Option.bind_eq_some_iff.mp h
  obtain ⟨_, -, h⟩ := Option.bind_eq_some_iff.mp h
  obtain ⟨days, hdays, h⟩ := Option.bind_eq_some_iff.mp h
  obtain ⟨_, -, h⟩ := Option.bind_eq_some_iff.mp h
  obtain ⟨_, -, h⟩ := Option.bind_eq_some_iff.mp h
  obtain rfl := Option.some.inj h
  exact intColumn_eq hdays

/-- Storing the same data again leaves the row as it is. -/
theorem StoredOffer.row_eq {data : InternalOfferwallOffer} {row : OfferRow}
    (h : StoredOffer data row) :
    ∃ s r, data.reward.store = some s ∧ row = data.row r ∧ r.patched s = r := by
  cases h with
  | created h =>
      obtain ⟨s, hs, rfl⟩ := Option.map_eq_some_iff.mp h
      exact ⟨s, s, hs, rfl, s.patched_self⟩
  | patched old h =>
      obtain ⟨s, hs, rfl⟩ := Option.map_eq_some_iff.mp h
      exact ⟨s, _, hs, rfl, old.reward.patched_patched s⟩

/-- A column that was filled is filled in the row. -/
theorem or_eq_some {α : Type} {new old : Option α} {a : α} (h : new.or old = old)
    (ha : new = some a) : old = some a := by
  rw [← h, ha, Option.some_or]

theorem roundUnits_units (m : ℤ) : roundUnits (units m) = m := by
  have hscale : units m * 10 ^ 8 = m := by
    unfold units
    exact div_mul_cancel₀ _ (by norm_num)
  have hhalf (n : ℤ) : ⌊(n : ℚ) + 1 / 2⌋ = n := by
    rw [Int.floor_eq_iff]
    constructor
    · linarith
    · linarith
  unfold roundUnits
  split
  · rw [neg_mul, hscale, ← Int.cast_neg, hhalf, neg_neg]
  · rw [hscale, hhalf]

theorem positive?_eq_some {limit : Option ℚ} {x : JsNumber} {q : ℚ}
    (h : positive? limit x = some q) : x = .finite q := by
  have hfinite := (Option.filter_eq_some_iff.mp h).1
  cases x with
  | finite p => exact congrArg JsNumber.finite (Option.some.inj hfinite)
  | infinite => cases hfinite
  | nan => cases hfinite

/-- A number that was read is the nearest one. -/
theorem floatOf_eq_ok (hnum : NumberLaws env) {value : Body} {x : JsNumber}
    (h : floatOf env value = .ok x) : env.double x = x := by
  obtain ⟨text, -, h⟩ := bind_eq_ok h
  obtain rfl := Except.ok.inj h
  exact hnum.double_double _

theorem floatOf_again (hnum : NumberLaws env) {q : ℚ} (h : env.double (.finite q) = .finite q) :
    floatOf env (some (.number (.finite q))) = .ok (.finite q) :=
  congrArg Except.ok (hnum.parseFloat_text q h)

theorem amountOf_again (hnum : NumberLaws env) {value value' : Body} {message : String} {q : ℚ}
    {stored row : Option Decimal20_8} (hwhole : ∃ m, q = units m)
    (h : amountOf env none value message = .ok q)
    (hstored : column toDecimal20_8 (some (.finite q)) = some stored)
    (hrow : stored.or row = row)
    (hvalue : value' = some (numberOrNull (row.map (decimalNumber env)))) :
    amountOf env none value' message = .ok q := by
  obtain ⟨x, hx, h⟩ := bind_eq_ok h
  have hpositive := valid_eq_ok.mp h
  obtain rfl := positive?_eq_some hpositive
  have hdouble := floatOf_eq_ok hnum hx
  obtain ⟨q', d, hq, rfl, hd⟩ := column_units hstored
  obtain rfl := JsNumber.finite.inj hq
  obtain ⟨m, rfl⟩ := hwhole
  have hnumber : decimalNumber env d = .finite (units m) := by
    rw [decimalNumber, hd, roundUnits_units, hdouble]
  rw [hvalue, or_eq_some hrow rfl, Option.map_some, hnumber, amountOf, numberOrNull,
    Option.elim_some, floatOf_again hnum hdouble]
  exact valid_eq_ok.mpr hpositive

theorem offerReward_again (hnum : NumberLaws env) {kind : String} {b b' : String → Body}
    {r : Reward JsNumber} {s row : Reward Decimal20_8} (hwhole : WholeUnits r)
    (h : offerReward env kind b = .ok r) (hstore : r.store = some s)
    (hrow : row.patched s = row)
    (hblk : b' "rewardBlkAmount" = some (numberOrNull (row.blkAmount.map (decimalNumber env))))
    (hpol : b' "rewardPolAmount" = some (numberOrNull (row.polAmount.map (decimalNumber env))))
    (hrate : b' "rewardHashRate" = some (numberOrNull (row.hashRate.map .finite)))
    (hdays : b' "rewardHashRateDays"
      = some (numberOrNull (row.hashRateDays.map fun n : ℤ => .finite n))) :
    offerReward env kind b' = .ok r := by
  have hstored := store_stored hstore
  unfold offerReward at h ⊢
  split_ifs at h ⊢ with hisBlk hisPol
  · obtain ⟨q, hq, h⟩ := bind_eq_ok h
    obtain rfl := Except.ok.inj h
    rw [amountOf_again hnum (hwhole.blkAmount q rfl) hq hstored.blkAmount
      (congrArg Reward.blkAmount hrow) hblk]
    rfl
  · obtain ⟨q, hq, h⟩ := bind_eq_ok h
    obtain rfl := Except.ok.inj h
    rw [amountOf_again hnum (hwhole.polAmount q rfl) hq hstored.polAmount
      (congrArg Reward.polAmount hrow) hpol]
    rfl
  · obtain ⟨x, hx, h⟩ := bind_eq_ok h
    obtain ⟨days, hclamp, h⟩ := bind_eq_ok h
    obtain ⟨hr, hvalid, h⟩ := bind_eq_ok h
    obtain rfl := Except.ok.inj h
    have hpositive := valid_eq_ok.mp hvalid
    obtain rfl := positive?_eq_some hpositive
    have hrateColumn := or_eq_some (congrArg Reward.hashRate hrow) hstored.hashRate
    have hdaysColumn :=
      or_eq_some (congrArg Reward.hashRateDays hrow) (store_hashRateDays hstore)
    rw [hrate, hdays, hrateColumn, hdaysColumn]
    simp only [Option.map_some, numberOrNull, Option.elim_some,
      floatOf_again hnum (floatOf_eq_ok hnum hx),
      clampInt_again hnum (by norm_num) (by norm_num) (by norm_num) (by norm_num) hclamp,
      bind, Except.bind, hvalid]
    rfl

end Rewards

/-! ## An unedited offer -/

section Unedited

variable {env : Env} {api : UrlApi} {allowHttp : Bool} {allowedHosts : Allowlist}

theorem get_offerToPlain {row : OfferRow} {key : String} {v : Json JsNumber}
    (h : (key, v) ∈ offerToPlain env row) :
    Json.get key (.object (offerToPlain env row)) = some v := by
  have hkeys : (offerToPlain env row).map Prod.fst = ["kind", "title", "description", "iframeUrl",
      "minViewSeconds", "rewardKind", "rewardBlkAmount", "rewardPolAmount", "rewardHashRate",
      "rewardHashRateDays", "dailyLimitPerUser", "sortOrder", "isActive", "completionMode",
      "taskMetadata"] := rfl
  have hnodup : ((offerToPlain env row).map Prod.fst).Nodup := by
    rw [hkeys]
    decide
  exact (get_eq_some_iff hnodup).mpr h

theorem upper_constant : ∀ s ∈ [OFFER_KIND_PTC_IFRAME, OFFER_KIND_GENERAL_TASK, REWARD_BLK,
    REWARD_POL, REWARD_HASHRATE_TEMP, COMPLETION_ADMIN_APPROVAL, COMPLETION_USER_SELF_CLAIM],
    toUpperCase (trim s) = s := by
  decide

/-- What an accepted offer has is read again, but for the texts and the metadata. -/
theorem Reads.again (hnum : NumberLaws env) {b : String → Body} {data : InternalOfferwallOffer}
    {s r : Reward Decimal20_8} (h : Reads env b data) (hwhole : WholeUnits data.reward)
    (hstore : data.reward.store = some s) (hpatched : r.patched s = r)
    (hdescription : descriptionOf env (some (textOrNull data.description)) = .ok data.description)
    (hiframe : iframeOf env data.kind (some (textOrNull data.iframeUrl)) = .ok data.iframeUrl)
    (hmetadata : env.normalizeTaskMetadata data.kind (some (plainMetadata (data.row r)))
      = .ok data.taskMetadata) :
    Reads env (fun key => Json.get key (.object (offerToPlain env (data.row r)))) data := by
  have hrewardKind : r.rewardKind = data.reward.rewardKind :=
    (congrArg Reward.rewardKind hpatched).symm.trans (store_stored hstore).rewardKind
  have hstring {key text : String} (h : (key, .string text) ∈ offerToPlain env (data.row r)) :
      stringOrElse env (Json.get key (.object (offerToPlain env (data.row r)))) "" = .ok text := by
    rw [get_offerToPlain h]
    exact stringOrElse_string text
  have hclamp {key : String} {v : Body} {lo hi fallback n : ℤ}
      (hmem : (key, .number (.finite n)) ∈ offerToPlain env (data.row r))
      (hbounds : 0 ≤ lo ∧ lo ≤ fallback ∧ fallback ≤ hi ∧ hi ≤ 2 ^ 53)
      (h : clampInt env v lo hi fallback = .ok n) :
      clampInt env (Json.get key (.object (offerToPlain env (data.row r)))) lo hi fallback
        = .ok n := by
    rw [get_offerToPlain hmem]
    exact clampInt_again hnum hbounds.1 hbounds.2.1 hbounds.2.2.1 hbounds.2.2.2 h
  constructor
  case kind =>
    refine ⟨data.kind, hstring (by simp [offerToPlain, InternalOfferwallOffer.row]), ?_⟩
    have hkind := h.kind_mem
    exact upper_constant _ (by simp at hkind ⊢; tauto)
  case kind_mem => exact h.kind_mem
  case title =>
    obtain ⟨text, -, htitle⟩ := h.title
    refine ⟨data.title, hstring (by simp [offerToPlain, InternalOfferwallOffer.row]), ?_⟩
    rw [← htitle, trim_trim]
  case title_length => exact h.title_length
  case description =>
    rw [get_offerToPlain (v := textOrNull data.description)
      (by simp [offerToPlain, InternalOfferwallOffer.row])]
    exact hdescription
  case iframeUrl =>
    rw [get_offerToPlain (v := textOrNull data.iframeUrl)
      (by simp [offerToPlain, InternalOfferwallOffer.row])]
    exact hiframe
  case minViewSeconds =>
    exact hclamp (by simp [offerToPlain, InternalOfferwallOffer.row]) (by norm_num)
      h.minViewSeconds
  case dailyLimitPerUser =>
    exact hclamp (by simp [offerToPlain, InternalOfferwallOffer.row]) (by norm_num)
      h.dailyLimitPerUser
  case sortOrder =>
    exact hclamp (by simp [offerToPlain, InternalOfferwallOffer.row]) (by norm_num) h.sortOrder
  case rewardKind =>
    refine ⟨data.reward.rewardKind, hstring ?_, ?_⟩
    · simp [offerToPlain, InternalOfferwallOffer.row, hrewardKind]
    · have hkind := h.rewardKind_mem
      exact upper_constant _ (by simp [OFFER_REWARD_KINDS] at hkind ⊢; tauto)
  case rewardKind_mem => exact h.rewardKind_mem
  case isActive =>
    rw [get_offerToPlain (v := .bool data.isActive)
      (by simp [offerToPlain, InternalOfferwallOffer.row])]
    rfl
  case completionMode =>
    refine ⟨data.completionMode, hstring (by simp [offerToPlain, InternalOfferwallOffer.row]), ?_⟩
    obtain ⟨mode, -, hmode⟩ := h.completionMode
    rw [← hmode]
    split
    case isTrue => decide
    case isFalse => decide
  case reward =>
    refine offerReward_again hnum hwhole h.reward hstore hpatched ?_ ?_ ?_ ?_
    all_goals
      exact get_offerToPlain (by simp [offerToPlain, InternalOfferwallOffer.row])
  case taskMetadata =>
    rw [get_offerToPlain (v := plainMetadata (data.row r)) (by simp [offerToPlain]), Option.some_or]
    exact hmetadata

/-- A task is not read again: its URL is `null`. -/
theorem Reads.isFrame {b : String → Body} {data : InternalOfferwallOffer} (h : Reads env b data)
    (hagain : iframeOf env data.kind (some (textOrNull data.iframeUrl)) = .ok data.iframeUrl) :
    data.kind = OFFER_KIND_PTC_IFRAME := by
  have hmem := h.kind_mem
  simp only [List.mem_cons, List.not_mem_nil, or_false] at hmem
  rcases hmem with hkind | hkind
  · exact hkind
  · have haccepted := h.iframeUrl
    rw [hkind] at haccepted hagain
    rw [iframeOf_general haccepted] at hagain
    exact absurd hagain iframeOf_null

/-- What is stored of metadata is what was made of it. -/
theorem plainMetadata_eq {kind : String} {raw metadata : Body}
    (h : normalizeTaskMetadata env kind raw = .ok metadata) :
    ∃ value, metadata = some value ∧ (if value.isObject then value else .null) = value := by
  unfold normalizeTaskMetadata at h
  split at h
  case h_1 => exact ⟨.null, (Except.ok.inj h).symm, rfl⟩
  case h_2 =>
    obtain ⟨m, -, h⟩ := bind_eq_ok h
    refine ⟨m.json, (Except.ok.inj h).symm, ?_⟩
    unfold TaskMetadata.json
    split
    · rfl
    · rfl

theorem patchOffer_eq_ok {row row' : OfferRow} :
    patchOffer env row [] = .ok (some row')
      ↔ ∃ data, parseAdminOfferBody env (some (.object (offerToPlain env row))) = .ok data
        ∧ adminPatchOffer row data = some row' := by
  have hpatch : patchOffer env row []
      = (parseAdminOfferBody env (some (.object (offerToPlain env row)))).map
        (adminPatchOffer row) := by
    rw [patchOffer, List.append_nil]
    rfl
  rw [hpatch]
  cases parseAdminOfferBody env (some (.object (offerToPlain env row))) with
  | error e => simp [Except.map]
  | ok data => simp [Except.map]

/-- **An offer that is saved as it is** is accepted and stays as it is exactly if it frames a
page whose URL is not too long by now, and has no description or note that ends in white space
where it was cut. -/
theorem patch_unedited_iff {body : Body} {data : InternalOfferwallOffer} {row : OfferRow}
    (hnum : NumberLaws env) (hurl : UrlLaws api)
    (hparse : parseAdminOfferBody (offerEnv env api allowHttp allowedHosts) body = .ok data)
    (hwhole : WholeUnits data.reward) (hstored : StoredOffer data row) :
    patchOffer (offerEnv env api allowHttp allowedHosts) row [] = .ok (some row)
      ↔ row.kind = OFFER_KIND_PTC_IFRAME
        ∧ (∀ d ∈ row.description, trim d = d)
        ∧ (∀ u ∈ row.iframeUrl, utf16Length u ≤ 2048)
        ∧ ∀ n, row.taskMetadata.get "verificationNote" = some (.string n) → trim n = n := by
  obtain ⟨s, r, hstore, rfl, hpatched⟩ := hstored.row_eq
  obtain ⟨-, hreads⟩ := parseAdminOfferBody_eq_ok.mp hparse
  obtain ⟨metadata, hmetadata, hplain⟩ := plainMetadata_eq hreads.taskMetadata
  have hrowMetadata : (data.row r).taskMetadata = metadata := by
    rw [InternalOfferwallOffer.row, hmetadata]
    rfl
  have hplainRow : plainMetadata (data.row r) = metadata := by
    rw [plainMetadata, hrowMetadata, hplain]
  have htaskMetadata := hreads.taskMetadata
  rw [hmetadata] at htaskMetadata
  have hnotGeneral : OFFER_KIND_PTC_IFRAME ≠ OFFER_KIND_GENERAL_TASK := by decide
  rw [patchOffer_eq_ok]
  constructor
  · rintro ⟨data', hparse', hpatch⟩
    obtain ⟨s', -, hrow⟩ := Option.map_eq_some_iff.mp hpatch
    obtain ⟨-, hreads'⟩ := parseAdminOfferBody_eq_ok.mp hparse'
    have hkind' : data'.kind = data.kind := congrArg OfferRow.kind hrow
    have hdescription : data'.description = data.description :=
      congrArg OfferRow.description hrow
    have hiframe : data'.iframeUrl = data.iframeUrl := congrArg OfferRow.iframeUrl hrow
    have hplain {key : String} {v : Json JsNumber}
        (h : (key, v) ∈ offerToPlain (offerEnv env api allowHttp allowedHosts) (data.row r)) :
        Option.bind (some (.object (offerToPlain (offerEnv env api allowHttp allowedHosts)
          (data.row r)))) (Json.get key) = some v := get_offerToPlain h
    have hiframeRead := hreads'.iframeUrl
    rw [hkind', hiframe, hplain (v := textOrNull data.iframeUrl)
      (by simp [offerToPlain, InternalOfferwallOffer.row])] at hiframeRead
    have hkind := hreads.isFrame hiframeRead
    refine ⟨hkind, ?_, ?_, ?_⟩
    · refine (descriptionOf_again hreads.description).mp ?_
      have hread := hreads'.description
      rwa [hdescription, hplain (v := textOrNull data.description)
        (by simp [offerToPlain, InternalOfferwallOffer.row])] at hread
    · have haccepted := hreads.iframeUrl
      rw [hkind] at haccepted hiframeRead
      exact (iframeOf_again hurl haccepted).mp hiframeRead
    · rw [hrowMetadata]
      refine (normalizeTaskMetadata_again (hkind ▸ hnotGeneral) htaskMetadata).mp ?_
      have hread := hreads'.taskMetadata
      rw [hkind', hplain (v := plainMetadata (data.row r)) (by simp [offerToPlain]),
        Option.some_or, hplainRow] at hread
      obtain ⟨metadata', hmetadata', -⟩ := plainMetadata_eq hread
      have hsame : data'.taskMetadata.getD .null = data.taskMetadata.getD .null :=
        congrArg OfferRow.taskMetadata hrow
      rw [hmetadata, hmetadata', Option.getD_some, Option.getD_some] at hsame
      rwa [hmetadata', hsame] at hread
  · rintro ⟨hkind, hdescription, hiframe, hnote⟩
    have hkind : data.kind = OFFER_KIND_PTC_IFRAME := hkind
    have hnum' : NumberLaws (offerEnv env api allowHttp allowedHosts) :=
      ⟨hnum.double_double, hnum.parseFloat_text, hnum.parseInt_text⟩
    refine ⟨data, parseAdminOfferBody_eq_ok.mpr ⟨rfl, ?_⟩, ?_⟩
    · refine hreads.again hnum' hwhole hstore hpatched ?_ ?_ ?_
      · exact (descriptionOf_again hreads.description).mpr hdescription
      · have haccepted := hreads.iframeUrl
        rw [hkind] at haccepted ⊢
        exact (iframeOf_again hurl haccepted).mpr hiframe
      · rw [hplainRow, hmetadata]
        refine (normalizeTaskMetadata_again (hkind ▸ hnotGeneral) htaskMetadata).mpr ?_
        rwa [hrowMetadata] at hnote
    · rw [adminPatchOffer, hstore, Option.map_some]
      exact congrArg (some ∘ data.row) hpatched

end Unedited

/-! ## A page and a task -/

theorem toDigits_start (n : ℕ) : ∃ c cs, Nat.toDigits 10 n = c :: cs
    ∧ isStrWhiteSpaceChar c = false ∧ c ≠ '-' ∧ c ≠ '+' ∧ c ≠ 'I' := by
  cases hds : Nat.toDigits 10 n with
  | nil => exact absurd hds Nat.toDigits_ne_nil
  | cons c cs =>
      have hmem : c ∈ Nat.toDigits 10 n := by simp [hds]
      have hdigit := Nat.isDigit_of_mem_toDigits (by omega) (by omega) hmem
      obtain ⟨hlow, hhigh⟩ : 48 ≤ c.toNat ∧ c.toNat ≤ 57 := by
        simpa [Char.isDigit, UInt32.le_iff_toNat_le] using hdigit
      refine ⟨c, cs, rfl, ?_, ?_, ?_, ?_⟩
      · simp [isStrWhiteSpaceChar]
        omega
      all_goals
        rintro rfl
        simp at hlow hhigh

theorem readDigits_whole (n : ℕ) :
    readDigits 10 0 0 (Nat.toDigits 10 n) = (n, (Nat.toDigits 10 n).length, []) := by
  have hread := @JsonSyntax.readDigits_toDigits [] (by intro c hc; cases hc) n
  rwa [List.append_nil] at hread

theorem parseInt_toDigits (n : ℕ) :
    parseInt (String.ofList (Nat.toDigits 10 n)) = some (n : ℤ) := by
  have hread := readDigits_whole n
  obtain ⟨c, cs, hds, hspace, hminus, hplus, -⟩ := toDigits_start n
  have hlength : (Nat.toDigits 10 n).length ≠ 0 := Nat.length_toDigits_pos.ne'
  rw [hds] at hread hlength
  rw [parseInt, String.toList_ofList, hds, List.dropWhile_cons_of_neg (by simp [hspace])]
  split
  rename_i sign rest hsign
  split at hsign
  case h_1 h => exact absurd (List.cons.inj h).1 hminus
  case h_2 h => exact absurd (List.cons.inj h).1 hplus
  case h_3 =>
    cases hsign
    simp only [hread, if_neg hlength, one_mul]

theorem parseFloat_toDigits (n : ℕ) :
    parseFloat (String.ofList (Nat.toDigits 10 n)) = .finite n := by
  have hread := readDigits_whole n
  obtain ⟨c, cs, hds, hspace, hminus, hplus, hinfinity⟩ := toDigits_start n
  have hlength : (Nat.toDigits 10 n).length ≠ 0 := Nat.length_toDigits_pos.ne'
  have hfinite : ¬"Infinity".toList.isPrefixOf (Nat.toDigits 10 n) = true := by
    rw [hds]
    simpa [List.isPrefixOf] using fun h => absurd h.symm hinfinity
  have hunsigned : unsignedDecimalPrefix (Nat.toDigits 10 n) = .finite n := by
    rw [unsignedDecimalPrefix, if_neg hfinite, hread]
    simp [exponentPrefix, hlength]
  rw [parseFloat, String.toList_ofList, hds, List.dropWhile_cons_of_neg (by simp [hspace])]
  split
  case h_1 h => exact absurd (List.cons.inj h).1 hminus
  case h_2 h => exact absurd (List.cons.inj h).1 hplus
  case h_3 => rw [← hds, hunsigned]

/-- Whole amounts. -/
def wholeEnv : Env where
  numberText
    | .finite q => String.ofList (Nat.toDigits 10 ⌊q⌋.toNat)
    | .infinite negative => if negative then "-Infinity" else "Infinity"
    | .nan => "NaN"
  double
    | .finite q => .finite ⌊q⌋.toNat
    | x => x
  decimal := fun _ => none
  iframeUrl := fun _ => refuse ""
  normalizeTaskMetadata := fun _ _ => refuse ""
  miner := fun _ => none
  eventMiner := fun _ => none

def boardEnv : Env := offerEnv wholeEnv portApi false exampleHosts

def boardBody (kind iframeUrl : String) : Body :=
  some (.object [("kind", .string kind), ("title", .string "Board"),
    ("iframeUrl", .string iframeUrl), ("rewardKind", .string "BLK"),
    ("rewardBlkAmount", .string "2")])

def boardOffer (kind : String) (iframeUrl : Option String) : InternalOfferwallOffer where
  kind := kind
  title := "Board"
  description := none
  iframeUrl := iframeUrl
  minViewSeconds := 10
  reward := { base REWARD_BLK with blkAmount := some (.finite 2) }
  dailyLimitPerUser := 3
  sortOrder := 0
  isActive := true
  completionMode := COMPLETION_USER_SELF_CLAIM
  taskMetadata := some .null

def boardRow (kind : String) (iframeUrl : Option String) : OfferRow :=
  (boardOffer kind iframeUrl).row
    { base REWARD_BLK with blkAmount := some ⟨200000000, by decide⟩ }

theorem boardOffer_accepted {kind iframeUrl : String} {url : Option String}
    (hkind : kind ∈ [OFFER_KIND_PTC_IFRAME, OFFER_KIND_GENERAL_TASK])
    (hurl : iframeOf boardEnv kind (some (.string iframeUrl)) = .ok url) :
    parseAdminOfferBody boardEnv (boardBody kind iframeUrl) = .ok (boardOffer kind url) := by
  refine parseAdminOfferBody_eq_ok.mpr ⟨rfl, ?_⟩
  constructor
  case kind =>
    exact ⟨kind, stringOrElse_string kind, upper_constant _ (by simp at hkind ⊢; tauto)⟩
  case kind_mem => exact hkind
  case title => exact ⟨"Board", rfl, (by decide : trim "Board" = "Board")⟩
  case title_length => exact (by decide : "Board" ≠ "" ∧ utf16Length "Board" ≤ 200)
  case iframeUrl => exact hurl
  case rewardKind =>
    exact ⟨"BLK", rfl, (by decide : toUpperCase (trim "BLK") = REWARD_BLK)⟩
  case rewardKind_mem => exact (by decide : REWARD_BLK ∈ OFFER_REWARD_KINDS)
  case completionMode => exact ⟨"", rfl, if_neg (by decide)⟩
  case reward =>
    have hamount : amountOf boardEnv none (some (.string "2"))
        "BLK reward requires a positive rewardBlkAmount." = .ok 2 := by
      decide +kernel
    have hread : (boardBody kind iframeUrl).bind (Json.get "rewardBlkAmount")
        = some (.string "2") := rfl
    have hkind : (boardOffer kind url).reward.rewardKind = REWARD_BLK := rfl
    rw [hkind, offerReward, if_pos rfl, hread, hamount]
    rfl
  all_goals rfl

theorem boardOffer_stored (kind : String) (url : Option String) :
    StoredOffer (boardOffer kind url) (boardRow kind url) := by
  have hstore : Reward.store { base REWARD_BLK with blkAmount := some (.finite 2) }
      = some { base REWARD_BLK with blkAmount := some ⟨200000000, by decide⟩ } := by
    decide +kernel
  exact .created (congrArg (Option.map _) hstore)

theorem boardOffer_whole (kind : String) (url : Option String) :
    WholeUnits (boardOffer kind url).reward where
  blkAmount := by
    intro q h
    obtain rfl : 2 = q := JsNumber.finite.inj (Option.some.inj h)
    exact ⟨200000000, by norm_num [units]⟩
  polAmount := by
    intro q h
    cases h

theorem wholeEnv_laws : NumberLaws wholeEnv where
  double_double := by
    intro x
    cases x with
    | finite q =>
        change JsNumber.finite ⌊((⌊q⌋.toNat : ℕ) : ℚ)⌋.toNat = .finite ⌊q⌋.toNat
        rw [Int.floor_natCast, Int.toNat_natCast]
    | infinite => rfl
    | nan => rfl
  parseFloat_text := by
    intro q h
    have hread : wholeEnv.numberText (.finite q) = String.ofList (Nat.toDigits 10 ⌊q⌋.toNat) := rfl
    rw [hread, parseFloat_toDigits]
    change JsNumber.finite ⌊((⌊q⌋.toNat : ℕ) : ℚ)⌋.toNat = .finite q
    rw [Int.floor_natCast, Int.toNat_natCast]
    exact h
  parseInt_text := by
    intro n hn _
    have hread : wholeEnv.numberText (.finite n)
        = String.ofList (Nat.toDigits 10 ⌊(n : ℚ)⌋.toNat) := rfl
    rw [hread, parseInt_toDigits, Int.floor_intCast, Int.toNat_of_nonneg hn]

theorem portApi_laws : UrlLaws portApi where
  trim_href := fun _ _ _ =>
    (by decide : trim "https://example.com:8443/" = "https://example.com:8443/")
  href_ne := fun _ _ _ => (by decide : "https://example.com:8443/" ≠ "")

theorem patch_unedited_iff_page :
    patchOffer boardEnv (boardRow OFFER_KIND_PTC_IFRAME "https://example.com:8443/") []
      = .ok (some (boardRow OFFER_KIND_PTC_IFRAME "https://example.com:8443/")) := by
  have hurl : iframeOf boardEnv OFFER_KIND_PTC_IFRAME
      (some (.string "https://example.com:8443/")) = .ok (some "https://example.com:8443/") := by
    rfl
  refine (patch_unedited_iff wholeEnv_laws portApi_laws (boardOffer_accepted (by decide) hurl)
    (boardOffer_whole _ _) (boardOffer_stored _ _)).mpr ⟨rfl, ?_, ?_, ?_⟩
  · intro d hd
    cases hd
  · intro u hu
    obtain rfl := Option.some.inj hu
    decide
  · intro n hn
    cases hn

/-- A task is refused when it is saved as it is. -/
theorem unedited_task_refused :
    parseAdminOfferBody boardEnv (boardBody OFFER_KIND_GENERAL_TASK "")
        = .ok (boardOffer OFFER_KIND_GENERAL_TASK none)
      ∧ WholeUnits (boardOffer OFFER_KIND_GENERAL_TASK none).reward
      ∧ StoredOffer (boardOffer OFFER_KIND_GENERAL_TASK none)
        (boardRow OFFER_KIND_GENERAL_TASK none)
      ∧ patchOffer boardEnv (boardRow OFFER_KIND_GENERAL_TASK none) []
        = .error (.refused "General tasks must not include an iframe URL.") := by
  refine ⟨boardOffer_accepted (by decide) ?_, boardOffer_whole _ _, boardOffer_stored _ _, rfl⟩
  rfl

end BlockMiner.RewardDefinitions
