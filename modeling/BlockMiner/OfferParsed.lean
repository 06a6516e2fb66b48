import BlockMiner.OfferMetadata

/-!
# What an offer is parsed from

`parseAdminOfferBody` accepts an offer if each of its fields is read
(`parseAdminOfferBody_eq_ok`). What was read can be read again: a clamped number
from its digits; a description that was cut if it does not end in white space
there; a URL as the parser printed it if it is not too long by now. The missing
URL of a task cannot: it is `null`, and `String(null)` is a text.
-/

namespace BlockMiner.RewardDefinitions

open IframeHosts (UrlApi Allowlist Answer validateIframeUrl)

/-! ## What is parsed -/

/-- An offer and the fields it is parsed from. -/
structure Reads (env : Env) (b : String → Body) (data : InternalOfferwallOffer) : Prop where
  kind : ∃ text, stringOrElse env (b "kind") "" = .ok text ∧ toUpperCase (trim text) = data.kind
  kind_mem : data.kind ∈ [OFFER_KIND_PTC_IFRAME, OFFER_KIND_GENERAL_TASK]
  title : ∃ text, stringOrElse env (b "title") "" = .ok text ∧ trim text = data.title
  title_length : data.title ≠ "" ∧ utf16Length data.title ≤ 200
  description : descriptionOf env (b "description") = .ok data.description
  iframeUrl : iframeOf env data.kind (b "iframeUrl") = .ok data.iframeUrl
  minViewSeconds : clampInt env (b "minViewSeconds") 0 7200 10 = .ok data.minViewSeconds
  dailyLimitPerUser :
    clampInt env (b "dailyLimitPerUser") 1 50 3 = .ok data.dailyLimitPerUser
  sortOrder : clampInt env (b "sortOrder") 0 99999 0 = .ok data.sortOrder
  rewardKind : ∃ text, stringOrElse env (b "rewardKind") "" = .ok text
    ∧ toUpperCase (trim text) = data.reward.rewardKind
  rewardKind_mem : data.reward.rewardKind ∈ OFFER_REWARD_KINDS
  isActive : ((b "isActive").bind Json.bool?).getD true = data.isActive
  completionMode : ∃ text, stringOrElse env (b "completionMode") "" = .ok text
    ∧ (if toUpperCase (trim text) = COMPLETION_ADMIN_APPROVAL then COMPLETION_ADMIN_APPROVAL
      else COMPLETION_USER_SELF_CLAIM) = data.completionMode
  reward : offerReward env data.reward.rewardKind b = .ok data.reward
  taskMetadata : env.normalizeTaskMetadata data.kind ((b "taskMetadata").or (b "task_metadata"))
    = .ok data.taskMetadata

theorem offerReward_kind {env : Env} {kind : String} {b : String → Body} {r : Reward JsNumber}
    (hkind : kind ∈ OFFER_REWARD_KINDS) (h : offerReward env kind b = .ok r) :
    r.rewardKind = kind :=
  (offerReward_declared hkind h).2

theorem parseAdminOfferBody_eq_ok {env : Env} {body : Body} {data : InternalOfferwallOffer} :
    parseAdminOfferBody env body = .ok data
      ↔ body.any Json.isObject = true ∧ Reads env (fun key => body.bind (Json.get key)) data := by
  constructor
  · intro h
    obtain ⟨_, hobject, h⟩ := bind_eq_ok h
    obtain ⟨kind, hkind, h⟩ := bind_eq_ok h
    obtain ⟨_, hkindMem, h⟩ := bind_eq_ok h
    obtain ⟨title, htitle, h⟩ := bind_eq_ok h
    obtain ⟨_, hlength, h⟩ := bind_eq_ok h
    obtain ⟨description, hdescription, h⟩ := bind_eq_ok h
    obtain ⟨iframeUrl, hiframeUrl, h⟩ := bind_eq_ok h
    obtain ⟨minViewSeconds, hminViewSeconds, h⟩ := bind_eq_ok h
    obtain ⟨dailyLimitPerUser, hdailyLimitPerUser, h⟩ := bind_eq_ok h
    obtain ⟨sortOrder, hsortOrder, h⟩ := bind_eq_ok h
    obtain ⟨rewardKind, hrewardKind, h⟩ := bind_eq_ok h
    obtain ⟨_, hrewardMem, h⟩ := bind_eq_ok h
    obtain ⟨mode, hmode, h⟩ := bind_eq_ok h
    obtain ⟨reward, hreward, h⟩ := bind_eq_ok h
    obtain ⟨taskMetadata, htaskMetadata, h⟩ := bind_eq_ok h
    obtain rfl := Except.ok.inj h
    have hmem : toUpperCase (trim rewardKind) ∈ OFFER_REWARD_KINDS := by
      simpa using refuseIf_eq_ok.mp hrewardMem
    have hsame := offerReward_kind hmem hreward
    exact ⟨by simpa using refuseIf_eq_ok.mp hobject, {
      kind := ⟨kind, hkind, rfl⟩
      kind_mem := not_not.mp (of_decide_eq_false (refuseIf_eq_ok.mp hkindMem))
      title := ⟨title, htitle, rfl⟩
      title_length := by simpa using refuseIf_eq_ok.mp hlength
      description := hdescription
      iframeUrl := hiframeUrl
      minViewSeconds := hminViewSeconds
      dailyLimitPerUser := hdailyLimitPerUser
      sortOrder := hsortOrder
      rewardKind := ⟨rewardKind, hrewardKind, hsame.symm⟩
      rewardKind_mem := hsame.symm ▸ hmem
      isActive := rfl
      completionMode := ⟨mode, hmode, by dsimp only⟩
      reward := hsame.symm ▸ hreward
      taskMetadata := htaskMetadata }⟩
  · rintro ⟨hobject, h⟩
    obtain ⟨kind, hkind, hkindOf⟩ := h.kind
    obtain ⟨title, htitle, htitleOf⟩ := h.title
    obtain ⟨rewardKind, hrewardKind, hrewardKindOf⟩ := h.rewardKind
    obtain ⟨mode, hmode, hmodeOf⟩ := h.completionMode
    have hobject' : refuseIf (!body.any Json.isObject) "Invalid JSON body." = .ok () :=
      refuseIf_eq_ok.mpr (by simp [hobject])
    have hkindMem : refuseIf (data.kind ∉ [OFFER_KIND_PTC_IFRAME, OFFER_KIND_GENERAL_TASK])
        "Invalid offer kind." = .ok () :=
      refuseIf_eq_ok.mpr (decide_eq_false (not_not.mpr h.kind_mem))
    have hlength : refuseIf (data.title = "" || 200 < utf16Length data.title)
        "Title is required (max 200 chars)." = .ok () :=
      refuseIf_eq_ok.mpr (by simpa using h.title_length)
    have hrewardMem : refuseIf (data.reward.rewardKind ∉ OFFER_REWARD_KINDS)
        "Invalid reward kind (use BLK, POL, or HASHRATE_TEMP)." = .ok () :=
      refuseIf_eq_ok.mpr (decide_eq_false (not_not.mpr h.rewardKind_mem))
    simp only [parseAdminOfferBody, bind, Except.bind, hobject', hkind, hkindOf, hkindMem, htitle,
      htitleOf, hlength, h.description, h.iframeUrl, h.minViewSeconds, h.dailyLimitPerUser,
      h.sortOrder, hrewardKind, hrewardKindOf, hrewardMem, hmode, h.reward, h.taskMetadata]
    rw [h.isActive, hmodeOf]
    rfl

/-! ## Reading a value again -/

/-- `null`, where there is none. -/
def textOrNull (text : Option String) : Json JsNumber := text.elim .null .string

/-- A number is read again from its text, and a whole one by its digits. -/
structure NumberLaws (env : Env) : Prop where
  double_double : ∀ x, env.double (env.double x) = env.double x
  parseFloat_text : ∀ q, env.double (.finite q) = .finite q →
    env.double (parseFloat (env.numberText (.finite q))) = .finite q
  parseInt_text : ∀ n : ℤ, 0 ≤ n → n ≤ 2 ^ 53 →
    parseInt (env.numberText (.finite n)) = some n

/-- A URL that was printed is no white space, nor is there any around it. -/
structure UrlLaws (api : UrlApi) : Prop where
  trim_href : ∀ text url, api.parse text = some url → trim (api.href url) = api.href url
  href_ne : ∀ text url, api.parse text = some url → api.href url ≠ ""

section Again

variable {env : Env}

theorem stringOrElse_string (s : String) : stringOrElse env (some (.string s)) "" = .ok s := by
  unfold stringOrElse
  split
  case isTrue h =>
    have hempty : s = "" := by simpa [isFalsy] using h
    rw [hempty]
  case isFalse => rfl

theorem clampInt_range {v : Body} {lo hi fallback n : ℤ} (hlo : lo ≤ fallback)
    (hhi : fallback ≤ hi) (h : clampInt env v lo hi fallback = .ok n) : lo ≤ n ∧ n ≤ hi := by
  obtain ⟨text, -, h⟩ := bind_eq_ok h
  split at h
  case h_1 =>
    obtain rfl := Except.ok.inj h
    exact ⟨hlo, hhi⟩
  case h_2 =>
    obtain rfl := Except.ok.inj h
    omega

theorem clampInt_again (hnum : NumberLaws env) {v : Body} {lo hi fallback n : ℤ} (hzero : 0 ≤ lo)
    (hlo : lo ≤ fallback) (hhi : fallback ≤ hi) (hmax : hi ≤ 2 ^ 53)
    (h : clampInt env v lo hi fallback = .ok n) :
    clampInt env (some (.number (.finite n))) lo hi fallback = .ok n := by
  obtain ⟨hlow, hhigh⟩ := clampInt_range hlo hhi h
  have hread := hnum.parseInt_text n (hzero.trans hlow) (hhigh.trans hmax)
  have htext : stringOr env (some (.number (.finite n))) = .ok (env.numberText (.finite n)) := rfl
  simp only [clampInt, htext, bind, Except.bind, hread, max_eq_right hlow, min_eq_right hhigh]
  rfl

theorem descriptionOf_eq_ok {value : Body} {d : String}
    (h : descriptionOf env value = .ok (some d)) : ∃ s, d = cutText 8000 s ∧ d ≠ "" := by
  unfold descriptionOf at h
  split at h
  case h_1 => cases h
  case h_2 => cases h
  case h_3 =>
    obtain ⟨s, -, h⟩ := bind_eq_ok h
    have h := Except.ok.inj h
    split at h
    · cases h
    · obtain rfl := Option.some.inj h
      exact ⟨s, rfl, by assumption⟩

theorem descriptionOf_again {value : Body} {description : Option String}
    (h : descriptionOf env value = .ok description) :
    descriptionOf env (some (textOrNull description)) = .ok description
      ↔ ∀ d ∈ description, trim d = d := by
  cases description with
  | none => simp [textOrNull, descriptionOf]
  | some d =>
      obtain ⟨s, hs, hne⟩ := descriptionOf_eq_ok h
      have hread : descriptionOf env (some (textOrNull (some d)))
          = .ok (if cutText 8000 d = "" then none else some (cutText 8000 d)) := rfl
      rw [hread, Except.ok.injEq]
      simp only [Option.mem_def, Option.some.injEq, forall_eq']
      rw [← cutText_again hs]
      constructor
      · intro h
        split at h
        · cases h
        · exact Option.some.inj h
      · intro h
        rw [h, if_neg hne]

end Again

section Frames

variable {env : Env} {api : UrlApi} {allowHttp : Bool} {allowedHosts : Allowlist}

/-- A URL that was accepted is accepted again if it is not too long by now. -/
theorem validateIframeUrl_again (hurl : UrlLaws api) {rawUrl url : String}
    (h : validateIframeUrl api rawUrl allowHttp allowedHosts = .ok url) :
    validateIframeUrl api url allowHttp allowedHosts = .ok url ↔ utf16Length url ≤ 2048 := by
  unfold validateIframeUrl at h
  dsimp only at h
  split_ifs at h with hempty hlong
  split at h
  case h_1 => cases h
  case h_2 parsed hparsed =>
    split_ifs at h with hscheme hhost hlisted
    injection h with h
    obtain rfl := h
    unfold validateIframeUrl
    dsimp only
    rw [hurl.trim_href _ _ hparsed, if_neg (hurl.href_ne _ _ hparsed)]
    by_cases hlength : 2048 < utf16Length (api.href parsed)
    · rw [if_pos hlength]
      constructor
      · intro h
        cases h
      · intro h
        omega
    · rw [if_neg hlength, api.parse_href _ _ hparsed]
      simp only
      rw [if_neg hscheme, if_neg hhost, if_neg hlisted]
      exact ⟨fun _ => not_lt.mp hlength, fun _ => rfl⟩

theorem offerUrl_eq_ok {rawUrl url : String} :
    offerUrl api allowHttp allowedHosts rawUrl = .ok url
      ↔ validateIframeUrl api rawUrl allowHttp allowedHosts = .ok url := by
  unfold offerUrl
  split
  case h_1 url' h => rw [h, Except.ok.injEq, Answer.ok.injEq]
  case h_2 h => simp [h, refuse]
  case h_3 h =>
    rw [h]
    split_ifs
    · simp [refuse]
    · simp [refuse]

theorem iframeOf_again (hurl : UrlLaws api) {value : Body} {iframeUrl : Option String}
    (h : iframeOf (offerEnv env api allowHttp allowedHosts) OFFER_KIND_PTC_IFRAME value
      = .ok iframeUrl) :
    iframeOf (offerEnv env api allowHttp allowedHosts) OFFER_KIND_PTC_IFRAME
        (some (textOrNull iframeUrl)) = .ok iframeUrl
      ↔ ∀ u ∈ iframeUrl, utf16Length u ≤ 2048 := by
  unfold iframeOf at h
  rw [if_pos rfl] at h
  obtain ⟨rawUrl, -, h⟩ := bind_eq_ok h
  obtain ⟨url, hvalid, h⟩ := bind_eq_ok h
  obtain rfl := Except.ok.inj h
  have hread : iframeOf (offerEnv env api allowHttp allowedHosts) OFFER_KIND_PTC_IFRAME
      (some (textOrNull (some url))) = (offerUrl api allowHttp allowedHosts url).map some := by
    rw [iframeOf, if_pos rfl, textOrNull, Option.elim_some, stringOrElse_string]
    rfl
  have hagain := validateIframeUrl_again hurl (offerUrl_eq_ok.mp hvalid)
  simp only [Option.mem_def, Option.some.injEq, forall_eq']
  rw [hread, ← hagain, ← offerUrl_eq_ok]
  constructor
  · exact map_some_eq_ok
  · intro h
    rw [h]
    rfl

/-- `String(null)` is a text. -/
theorem iframeOf_null {iframeUrl : Option String} :
    iframeOf env OFFER_KIND_GENERAL_TASK (some .null) ≠ .ok iframeUrl := by
  intro h
  have hnull : iframeOf env OFFER_KIND_GENERAL_TASK (some .null)
      = if trim "null" = "" then .ok none
        else refuse "General tasks must not include an iframe URL." := by
    rw [iframeOf, if_neg (by decide)]
    rfl
  rw [hnull, if_neg (by decide)] at h
  cases h

theorem iframeOf_general {value : Body} {iframeUrl : Option String}
    (h : iframeOf env OFFER_KIND_GENERAL_TASK value = .ok iframeUrl) : iframeUrl = none := by
  rw [iframeOf.eq_def, if_neg (by decide)] at h
  split at h
  case h_1 => exact (Except.ok.inj h).symm
  case h_2 =>
    obtain ⟨text, -, h⟩ := bind_eq_ok h
    split at h
    · exact (Except.ok.inj h).symm
    · cases h

end Frames

end BlockMiner.RewardDefinitions
