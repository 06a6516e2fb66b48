import BlockMiner.CspSource
import BlockMiner.JsText

/-!
# Which pages an offer may frame

An offer's URL is accepted if its host is on the allowlist or below a host of
it; the browser frames what the `frame-src` sources permit, which are made of
the same allowlist. The two part ways at ports, at addresses, at long URLs, at
`localhost` and at entries that are no host in the grammar of the sources.

`new URL` is a parameter; what it prints it reads back.
-/

namespace BlockMiner.IframeHosts

open CspSource (Url Scheme Host)

structure UrlApi where
  parse : String → Option Url
  href : Url → String
  parse_href : ∀ text url, parse text = some url → parse (href url) = some url

/-- No character that ends a host or splits a header. -/
def isHostText (s : String) : Bool :=
  s.toList.all fun c => !isStrWhiteSpaceChar c && c ≠ '/' && c ≠ ';' && c ≠ ','

/-- A set of hosts. -/
structure Allowlist where
  hosts : List String
  isHost : ∀ h ∈ hosts, isHostText h = true

/-! ## The validator -/

def hostname : Host → String
  | .domain name => name.text
  | .address text => text

/-- `h.endsWith("." + e)` -/
def endsWithDot (h e : String) : Bool := ('.' :: e.toList).isSuffixOf h.toList

def hostMatchesIframeAllowlist (host : String) (allowedHosts : Allowlist) : Bool :=
  let h := toLowerCase host
  if h = "" then false
  else if allowedHosts.hosts.contains h then true
  else allowedHosts.hosts.any fun entry =>
    let e := toLowerCase entry
    e ≠ "" && (h = e || endsWithDot h e)

inductive Answer where
  | ok (url : String)
  | refused (code : String) (message : String) (host : Option String)

def validateIframeUrl (api : UrlApi) (rawUrl : String) (allowHttp : Bool)
    (allowedHosts : Allowlist) : Answer :=
  let trimmed := trim rawUrl
  if trimmed = "" then
    .refused "IFRAME_URL_REQUIRED" "Iframe URL is required for PTC offers." none
  else if 2048 < utf16Length trimmed then
    .refused "IFRAME_URL_TOO_LONG" "Iframe URL is too long." none
  else
    match api.parse trimmed with
    | none => .refused "IFRAME_URL_INVALID" "Iframe URL is not a valid URL." none
    | some parsed =>
        if parsed.scheme ≠ .https ∧ ¬(parsed.scheme = .http ∧ allowHttp = true) then
          .refused "IFRAME_URL_SCHEME" "Only https URLs are allowed for iframe content." none
        else
          let host := toLowerCase (hostname parsed.host)
          if host = "" ∨ host = "localhost" then
            .refused "IFRAME_URL_HOST" "Invalid iframe host." none
          else if !hostMatchesIframeAllowlist host allowedHosts then
            .refused "IFRAME_URL_NOT_ALLOWED" ("Iframe host is not on the allowlist (refresh the "
              ++ "allowlist cache or save the offer again to register the host).") (some host)
          else .ok (api.href parsed)

/-! ## The sources -/

/-- `/^\d+\.\d+\.\d+\.\d+$/` -/
def isDottedQuad (host : String) : Bool :=
  let parts := host.toList.splitOn '.'
  parts.length = 4 && parts.all fun part => !part.isEmpty && part.all Char.isDigit

def addSource (out : List String) (source : String) : List String :=
  if out.contains source then out else out ++ [source]

/-- The sources of an entry. -/
def entrySources (h : String) : List String :=
  let host := toLowerCase (trim h)
  if host = "" || host.toList.contains ':' then []
  else if isDottedQuad host then ["https://" ++ host]
  else ["https://" ++ host, "https://" ++ ("*." ++ host)]

def expandCspFrameSrcHostSources (allowedHosts : Allowlist) : List String :=
  allowedHosts.hosts.foldl (fun out h => (entrySources h).foldl addSource out) []

/-! ## Agreement -/

def permitted (allowedHosts : Allowlist) (url : Url) : Prop :=
  ∃ source ∈ expandCspFrameSrcHostSources allowedHosts, CspSource.permits source url = true

def accepts (api : UrlApi) (rawUrl : String) (allowedHosts : Allowlist) : Prop :=
  ∃ url, validateIframeUrl api rawUrl false allowedHosts = .ok url

/-- What is accepted can be framed, and what can be framed at the default port is accepted. -/
def Agree (api : UrlApi) (allowedHosts : Allowlist) (rawUrl : String) : Prop :=
  (∀ url, validateIframeUrl api rawUrl false allowedHosts = .ok url →
    ∃ parsed, api.parse url = some parsed ∧ permitted allowedHosts parsed)
  ∧ ∀ parsed, api.parse (trim rawUrl) = some parsed → parsed.scheme = .https →
    parsed.port = none → permitted allowedHosts parsed → accepts api rawUrl allowedHosts

/-- An entry of letters, digits, hyphens and dots is the host or a parent of it. -/
def FramedBy (allowedHosts : Allowlist) (host : Host) : Prop :=
  ∃ entry ∈ allowedHosts.hosts, ∃ pattern,
    (pattern = (toLowerCase entry).toList
      ∨ isDottedQuad (toLowerCase entry) = false
        ∧ pattern = '*' :: '.' :: (toLowerCase entry).toList)
    ∧ CspSource.isHostPart pattern = true ∧ CspSource.hostPartMatches pattern host = true

/-- A URL that is short enough, with a host that is listed. -/
def Listed (allowedHosts : Allowlist) (rawUrl : String) (host : Host) : Prop :=
  trim rawUrl ≠ "" ∧ utf16Length (trim rawUrl) ≤ 2048
    ∧ toLowerCase (hostname host) ∉ ["", "localhost"]
    ∧ hostMatchesIframeAllowlist (toLowerCase (hostname host)) allowedHosts = true

/-! ## Which sources there are -/

theorem mem_addSource {out : List String} {s source : String} :
    s ∈ addSource out source ↔ s ∈ out ∨ s = source := by
  unfold addSource
  split
  case isTrue h =>
    have hmem := List.contains_iff_mem.1 h
    constructor
    · exact .inl
    · rintro (h | rfl)
      · exact h
      · exact hmem
  case isFalse => simp

theorem mem_foldl_addSource {out sources : List String} {s : String} :
    s ∈ sources.foldl addSource out ↔ s ∈ out ∨ s ∈ sources := by
  induction sources generalizing out with
  | nil => simp
  | cons source sources ih => rw [List.foldl_cons, ih, mem_addSource, List.mem_cons, or_assoc]

theorem mem_foldl_entrySources {out hosts : List String} {s : String} :
    s ∈ hosts.foldl (fun out h => (entrySources h).foldl addSource out) out
      ↔ s ∈ out ∨ ∃ h ∈ hosts, s ∈ entrySources h := by
  induction hosts generalizing out with
  | nil => simp
  | cons h hosts ih =>
    rw [List.foldl_cons, ih, mem_foldl_addSource]
    simp [or_assoc]

theorem mem_expandCspFrameSrcHostSources {allowedHosts : Allowlist} {s : String} :
    s ∈ expandCspFrameSrcHostSources allowedHosts
      ↔ ∃ h ∈ allowedHosts.hosts, s ∈ entrySources h := by
  rw [expandCspFrameSrcHostSources, mem_foldl_entrySources]
  simp

theorem trim_host {s : String} (h : isHostText s = true) : trim s = s := by
  have hspace : ∀ c ∈ s.toList, isStrWhiteSpaceChar c = false := by
    intro c hc
    have hall := List.all_eq_true.1 h c hc
    simp only [Bool.and_eq_true, Bool.not_eq_true'] at hall
    exact hall.1.1.1
  have hkeep : ∀ cs : List Char, (∀ c ∈ cs, isStrWhiteSpaceChar c = false) →
      cs.dropWhile isStrWhiteSpaceChar = cs := by
    intro cs hcs
    cases cs with
    | nil => rfl
    | cons c cs => exact List.dropWhile_cons_of_neg (by simp [hcs c])
  rw [trim, trimStr, hkeep _ hspace, hkeep _ (by simpa using hspace), List.reverse_reverse,
    String.ofList_toList]

/-- The sources of an entry that is a host part. -/
theorem mem_entrySources {entry : String} (hentry : isHostText entry = true)
    (hne : (toLowerCase entry).toList ≠ []) (hcolon : ':' ∉ (toLowerCase entry).toList) :
    "https://" ++ toLowerCase entry ∈ entrySources entry
      ∧ (isDottedQuad (toLowerCase entry) = false →
        "https://" ++ ("*." ++ toLowerCase entry) ∈ entrySources entry) := by
  have hempty : toLowerCase entry ≠ "" := by
    intro h
    rw [h] at hne
    exact hne rfl
  have hskip : (decide (toLowerCase entry = "") || (toLowerCase entry).toList.contains ':')
      = false := by
    simp [hempty, hcolon]
  simp only [entrySources, trim_host hentry]
  rw [hskip, if_neg Bool.false_ne_true]
  constructor
  · split <;> simp
  · intro hquad
    rw [if_neg (by simp [hquad])]
    simp

/-- The sources permit an https URL with the default port whose host an entry frames. -/
theorem permitted_iff {allowedHosts : Allowlist} {url : Url} :
    permitted allowedHosts url
      ↔ url.scheme = .https ∧ url.port = none ∧ FramedBy allowedHosts url.host := by
  constructor
  · rintro ⟨source, hsource, hpermits⟩
    obtain ⟨entry, hentry, hmem⟩ := mem_expandCspFrameSrcHostSources.1 hsource
    simp only [entrySources, trim_host (allowedHosts.isHost entry hentry)] at hmem
    split_ifs at hmem with hskip hquad
    · cases hmem
    · obtain rfl := List.mem_singleton.1 hmem
      obtain ⟨hscheme, hport, hpart, hmatch⟩ := (CspSource.permits_https _ _).1 hpermits
      exact ⟨hscheme, hport, entry, hentry, _, .inl rfl, hpart, hmatch⟩
    · simp only [List.mem_cons, List.not_mem_nil, or_false] at hmem
      rcases hmem with rfl | rfl
      · obtain ⟨hscheme, hport, hpart, hmatch⟩ := (CspSource.permits_https _ _).1 hpermits
        exact ⟨hscheme, hport, entry, hentry, _, .inl rfl, hpart, hmatch⟩
      · obtain ⟨hscheme, hport, hpart, hmatch⟩ := (CspSource.permits_https _ _).1 hpermits
        have hname : isDottedQuad (toLowerCase entry) = false := by simpa using hquad
        exact ⟨hscheme, hport, entry, hentry, _, .inr ⟨hname, by simp⟩, hpart, hmatch⟩
  · rintro ⟨hscheme, hport, entry, hentry, pattern, rfl | ⟨hquad, rfl⟩, hpart, hmatch⟩
    · obtain ⟨hne, hcolon⟩ := CspSource.isHostPart_spec hpart
      have hsource := (mem_entrySources (allowedHosts.isHost entry hentry) hne hcolon).1
      exact ⟨_, mem_expandCspFrameSrcHostSources.2 ⟨entry, hentry, hsource⟩,
        (CspSource.permits_https _ _).2 ⟨hscheme, hport, hpart, hmatch⟩⟩
    · obtain ⟨hne, hcolon⟩ := CspSource.isLabels_spec hpart
      have hsource := (mem_entrySources (allowedHosts.isHost entry hentry) hne hcolon).2 hquad
      have htext : ("*." ++ toLowerCase entry).toList
          = '*' :: '.' :: (toLowerCase entry).toList := by
        simp
      exact ⟨_, mem_expandCspFrameSrcHostSources.2 ⟨entry, hentry, hsource⟩,
        (CspSource.permits_https _ _).2 ⟨hscheme, hport, htext ▸ hpart, htext ▸ hmatch⟩⟩

/-! ## Which URLs are accepted -/

theorem validateIframeUrl_eq_ok {api : UrlApi} {allowedHosts : Allowlist} {rawUrl url : String} :
    validateIframeUrl api rawUrl false allowedHosts = .ok url
      ↔ ∃ parsed, api.parse (trim rawUrl) = some parsed ∧ parsed.scheme = .https
        ∧ Listed allowedHosts rawUrl parsed.host ∧ url = api.href parsed := by
  unfold validateIframeUrl Listed
  dsimp only
  constructor
  · intro h
    split_ifs at h with hempty hlong
    split at h
    case h_1 => cases h
    case h_2 parsed hparsed =>
      split_ifs at h with hscheme hhost hlisted
      have hhttps : parsed.scheme = .https := by
        by_contra hne
        exact hscheme ⟨hne, by simp⟩
      refine ⟨parsed, hparsed, hhttps, ⟨hempty, not_lt.1 hlong, by simpa using hhost, ?_⟩, ?_⟩
      · simpa using hlisted
      · injection h with h
        exact h.symm
  · rintro ⟨parsed, hparsed, hscheme, ⟨hempty, hlong, hhost, hlisted⟩, rfl⟩
    rw [if_neg hempty, if_neg (not_lt.2 hlong), hparsed]
    simp only
    rw [if_neg (by simp [hscheme]), if_neg (by simpa using hhost), if_neg (by simp [hlisted])]

/-- A page at another port than the default one. -/
def portUrl : Url :=
  ⟨.https, .domain ⟨"example.com", List.forall_iff_forall_mem.mp (by decide)⟩, some 8443⟩

/-- It reads that page only. -/
def portApi : UrlApi where
  parse := fun text => if text = "https://example.com:8443/" then some portUrl else none
  href := fun _ => "https://example.com:8443/"
  parse_href := by
    intro text url h
    split at h
    · exact h
    · cases h

def exampleHosts : Allowlist := ⟨["example.com"], by decide⟩

end BlockMiner.IframeHosts
