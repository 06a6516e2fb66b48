import BlockMiner.JsText
import Mathlib

/-!
# The CSRF check

`createCsrfMiddleware` runs before every route. It takes the token of the
`blockminer_csrf` cookie, or mints one if that is short, and asks a request that
changes state for the same token in a header. What is minted is random, so no
header has it.
-/

namespace BlockMiner.Csrf

def CSRF_COOKIE_NAME : String := "blockminer_csrf"

structure Request where
  method : String
  /-- `req.originalUrl`, with its query string. -/
  url : String
  cookie : Option String
  xCsrfToken : Option String

inductive Outcome where
  /-- `next()`, with the token of the response and whether a cookie with it is set. -/
  | next (csrfToken : String) (appendsSetCookie : Bool)
  | csrfInvalid
  | threw
deriving DecidableEq

/-! ## Cookies -/

/-- The bytes that a text with escapes stands for; `none` is an incomplete escape. -/
def unescapeBytes : List Char → Option (List UInt8)
  | '%' :: a :: b :: cs => do
      let byte := UInt8.ofNat ((← digitValue 16 a) * 16 + (← digitValue 16 b))
      return byte :: (← unescapeBytes cs)
  | '%' :: _ => none
  | c :: cs => (unescapeBytes cs).map (String.utf8EncodeChar c ++ ·)
  | [] => some []

/-- Escapes that are no UTF-8 throw. -/
def decodeURIComponent (text : String) : Option String :=
  (unescapeBytes text.toList).bind fun bytes =>
    if h : (ByteArray.mk bytes.toArray).IsValidUTF8 then some ⟨⟨bytes.toArray⟩, h⟩ else none

/-- The key of a part and its value, which is all that follows the first `=`. -/
def readPart (part : List Char) : String × String :=
  let part := trimStr part
  (String.ofList (part.takeWhile (· ≠ '=')), String.ofList ((part.dropWhile (· ≠ '=')).drop 1))

/-- The cookies, the last of a key first; `none` where a value throws. -/
def parseCookie (headerValue : String) : Option (List (String × String)) :=
  ((headerValue.toList.splitOn ';').map readPart).foldlM (fun acc part =>
    if part.1 = "" then some acc
    else (decodeURIComponent part.2).map fun value => (part.1, value) :: acc) []

/-! ## The check -/

/-- Socket.IO has no token. -/
def isExempt (url : String) : Bool := decide ("/socket.io/".toList <:+: url.toList)

def changesState (method : String) : Bool :=
  ["POST", "PUT", "DELETE", "PATCH"].contains (toUpperCase method)

/-- The cookie's token, unless it has to be replaced. -/
def cookieToken (cookies : List (String × String)) : Option String :=
  (cookies.lookup CSRF_COOKIE_NAME).filter fun token => 16 ≤ utf16Length token

def createCsrfMiddleware (minted : String) (req : Request) : Outcome :=
  match parseCookie (req.cookie.getD "") with
  | none => .threw
  | some cookies =>
      let csrfToken := (cookieToken cookies).getD minted
      let passed := Outcome.next csrfToken (cookieToken cookies).isNone
      if isExempt req.url then passed
      else if changesState req.method then
        match req.xCsrfToken.filter (· ≠ "") with
        | none => .csrfInvalid
        | some headerToken => if headerToken ≠ csrfToken then .csrfInvalid else passed
      else passed

def passes (minted : String) (req : Request) : Prop :=
  ∃ token setsCookie, createCsrfMiddleware minted req = .next token setsCookie

/-- The header has the token of the request's cookie, of at least 16 characters. -/
def TokenMatches (req : Request) : Prop :=
  ∃ cookies token, parseCookie (req.cookie.getD "") = some cookies
    ∧ cookies.lookup CSRF_COOKIE_NAME = some token ∧ 16 ≤ utf16Length token
    ∧ req.xCsrfToken = some token

/-- A path under `/api`, whatever its case. -/
def isApiUrl (url : String) : Bool :=
  ("/api/".toList).isPrefixOf ((toLowerCase url).toList.takeWhile (· ≠ '?'))

/-! ## What is let through -/

theorem cookieToken_eq_some {cookies : List (String × String)} {token : String} :
    cookieToken cookies = some token
      ↔ cookies.lookup CSRF_COOKIE_NAME = some token ∧ 16 ≤ utf16Length token := by
  simp [cookieToken, Option.filter_eq_some_iff]

theorem passes_matches {minted : String} {req : Request} (hexempt : isExempt req.url = false)
    (hmethod : changesState req.method = true) (hminted : req.xCsrfToken ≠ some minted)
    (h : passes minted req) : TokenMatches req := by
  obtain ⟨token, setsCookie, h⟩ := h
  unfold createCsrfMiddleware at h
  split at h
  case h_1 => cases h
  case h_2 cookies hcookies =>
    simp only [hexempt, hmethod, Bool.false_eq_true, if_false, if_true] at h
    split at h
    case h_1 => cases h
    case h_2 headerToken hheader =>
      have hgiven : req.xCsrfToken = some headerToken := (Option.filter_eq_some_iff.1 hheader).1
      split at h
      case isTrue => cases h
      case isFalse hsame =>
        have hsame : headerToken = (cookieToken cookies).getD minted := not_not.1 hsame
        cases htoken : cookieToken cookies with
        | none =>
          rw [htoken] at hsame
          exact absurd (hgiven.trans (congrArg some hsame)) hminted
        | some cookie =>
          rw [htoken] at hsame
          obtain ⟨hlookup, hlength⟩ := cookieToken_eq_some.1 htoken
          exact ⟨cookies, cookie, hcookies, hlookup, hlength,
            hgiven.trans (congrArg some hsame)⟩

/-- A request that has neither a cookie nor a token. -/
def bareRequest (url : String) : Request := ⟨"POST", url, none, none⟩

theorem bareRequest_passes {url : String} (h : isExempt url = true) (minted : String) :
    passes minted (bareRequest url) ∧ ¬TokenMatches (bareRequest url) := by
  have hcookies : parseCookie "" = some [] := by decide
  constructor
  · refine ⟨minted, true, ?_⟩
    simp [createCsrfMiddleware, bareRequest, hcookies, h, cookieToken]
  · rintro ⟨cookies, token, -, -, -, hheader⟩
    cases hheader

/-- **Only a token lets a change through** exactly at the URLs without `/socket.io/`, in
their query strings too. -/
theorem passes_only_with_token_iff (url : String) :
    (∀ (req : Request) (minted : String), req.url = url → changesState req.method = true →
      req.xCsrfToken ≠ some minted → passes minted req → TokenMatches req)
    ↔ isExempt url = false := by
  constructor
  · intro h
    rw [Bool.eq_false_iff]
    intro hexempt
    obtain ⟨hpasses, hno⟩ := bareRequest_passes hexempt "minted"
    have hpost : changesState "POST" = true := by decide
    exact hno (h (bareRequest url) "minted" rfl hpost (by simp [bareRequest]) hpasses)
  · rintro hexempt req minted rfl hmethod hminted hpasses
    exact passes_matches hexempt hmethod hminted hpasses

/-- A withdrawal with a query string that names Socket.IO. -/
theorem withdrawal_passes_bare :
    isApiUrl "/api/wallet/withdraw?next=/socket.io/" = true
      ∧ ∀ minted, passes minted (bareRequest "/api/wallet/withdraw?next=/socket.io/")
        ∧ ¬TokenMatches (bareRequest "/api/wallet/withdraw?next=/socket.io/") :=
  ⟨by decide +kernel, fun minted => bareRequest_passes (by decide +kernel) minted⟩

example : parseCookie "a=1; blockminer_csrf=x%3Dy=z"
    = some [(CSRF_COOKIE_NAME, "x=y=z"), ("a", "1")] := by
  decide +kernel

end BlockMiner.Csrf
