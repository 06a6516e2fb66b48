import BlockMiner.Json
import Mathlib.Data.List.Basic

/-!
# Host sources of a Content-Security-Policy

Which URLs a source such as `https://*.example.com` permits, after the third
level of the standard. A source here has a scheme and neither a port nor a path.
A source without a port permits only the default port of the URL's scheme, and
no source permits a host that is an address.
-/

namespace BlockMiner.CspSource

inductive Scheme where
  | http | https | other (name : String)
deriving DecidableEq

/-- A name as a URL has it, in small letters. -/
structure DomainName where
  text : String
  isLower : ∀ c ∈ text.toList, c.toNat < 128 ∧ c.toLower = c

inductive Host where
  | domain (name : DomainName)
  /-- An IPv4 or a bracketed IPv6 address. -/
  | address (text : String)

structure Url where
  scheme : Scheme
  host : Host
  /-- `none` is the default port of the scheme. -/
  port : Option ℕ

/-! ## Grammar -/

def isHostChar (c : Char) : Bool := c.isAlphanum || c = '-'

/-- Labels with dots between them, and perhaps one at the end. -/
def isLabels (cs : List Char) : Bool :=
  let parts := cs.splitOn '.'
  let labels := if parts.getLast? = some [] then parts.dropLast else parts
  !labels.isEmpty && labels.all fun label => !label.isEmpty && label.all isHostChar

def isHostPart : List Char → Bool
  | ['*'] => true
  | '*' :: '.' :: cs => isLabels cs
  | cs => isLabels cs

structure HostSource where
  scheme : Scheme
  hostPart : List Char

def schemeOf (cs : List Char) : Scheme :=
  if cs = "https".toList then .https
  else if cs = "http".toList then .http
  else .other (String.ofList cs)

def parseHostSource (source : String) : Option HostSource :=
  let cs := source.toList
  match cs.dropWhile (· ≠ ':') with
  | ':' :: '/' :: '/' :: hostPart =>
      if isHostPart hostPart then
        some ⟨schemeOf ((cs.takeWhile (· ≠ ':')).map Char.toLower), hostPart⟩
      else none
  | _ => none

/-! ## Matching -/

def schemeMatches (pattern scheme : Scheme) : Bool :=
  pattern = scheme || (pattern = .http && scheme = .https)

def hostPartMatches (pattern : List Char) : Host → Bool
  | .address _ => false
  | .domain name =>
      let pattern := pattern.map Char.toLower
      match pattern with
      | ['*'] => true
      | '*' :: '.' :: parent => ('.' :: parent).isSuffixOf name.text.toList
      | pattern => pattern = name.text.toList

def permits (source : String) (url : Url) : Bool :=
  (parseHostSource source).any fun s =>
    schemeMatches s.scheme url.scheme && hostPartMatches s.hostPart url.host && url.port.isNone

/-- What a source with the scheme `https` permits. -/
theorem permits_https (host : String) (url : Url) :
    permits ("https://" ++ host) url = true
      ↔ url.scheme = .https ∧ url.port = none ∧ isHostPart host.toList = true
        ∧ hostPartMatches host.toList url.host = true := by
  have hparse : parseHostSource ("https://" ++ host)
      = if isHostPart host.toList then some ⟨.https, host.toList⟩ else none := by
    simp only [parseHostSource, String.toList_append]
    rfl
  rw [permits, hparse]
  by_cases hpart : isHostPart host.toList = true
  · simp only [hpart, if_true, Option.any_some, schemeMatches, Bool.and_eq_true, Bool.or_eq_true,
      decide_eq_true_eq, Option.isNone_iff_eq_none]
    grind
  · simp [hpart]

/-! ## Host parts -/

theorem mem_splitOn (sep : Char) {c : Char} {cs : List Char} (h : c ∈ cs) :
    c = sep ∨ ∃ part ∈ cs.splitOn sep, c ∈ part := by
  induction cs with
  | nil => cases h
  | cons x cs ih =>
    rw [List.splitOn_cons_eq_if_modifyHead]
    obtain ⟨head, tail, hsplit⟩ := List.exists_cons_of_ne_nil (List.splitOn_ne_nil sep cs)
    rw [hsplit] at ih ⊢
    rw [List.modifyHead_cons]
    split
    case isTrue hx =>
      rcases List.mem_cons.1 h with rfl | h
      · exact .inl (beq_iff_eq.1 hx)
      · rcases ih h with hc | ⟨part, hpart, hc⟩
        · exact .inl hc
        · exact .inr ⟨part, List.mem_cons_of_mem _ hpart, hc⟩
    case isFalse =>
      rcases List.mem_cons.1 h with rfl | h
      · exact .inr ⟨_, List.mem_cons_self, List.mem_cons_self⟩
      · rcases ih h with hc | ⟨part, hpart, hc⟩
        · exact .inl hc
        · rcases List.mem_cons.1 hpart with rfl | hpart
          · exact .inr ⟨_, List.mem_cons_self, List.mem_cons_of_mem _ hc⟩
          · exact .inr ⟨part, List.mem_cons_of_mem _ hpart, hc⟩

theorem isLabels_spec {cs : List Char} (h : isLabels cs = true) : cs ≠ [] ∧ ':' ∉ cs := by
  constructor
  · rintro rfl
    exact absurd h (by decide)
  · intro hcolon
    obtain hdot | ⟨part, hpart, hc⟩ := mem_splitOn '.' hcolon
    · exact absurd hdot (by decide)
    · have hlabel : part ∈ (if (cs.splitOn '.').getLast? = some [] then (cs.splitOn '.').dropLast
          else cs.splitOn '.') := by
        split
        case isTrue hlast =>
          obtain ⟨init, hinit⟩ := List.getLast?_eq_some_iff.1 hlast
          rw [hinit, List.dropLast_concat]
          rw [hinit] at hpart
          rcases List.mem_append.1 hpart with hpart | hpart
          · exact hpart
          · rw [List.mem_singleton.1 hpart] at hc
            cases hc
        case isFalse => exact hpart
      have hall := (Bool.and_eq_true_iff.1 h).2
      have hchars := (Bool.and_eq_true_iff.1 (List.all_eq_true.1 hall part hlabel)).2
      exact absurd (List.all_eq_true.1 hchars ':' hc) (by decide)

/-- A host part is not empty and names no port. -/
theorem isHostPart_spec {cs : List Char} (h : isHostPart cs = true) : cs ≠ [] ∧ ':' ∉ cs := by
  unfold isHostPart at h
  split at h
  case h_1 => simp
  case h_2 cs =>
    have hlabels := isLabels_spec h
    simp [hlabels.2]
  case h_3 => exact isLabels_spec h

example : permits "https://*.example.com" ⟨.https, .domain ⟨"a.example.com",
    List.forall_iff_forall_mem.mp (by decide)⟩, none⟩ := by decide

end BlockMiner.CspSource
