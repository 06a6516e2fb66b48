import BlockMiner.Json
import Mathlib.Tactic.Ring

/-!
# JSON texts

`JSON.stringify` of texts, whole numbers and flat objects, and `JSON.parse`. A
lone surrogate in a text, which no `String` here can hold, is read as U+FFFD.
-/

namespace BlockMiner.JsonSyntax

/-! ## Writing -/

def hexDigit (n : ℕ) : Char := Nat.digitChar n

/-- A character as `JSON.stringify` writes it in a text. -/
def quoteChar (c : Char) : List Char :=
  if c = '"' then ['\\', '"']
  else if c = '\\' then ['\\', '\\']
  else if c = '\x08' then ['\\', 'b']
  else if c = '\x0c' then ['\\', 'f']
  else if c = '\n' then ['\\', 'n']
  else if c = '\r' then ['\\', 'r']
  else if c = '\t' then ['\\', 't']
  else if c.toNat < 0x20 then
    ['\\', 'u', '0', '0', hexDigit (c.toNat / 16), hexDigit (c.toNat % 16)]
  else [c]

def quote (s : String) : List Char := '"' :: s.toList.flatMap quoteChar ++ ['"']

def intText (n : ℤ) : List Char :=
  if n < 0 then '-' :: Nat.toDigits 10 n.natAbs else Nat.toDigits 10 n.natAbs

inductive Scalar where
  | text (s : String)
  | whole (n : ℤ)

def Scalar.chars : Scalar → List Char
  | .text s => quote s
  | .whole n => intText n

def Scalar.json : Scalar → Json JsNumber
  | .text s => .string s
  | .whole n => .number (.finite n)

def fieldText (field : String × Scalar) : List Char := quote field.1 ++ ':' :: field.2.chars

def fieldsText : List (String × Scalar) → List Char
  | [] => []
  | [field] => fieldText field
  | field :: fields => fieldText field ++ ',' :: fieldsText fields

/-- `JSON.stringify` of an object of texts and whole numbers. -/
def stringify (fields : List (String × Scalar)) : String :=
  String.ofList ('{' :: fieldsText fields ++ ['}'])

/-! ## Reading -/

def isSpace (c : Char) : Bool := c = ' ' || c = '\t' || c = '\n' || c = '\r'

def skip (cs : List Char) : List Char := cs.dropWhile isSpace

def hex4 (a b c d : Char) : Option ℕ := do
  return (((← digitValue 16 a) * 16 + (← digitValue 16 b)) * 16 + (← digitValue 16 c)) * 16
    + (← digitValue 16 d)

def unescape (c : Char) : Option Char :=
  if c = '"' ∨ c = '\\' ∨ c = '/' then some c
  else if c = 'b' then some '\x08'
  else if c = 'f' then some '\x0c'
  else if c = 'n' then some '\n'
  else if c = 'r' then some '\r'
  else if c = 't' then some '\t'
  else none

def isHigh (n : ℕ) : Bool := 0xD800 ≤ n && n < 0xDC00

def isLow (n : ℕ) : Bool := 0xDC00 ≤ n && n < 0xE000

/-- The character of a unit of 16 bits. -/
def unitChar (n : ℕ) : Char := if isHigh n || isLow n then '\uFFFD' else Char.ofNat n

/-- A text after its opening quote. A surrogate waits in `high` for its other half. -/
def textBody (high : Option ℕ) : List Char → Option (List Char × List Char)
  | '"' :: cs => some (high.elim [] fun _ => ['\uFFFD'], cs)
  | '\\' :: 'u' :: a :: b :: c :: d :: cs =>
      (hex4 a b c d).bind fun n =>
        let before : List Char := high.elim [] fun _ => ['\uFFFD']
        if isHigh n then (textBody (some n) cs).map fun r => (before ++ r.1, r.2)
        else
          match high with
          | some h =>
              if isLow n then
                (textBody none cs).map fun r =>
                  (Char.ofNat (0x10000 + (h - 0xD800) * 0x400 + (n - 0xDC00)) :: r.1, r.2)
              else (textBody none cs).map fun r => ('\uFFFD' :: unitChar n :: r.1, r.2)
          | none => (textBody none cs).map fun r => (unitChar n :: r.1, r.2)
  | '\\' :: c :: cs =>
      (unescape c).bind fun e => (textBody none cs).map fun r =>
        (high.elim [] (fun _ => ['\uFFFD']) ++ e :: r.1, r.2)
  | c :: cs =>
      if c.toNat < 0x20 ∨ c = '\\' then none
      else (textBody none cs).map fun r => (high.elim [] (fun _ => ['\uFFFD']) ++ c :: r.1, r.2)
  | [] => none

def exponent : List Char → Option (ℤ × List Char)
  | e :: cs =>
      if e ≠ 'e' ∧ e ≠ 'E' then some (0, e :: cs)
      else
        let (sign, cs) : ℤ × List Char := match cs with
          | '-' :: cs => (-1, cs)
          | '+' :: cs => (1, cs)
          | cs => (1, cs)
        let (value, count, rest) := readDigits 10 0 0 cs
        if count = 0 then none else some (sign * value, rest)
  | [] => some (0, [])

/-- The digits after a point, if there is one: their value and their number. -/
def fraction : List Char → Option (ℕ × ℕ × List Char)
  | '.' :: cs => (some (readDigits 10 0 0 cs)).filter (·.2.1 ≠ 0)
  | cs => some (0, 0, cs)

/-- A whole part of several digits has no leading zero. -/
def unsigned (cs : List Char) : Option (ℚ × List Char) := do
  let (whole, count, rest) := readDigits 10 0 0 cs
  if count = 0 ∨ (1 < count ∧ cs.head? = some '0') then none
  else
    let (part, places, rest) ← fraction rest
    let (e, rest) ← exponent rest
    return ((whole * 10 ^ places + part : ℕ) * (10 : ℚ) ^ (e - places), rest)

def number : List Char → Option (ℚ × List Char)
  | '-' :: cs => (unsigned cs).map fun r => (-r.1, r.2)
  | cs => unsigned cs

mutual

/-- A value at the start of a text, and the rest. -/
def value : ℕ → List Char → Option (Json JsNumber × List Char)
  | 0, _ => none
  | fuel + 1, cs =>
      match skip cs with
      | 'n' :: 'u' :: 'l' :: 'l' :: cs => some (.null, cs)
      | 't' :: 'r' :: 'u' :: 'e' :: cs => some (.bool true, cs)
      | 'f' :: 'a' :: 'l' :: 's' :: 'e' :: cs => some (.bool false, cs)
      | '"' :: cs => (textBody none cs).map fun r => (.string (String.ofList r.1), r.2)
      | '[' :: cs =>
          match skip cs with
          | ']' :: cs => some (.array [], cs)
          | cs => (items fuel cs).map fun r => (.array r.1, r.2)
      | '{' :: cs =>
          match skip cs with
          | '}' :: cs => some (.object [], cs)
          | cs => (members fuel cs).map fun r => (.object r.1, r.2)
      | cs => (number cs).map fun r => (.number (.finite r.1), r.2)

/-- The items of an array, of which there is at least one. -/
def items : ℕ → List Char → Option (List (Json JsNumber) × List Char)
  | 0, _ => none
  | fuel + 1, cs =>
      (value fuel cs).bind fun (item, cs) =>
        match skip cs with
        | ',' :: cs => (items fuel cs).map fun r => (item :: r.1, r.2)
        | ']' :: cs => some ([item], cs)
        | _ => none

/-- The fields of an object, of which there is at least one. -/
def members : ℕ → List Char → Option (List (String × Json JsNumber) × List Char)
  | 0, _ => none
  | fuel + 1, cs =>
      match skip cs with
      | '"' :: cs =>
          (textBody none cs).bind fun (key, cs) =>
            match skip cs with
            | ':' :: cs =>
                (value fuel cs).bind fun (item, cs) =>
                  match skip cs with
                  | ',' :: cs =>
                      (members fuel cs).map fun r => ((String.ofList key, item) :: r.1, r.2)
                  | '}' :: cs => some ([(String.ofList key, item)], cs)
                  | _ => none
            | _ => none
      | _ => none

end

/-- `JSON.parse`; `none` where it throws. A value is no deeper than its text is long. -/
def parse (text : String) : Option (Json JsNumber) :=
  match value (text.length + 1) text.toList with
  | some (json, rest) => if skip rest = [] then some json else none
  | none => none

/-! ## What was written is read -/

theorem digitValue_hexDigit : ∀ n < 16, digitValue 16 (hexDigit n) = some n := by
  decide

theorem textBody_quoteChar (c : Char) (cs : List Char) :
    textBody none (quoteChar c ++ cs) = (textBody none cs).map fun r => (c :: r.1, r.2) := by
  unfold quoteChar
  split_ifs with hquote hslash hb hf hn hr ht hcontrol
  · subst hquote; simp [textBody, unescape]
  · subst hslash; simp [textBody, unescape]
  · subst hb; simp [textBody, unescape]
  · subst hf; simp [textBody, unescape]
  · subst hn; simp [textBody, unescape]
  · subst hr; simp [textBody, unescape]
  · subst ht; simp [textBody, unescape]
  · have h1 := digitValue_hexDigit (c.toNat / 16) (by omega)
    have h2 := digitValue_hexDigit (c.toNat % 16) (by omega)
    have h0 : digitValue 16 '0' = some 0 := by decide
    have hunit : hex4 '0' '0' (hexDigit (c.toNat / 16)) (hexDigit (c.toNat % 16))
        = some c.toNat := by
      simp [hex4, h0, h1, h2]
      omega
    have hhigh : isHigh c.toNat = false := by simp [isHigh]; omega
    have hlow : isLow c.toNat = false := by simp [isLow]; omega
    simp [textBody, hunit, hhigh, unitChar, hlow, Char.ofNat_toNat]
  · rw [List.singleton_append, textBody]
    · simp [hcontrol, hslash]
    · exact hquote
    · intro _ _ _ _ _ hc
      exact absurd hc hslash
    · intro _ _ hc
      exact absurd hc hslash

theorem textBody_quote (cs rest : List Char) :
    textBody none (cs.flatMap quoteChar ++ '"' :: rest) = some (cs, rest) := by
  induction cs with
  | nil => simp [textBody]
  | cons c cs ih =>
    rw [List.flatMap_cons, List.append_assoc, textBody_quoteChar, ih]
    rfl

/-- What follows a number is no part of it. -/
def EndsNumber (rest : List Char) : Prop :=
  ∀ c ∈ rest.head?, digitValue 10 c = none ∧ c ≠ '.' ∧ c ≠ 'e' ∧ c ≠ 'E'

theorem digitValue_isDigit {c : Char} (h : c.isDigit = true) :
    digitValue 10 c = some (c.toNat - '0'.toNat) := by
  obtain ⟨hlow, hhigh⟩ : 48 ≤ c.toNat ∧ c.toNat ≤ 57 := by
    simpa [Char.isDigit, UInt32.le_iff_toNat_le] using h
  have hlt : c.toNat - 48 < 10 := by omega
  simp [digitValue, hlow, hhigh, Option.filter, hlt]

theorem readDigits_append {ds : List Char} (hds : ∀ c ∈ ds, c.isDigit = true) (value count : ℕ)
    (rest : List Char) :
    readDigits 10 value count (ds ++ rest)
      = readDigits 10 (Nat.ofDigitChars 10 ds value) (count + ds.length) rest := by
  induction ds generalizing value count with
  | nil => simp [Nat.ofDigitChars_nil]
  | cons c ds ih =>
    rw [List.cons_append, readDigits, digitValue_isDigit (hds c (by simp))]
    simp only
    rw [ih (fun d hd => hds d (by simp [hd])), Nat.ofDigitChars_cons, List.length_cons]
    congr 1 <;> ring_nf

theorem readDigits_toDigits {rest : List Char} (h : EndsNumber rest) (n : ℕ) :
    readDigits 10 0 0 (Nat.toDigits 10 n ++ rest) = (n, (Nat.toDigits 10 n).length, rest) := by
  rw [readDigits_append fun c hc => Nat.isDigit_of_mem_toDigits (by omega) (by omega) hc,
    Nat.ofDigitChars_ten_toDigits, zero_add]
  cases rest with
  | nil => rfl
  | cons c cs => simp [readDigits, (h c rfl).1]

theorem head_toDigits {n : ℕ} (h : 0 < n) : (Nat.toDigits 10 n).head? ≠ some '0' := by
  induction n using Nat.strongRecOn with
  | ind n ih =>
    by_cases hn : n < 10
    · rw [Nat.toDigits_of_lt_base hn]
      have hdigit : ∀ d < 10, 0 < d → Nat.digitChar d ≠ '0' := by decide
      simpa using hdigit n hn h
    · rw [Nat.toDigits_of_base_le (by omega) (by omega), List.head?_append]
      have hhead := ih (n / 10) (by omega) (by omega)
      cases hds : (Nat.toDigits 10 (n / 10)).head? with
      | none =>
        rw [List.head?_eq_none_iff] at hds
        exact absurd hds Nat.toDigits_ne_nil
      | some c =>
        rw [hds] at hhead
        simpa using hhead

theorem fraction_ends {rest : List Char} (h : EndsNumber rest) :
    fraction rest = some (0, 0, rest) := by
  cases rest with
  | nil => rfl
  | cons c cs =>
    rw [fraction]
    intro _ hc
    exact absurd (List.cons.inj hc).1 (h c rfl).2.1

theorem exponent_ends {rest : List Char} (h : EndsNumber rest) :
    exponent rest = some (0, rest) := by
  cases rest with
  | nil => rfl
  | cons c cs => exact if_pos (h c rfl).2.2

theorem unsigned_toDigits {rest : List Char} (h : EndsNumber rest) (n : ℕ) :
    unsigned (Nat.toDigits 10 n ++ rest) = some ((n : ℚ), rest) := by
  have hlen : 0 < (Nat.toDigits 10 n).length := Nat.length_toDigits_pos
  have hzero : ¬(1 < (Nat.toDigits 10 n).length
      ∧ (Nat.toDigits 10 n ++ rest).head? = some '0') := by
    rintro ⟨hlong, hhead⟩
    rcases Nat.eq_zero_or_pos n with rfl | hpos
    · simp at hlong
    · refine head_toDigits hpos ?_
      cases hds : Nat.toDigits 10 n with
      | nil => exact absurd hds Nat.toDigits_ne_nil
      | cons c cs => simpa [hds] using hhead
  unfold unsigned
  rw [readDigits_toDigits h]
  simp only [fraction_ends h, exponent_ends h, Option.bind_eq_bind, Option.bind_some]
  rw [if_neg (not_or.2 ⟨hlen.ne', hzero⟩)]
  simp

theorem number_intText {rest : List Char} (h : EndsNumber rest) (n : ℤ) :
    number (intText n ++ rest) = some ((n : ℚ), rest) := by
  unfold intText
  split_ifs with hneg
  · rw [List.cons_append, number, unsigned_toDigits h]
    have habs : ((n.natAbs : ℕ) : ℤ) = -n := Int.ofNat_natAbs_of_nonpos hneg.le
    have hq : ((n.natAbs : ℕ) : ℚ) = -(n : ℚ) := by
      rw [← Int.cast_natCast, habs, Int.cast_neg]
    simp [hq]
  · have habs : ((n.natAbs : ℕ) : ℤ) = n := Int.natAbs_of_nonneg (by omega)
    have hq : ((n.natAbs : ℕ) : ℚ) = (n : ℚ) := by rw [← Int.cast_natCast, habs]
    rw [number, unsigned_toDigits h, hq]
    intro cs hcs
    have hmem : '-' ∈ Nat.toDigits 10 n.natAbs := by
      cases hds : Nat.toDigits 10 n.natAbs with
      | nil => exact absurd hds Nat.toDigits_ne_nil
      | cons d ds =>
        rw [hds, List.cons_append] at hcs
        exact (List.cons.inj hcs).1 ▸ List.mem_cons_self
    exact absurd (Nat.isDigit_of_mem_toDigits (by omega) (by omega) hmem) (by decide)

theorem skip_cons {c : Char} (h : isSpace c = false) (cs : List Char) :
    skip (c :: cs) = c :: cs := by
  simp [skip, h]

theorem value_number {c : Char} (h : c.isDigit = true ∨ c = '-') (fuel : ℕ) (cs : List Char) :
    value (fuel + 1) (c :: cs)
      = (number (c :: cs)).map fun r => (.number (.finite r.1), r.2) := by
  have hspace : isSpace c = false := by
    rw [Bool.eq_false_iff]
    intro hspace
    simp only [isSpace, Bool.or_eq_true, decide_eq_true_eq] at hspace
    rcases hspace with ((rfl | rfl) | rfl) | rfl <;> simp at h
  rw [value, skip_cons hspace]
  split
  case h_7 => rfl
  all_goals
    rename_i heq
    obtain ⟨rfl, -⟩ := List.cons.inj heq
    simp at h

theorem intText_eq_cons (n : ℤ) :
    ∃ c cs, intText n = c :: cs ∧ (c.isDigit = true ∨ c = '-') := by
  unfold intText
  split_ifs
  · exact ⟨'-', _, rfl, .inr rfl⟩
  · cases hds : Nat.toDigits 10 n.natAbs with
    | nil => exact absurd hds Nat.toDigits_ne_nil
    | cons c cs =>
      have hmem : c ∈ Nat.toDigits 10 n.natAbs := hds ▸ List.mem_cons_self
      exact ⟨c, cs, rfl, .inl (Nat.isDigit_of_mem_toDigits (by omega) (by omega) hmem)⟩

theorem value_text (fuel : ℕ) (s : String) (rest : List Char) :
    value (fuel + 1) (quote s ++ rest) = some (.string s, rest) := by
  rw [quote, List.append_assoc, List.cons_append, value, skip_cons (by decide)]
  simp [textBody_quote]

theorem value_chars {rest : List Char} (h : EndsNumber rest) (fuel : ℕ) (s : Scalar) :
    value (fuel + 1) (s.chars ++ rest) = some (s.json, rest) := by
  cases s with
  | text s => exact value_text fuel s rest
  | whole n =>
    obtain ⟨c, cs, hc, hfirst⟩ := intText_eq_cons n
    have hnumber := number_intText h n
    simp only [Scalar.chars, Scalar.json]
    rw [hc, List.cons_append] at hnumber ⊢
    rw [value_number hfirst, hnumber]
    rfl

theorem ends_comma (rest : List Char) : EndsNumber (',' :: rest) := by
  intro c hc
  obtain rfl := Option.some.inj hc
  decide

theorem ends_brace (rest : List Char) : EndsNumber ('}' :: rest) := by
  intro c hc
  obtain rfl := Option.some.inj hc
  decide

/-- The field at the start of a text, up to what follows its value. -/
theorem members_field {rest : List Char} (h : EndsNumber rest) (fuel : ℕ) (key : String)
    (s : Scalar) :
    members (fuel + 2) (fieldText (key, s) ++ rest)
      = match skip rest with
        | ',' :: cs => (members (fuel + 1) cs).map fun r => ((key, s.json) :: r.1, r.2)
        | '}' :: cs => some ([(key, s.json)], cs)
        | _ => none := by
  have hvalue := value_chars h fuel s
  simp only [fieldText, quote, List.append_assoc, List.cons_append, List.nil_append]
  rw [members, skip_cons (by decide)]
  simp only [textBody_quote, Option.bind_some]
  rw [skip_cons (by decide)]
  simp only [hvalue, Option.bind_some, String.ofList_toList]

theorem members_fields (field : String × Scalar) (fields : List (String × Scalar)) {fuel : ℕ}
    (h : fields.length < fuel) (rest : List Char) :
    members (fuel + 1) (fieldsText (field :: fields) ++ '}' :: rest)
      = some ((field :: fields).map fun f => (f.1, f.2.json), rest) := by
  induction fields generalizing field fuel with
  | nil =>
    obtain ⟨fuel, rfl⟩ : ∃ n, fuel = n + 1 := ⟨fuel - 1, by simp at h; omega⟩
    rw [fieldsText, members_field (ends_brace rest), skip_cons (by decide)]
    rfl
  | cons next fields ih =>
    obtain ⟨fuel, rfl⟩ : ∃ n, fuel = n + 1 := ⟨fuel - 1, by simp at h; omega⟩
    rw [fieldsText, List.append_assoc, List.cons_append, members_field (ends_comma _),
      skip_cons (by decide)]
    · simp only
      rw [ih next (by simpa using h)]
      rfl
    · simp

theorem length_fieldsText (fields : List (String × Scalar)) :
    fields.length ≤ (fieldsText fields).length := by
  induction fields using fieldsText.induct with
  | case1 => simp [fieldsText]
  | case2 field => simp [fieldsText, fieldText, quote]
  | case3 field fields h ih =>
    rw [fieldsText]
    · simp only [List.length_append, List.length_cons]
      omega
    · exact h

theorem value_members (fuel : ℕ) (cs : List Char) :
    value (fuel + 1) ('{' :: '"' :: cs)
      = (members fuel ('"' :: cs)).map fun r => (.object r.1, r.2) := by
  rw [value, skip_cons (by decide)]
  simp only [skip_cons (show isSpace '"' = false by decide)]
  rfl

/-- What `JSON.stringify` writes, `JSON.parse` reads. -/
theorem parse_stringify (fields : List (String × Scalar)) :
    parse (stringify fields) = some (.object (fields.map fun f => (f.1, f.2.json))) := by
  have hlength : (stringify fields).length = (fieldsText fields).length + 2 := by
    rw [stringify, String.length_ofList]
    simp
  have hfuel := length_fieldsText fields
  unfold parse
  rw [hlength, stringify, String.toList_ofList, List.cons_append]
  cases fields with
  | nil => rfl
  | cons field fields =>
    have hquote : ∃ cs, fieldsText (field :: fields) ++ ['}'] = '"' :: cs := by
      cases fields <;> simp [fieldsText, fieldText, quote]
    have hlt : fields.length < (fieldsText (field :: fields)).length + 1 := by
      rw [List.length_cons] at hfuel
      omega
    have hmembers := members_fields field fields hlt []
    obtain ⟨cs, hcs⟩ := hquote
    rw [hcs] at hmembers ⊢
    rw [value_members, hmembers]
    rfl

end BlockMiner.JsonSyntax
