import BlockMiner.JsonSyntax
import Mathlib.Data.List.DropRight

/-!
# JSON texts in code units

Texts as the language has them, as UTF-16 code units with surrogates in any
order, and `JSON.stringify` and `JSON.parse` of them. A text that was written
is read back, lone surrogates too (`parse_stringify`). The literal of a number
is read as in `JsonSyntax`.
-/

namespace BlockMiner.Utf16Json

abbrev Utf16 := List UInt16

/-- The units of a text in ASCII. -/
def ascii (cs : List Char) : Utf16 := cs.map fun c => c.toNat.toUInt16

inductive Value where
  | null
  | bool (b : Bool)
  | number (q : ℚ)
  | string (s : Utf16)
  | array (items : List Value)
  | object (fields : List (Utf16 × Value))

/-- `value[key]` of an object that was parsed: the last of several fields counts. -/
def Value.get (key : String) : Value → Option Value
  | .object fields => fields.reverse.lookup (ascii key.toList)
  | _ => none

/-! ## Writing -/

def isHigh (u : UInt16) : Bool := 0xD800 ≤ u && u < 0xDC00

def isLow (u : UInt16) : Bool := 0xDC00 ≤ u && u < 0xE000

/-- A digit of `\u`, of which there are four. -/
def hexUnit (n : ℕ) : UInt16 := (if n < 10 then 48 + n else 87 + n).toUInt16

def escapeHex (u : UInt16) : Utf16 :=
  [92, 117, hexUnit (u.toNat / 4096), hexUnit (u.toNat / 256 % 16), hexUnit (u.toNat / 16 % 16),
    hexUnit (u.toNat % 16)]

/-- A unit on its own, as `JSON.stringify` writes it in a text. -/
def quoteUnit (u : UInt16) : Utf16 :=
  if u = 34 then [92, 34]
  else if u = 92 then [92, 92]
  else if u = 8 then [92, 98]
  else if u = 12 then [92, 102]
  else if u = 10 then [92, 110]
  else if u = 13 then [92, 114]
  else if u = 9 then [92, 116]
  else if u < 32 || isHigh u || isLow u then escapeHex u
  else [u]

/-- A pair of surrogates stays, a lone one is escaped. -/
def quoteUnits : Utf16 → Utf16
  | [] => []
  | [u] => quoteUnit u
  | u :: w :: us =>
      if isHigh u && isLow w then u :: w :: quoteUnits us
      else quoteUnit u ++ quoteUnits (w :: us)

def quote (s : Utf16) : Utf16 := 34 :: quoteUnits s ++ [34]

/-- A value that is written: its numbers are whole. -/
inductive Out where
  | text (s : Utf16)
  | whole (n : ℕ)
  | list (items : List Out)
  | record (fields : List (String × Out))

mutual

def Out.value : Out → Value
  | .text s => .string s
  | .whole n => .number n
  | .list items => .array (itemValues items)
  | .record fields => .object (fieldValues fields)

def itemValues : List Out → List Value
  | [] => []
  | item :: items => item.value :: itemValues items

def fieldValues : List (String × Out) → List (Utf16 × Value)
  | [] => []
  | (key, item) :: fields => (ascii key.toList, item.value) :: fieldValues fields

end

mutual

def stringify : Out → Utf16
  | .text s => quote s
  | .whole n => ascii (Nat.toDigits 10 n)
  | .list items => 91 :: (stringifyItems items ++ [93])
  | .record fields => 123 :: (stringifyFields fields ++ [125])

def stringifyItems : List Out → Utf16
  | [] => []
  | [item] => stringify item
  | item :: next :: items => stringify item ++ 44 :: stringifyItems (next :: items)

def stringifyFields : List (String × Out) → Utf16
  | [] => []
  | [(key, item)] => quote (ascii key.toList) ++ 58 :: stringify item
  | (key, item) :: next :: fields =>
      quote (ascii key.toList) ++ 58 :: (stringify item ++ 44 :: stringifyFields (next :: fields))

end

/-! ## Reading -/

def isSpace (u : UInt16) : Bool := u = 32 || u = 9 || u = 10 || u = 13

def skip (us : Utf16) : Utf16 := us.dropWhile isSpace

def hexValue (u : UInt16) : Option ℕ := digitValue 16 (JsonSyntax.unitChar u.toNat)

def hex4 (a b c d : UInt16) : Option UInt16 := do
  return ((((← hexValue a) * 16 + (← hexValue b)) * 16 + (← hexValue c)) * 16
    + (← hexValue d)).toUInt16

def unescape (u : UInt16) : Option UInt16 :=
  if u = 34 ∨ u = 92 ∨ u = 47 then some u
  else if u = 98 then some 8
  else if u = 102 then some 12
  else if u = 110 then some 10
  else if u = 114 then some 13
  else if u = 116 then some 9
  else none

/-- A text after its opening quote, and the rest. -/
def textBody : Utf16 → Option (Utf16 × Utf16)
  | 34 :: us => some ([], us)
  | 92 :: 117 :: a :: b :: c :: d :: us =>
      (hex4 a b c d).bind fun u => (textBody us).map fun r => (u :: r.1, r.2)
  | 92 :: e :: us => (unescape e).bind fun u => (textBody us).map fun r => (u :: r.1, r.2)
  | u :: us => if u < 32 ∨ u = 92 then none else (textBody us).map fun r => (u :: r.1, r.2)
  | [] => none

/-- The units that a number can have. -/
def isNumberUnit (u : UInt16) : Bool :=
  (48 ≤ u && u ≤ 57) || u = 45 || u = 43 || u = 46 || u = 101 || u = 69

def number (us : Utf16) : Option (ℚ × Utf16) :=
  let token := us.takeWhile isNumberUnit
  (JsonSyntax.number (token.map fun u => JsonSyntax.unitChar u.toNat)).map fun r =>
    (r.1, us.drop (token.length - r.2.length))

def keyword (word : String) (value : Value) (us : Utf16) : Option (Value × Utf16) :=
  if ascii word.toList <+: us then some (value, us.drop word.length) else none

/-- A value that is no text, array or object. -/
def literal (us : Utf16) : Option (Value × Utf16) :=
  (keyword "null" .null us).or ((keyword "true" (.bool true) us).or
    ((keyword "false" (.bool false) us).or ((number us).map fun r => (.number r.1, r.2))))

mutual

/-- A value at the start of a text, and the rest. -/
def value : ℕ → Utf16 → Option (Value × Utf16)
  | 0, _ => none
  | fuel + 1, us =>
      match skip us with
      | 34 :: us => (textBody us).map fun r => (.string r.1, r.2)
      | 91 :: us =>
          match skip us with
          | 93 :: us => some (.array [], us)
          | us => (items fuel us).map fun r => (.array r.1, r.2)
      | 123 :: us =>
          match skip us with
          | 125 :: us => some (.object [], us)
          | us => (members fuel us).map fun r => (.object r.1, r.2)
      | us => literal us

/-- The items of an array, of which there is at least one. -/
def items : ℕ → Utf16 → Option (List Value × Utf16)
  | 0, _ => none
  | fuel + 1, us =>
      (value fuel us).bind fun (item, us) =>
        match skip us with
        | 44 :: us => (items fuel us).map fun r => (item :: r.1, r.2)
        | 93 :: us => some ([item], us)
        | _ => none

/-- The fields of an object, of which there is at least one. -/
def members : ℕ → Utf16 → Option (List (Utf16 × Value) × Utf16)
  | 0, _ => none
  | fuel + 1, us =>
      match skip us with
      | 34 :: us =>
          (textBody us).bind fun (key, us) =>
            match skip us with
            | 58 :: us =>
                (value fuel us).bind fun (item, us) =>
                  match skip us with
                  | 44 :: us => (members fuel us).map fun r => ((key, item) :: r.1, r.2)
                  | 125 :: us => some ([(key, item)], us)
                  | _ => none
            | _ => none
      | _ => none

end

/-- `JSON.parse`; `none` where it throws. A value is no deeper than its text is long. -/
def parse (us : Utf16) : Option Value :=
  match value (us.length + 1) us with
  | some (json, rest) => if skip rest = [] then some json else none
  | none => none

/-! ## Texts are read back -/

theorem hexValue_hexUnit : ∀ n < 16, hexValue (hexUnit n) = some n := by
  decide

theorem textBody_escapeHex (u : UInt16) (us : Utf16) :
    textBody (escapeHex u ++ us) = (textBody us).map fun r => (u :: r.1, r.2) := by
  have hlt := u.toNat_lt
  have hunit : hex4 (hexUnit (u.toNat / 4096)) (hexUnit (u.toNat / 256 % 16))
      (hexUnit (u.toNat / 16 % 16)) (hexUnit (u.toNat % 16)) = some u := by
    rw [hex4, hexValue_hexUnit _ (by omega), hexValue_hexUnit _ (by omega),
      hexValue_hexUnit _ (by omega), hexValue_hexUnit _ (by omega)]
    have hdigits : ((u.toNat / 4096 * 16 + u.toNat / 256 % 16) * 16 + u.toNat / 16 % 16) * 16
        + u.toNat % 16 = u.toNat := by omega
    simp only [Option.bind_eq_bind, Option.bind_some, hdigits]
    exact congrArg some UInt16.ofNat_toNat
  simp only [escapeHex, List.cons_append, List.nil_append]
  rw [textBody, hunit]
  rfl

/-- A unit that needs no escape is read as it is. -/
theorem textBody_raw {u : UInt16} (h : 32 ≤ u) (hquote : u ≠ 34) (hslash : u ≠ 92) (us : Utf16) :
    textBody (u :: us) = (textBody us).map fun r => (u :: r.1, r.2) := by
  rw [textBody]
  · simp [UInt16.not_lt.mpr h, hslash]
  · exact hquote
  · intro _ _ _ _ _ hu
    exact absurd hu hslash
  · intro _ _ hu
    exact absurd hu hslash

theorem textBody_quoteUnit (u : UInt16) (us : Utf16) :
    textBody (quoteUnit u ++ us) = (textBody us).map fun r => (u :: r.1, r.2) := by
  unfold quoteUnit
  split_ifs with hquote hslash hb hf hn hr ht hescape
  · subst hquote; simp [textBody, unescape]
  · subst hslash; simp [textBody, unescape]
  · subst hb; simp [textBody, unescape]
  · subst hf; simp [textBody, unescape]
  · subst hn; simp [textBody, unescape]
  · subst hr; simp [textBody, unescape]
  · subst ht; simp [textBody, unescape]
  · exact textBody_escapeHex u us
  · have hlow : 32 ≤ u := by
      rw [Bool.not_eq_true, Bool.or_eq_false_iff, Bool.or_eq_false_iff] at hescape
      exact UInt16.not_lt.mp (of_decide_eq_false hescape.1.1)
    exact textBody_raw hlow hquote hslash us

/-- A surrogate of a pair is not escaped. -/
theorem textBody_surrogate {u : UInt16} (h : 0xD800 ≤ u) (us : Utf16) :
    textBody (u :: us) = (textBody us).map fun r => (u :: r.1, r.2) := by
  have hne {c : UInt16} (hc : ¬0xD800 ≤ c) : u ≠ c := by
    rintro rfl
    exact hc h
  exact textBody_raw (UInt16.le_trans (by decide) h) (hne (by decide)) (hne (by decide)) us

theorem textBody_quoteUnits (s rest : Utf16) :
    textBody (quoteUnits s ++ 34 :: rest) = some (s, rest) := by
  induction s using quoteUnits.induct with
  | case1 => simp [quoteUnits, textBody]
  | case2 u => rw [quoteUnits, textBody_quoteUnit]; simp [textBody]
  | case3 u w us hpair ih =>
      obtain ⟨hhigh, hlow⟩ := Bool.and_eq_true_iff.mp hpair
      have hu : 0xD800 ≤ u := of_decide_eq_true (Bool.and_eq_true_iff.mp hhigh).1
      have hw : 0xDC00 ≤ w := of_decide_eq_true (Bool.and_eq_true_iff.mp hlow).1
      rw [quoteUnits, if_pos hpair, List.cons_append, List.cons_append, textBody_surrogate hu,
        textBody_surrogate (UInt16.le_trans (by decide) hw), ih]
      rfl
  | case4 u w us hpair ih =>
      rw [quoteUnits, if_neg hpair, List.append_assoc, textBody_quoteUnit, ih]
      rfl

/-! ## Numbers are read back -/

/-- What follows a number is no part of it. -/
def EndsNumber (rest : Utf16) : Prop := ∀ u ∈ rest.head?, isNumberUnit u = false

theorem ends_cons {u : UInt16} (h : isNumberUnit u = false) (rest : Utf16) :
    EndsNumber (u :: rest) := by
  intro w hw
  obtain rfl := Option.some.inj hw
  exact h

/-- A digit as a unit. -/
theorem unit_of_digit {c : Char} (h : c.isDigit = true) :
    c.toNat.toUInt16.toNat = c.toNat ∧ 48 ≤ c.toNat ∧ c.toNat ≤ 57 := by
  obtain ⟨hlow, hhigh⟩ : 48 ≤ c.toNat ∧ c.toNat ≤ 57 := by
    simpa [Char.isDigit, UInt32.le_iff_toNat_le] using h
  refine ⟨?_, hlow, hhigh⟩
  rw [Nat.toUInt16, UInt16.toNat_ofNat']
  omega

theorem unitChar_of_digit {c : Char} (h : c.isDigit = true) :
    JsonSyntax.unitChar c.toNat.toUInt16.toNat = c := by
  obtain ⟨hunit, hlow, hhigh⟩ := unit_of_digit h
  have hnot : (JsonSyntax.isHigh c.toNat || JsonSyntax.isLow c.toNat) = false := by
    simp [JsonSyntax.isHigh, JsonSyntax.isLow]
    omega
  rw [hunit, JsonSyntax.unitChar, hnot]
  exact Char.ofNat_toNat c

theorem isNumberUnit_of_digit {c : Char} (h : c.isDigit = true) :
    isNumberUnit c.toNat.toUInt16 = true := by
  obtain ⟨hunit, hlow, hhigh⟩ := unit_of_digit h
  have hlow' : (48 : UInt16) ≤ c.toNat.toUInt16 := by
    rw [UInt16.le_iff_toNat_le, hunit]
    exact hlow
  have hhigh' : c.toNat.toUInt16 ≤ 57 := by
    rw [UInt16.le_iff_toNat_le, hunit]
    exact hhigh
  simp [isNumberUnit, hlow', hhigh']

theorem digit_ne {c : Char} (h : c.isDigit = true) {w : UInt16}
    (hw : w.toNat < 48 ∨ 57 < w.toNat) : c.toNat.toUInt16 ≠ w := by
  obtain ⟨hunit, hlow, hhigh⟩ := unit_of_digit h
  rintro rfl
  omega

theorem isSpace_digit {c : Char} (h : c.isDigit = true) : isSpace c.toNat.toUInt16 = false := by
  simp [isSpace, digit_ne h (w := 32) (by decide), digit_ne h (w := 9) (by decide),
    digit_ne h (w := 10) (by decide), digit_ne h (w := 13) (by decide)]

theorem isDigit_of_mem {c : Char} {n : ℕ} (h : c ∈ Nat.toDigits 10 n) : c.isDigit = true :=
  Nat.isDigit_of_mem_toDigits (by omega) (by omega) h

theorem number_whole {rest : Utf16} (h : EndsNumber rest) (n : ℕ) :
    number (ascii (Nat.toDigits 10 n) ++ rest) = some ((n : ℚ), rest) := by
  have htoken : (ascii (Nat.toDigits 10 n) ++ rest).takeWhile isNumberUnit
      = ascii (Nat.toDigits 10 n) := by
    have hrest : rest.takeWhile isNumberUnit = [] := by
      cases rest with
      | nil => rfl
      | cons u us => exact List.takeWhile_cons_of_neg (by simp [h u rfl])
    rw [List.takeWhile_append_of_pos, hrest, List.append_nil]
    intro u hu
    obtain ⟨c, hc, rfl⟩ := List.mem_map.mp hu
    exact isNumberUnit_of_digit (isDigit_of_mem hc)
  have hchars : (ascii (Nat.toDigits 10 n)).map (fun u => JsonSyntax.unitChar u.toNat)
      = JsonSyntax.intText n ++ [] := by
    rw [ascii, List.map_map, List.append_nil, JsonSyntax.intText, if_neg (by omega),
      Int.natAbs_natCast]
    exact (List.map_congr_left fun c hc => unitChar_of_digit (isDigit_of_mem hc)).trans
      (List.map_id _)
  have hread := @JsonSyntax.number_intText [] nofun n
  rw [number]
  simp only [htoken, hchars, hread, Option.map_some, List.length_nil, Nat.sub_zero,
    List.drop_left, Int.cast_natCast]

/-! ## Values are read back -/

theorem skip_cons {u : UInt16} (h : isSpace u = false) (us : Utf16) :
    skip (u :: us) = u :: us := by
  simp [skip, h]

theorem keyword_cons {word : String} {w u : UInt16} {ws us : Utf16} {v : Value}
    (hword : ascii word.toList = w :: ws) (h : w ≠ u) : keyword word v (u :: us) = none := by
  rw [keyword, hword, if_neg fun hprefix => h (List.cons_prefix_cons.mp hprefix).1]

theorem value_whole {rest : Utf16} (h : EndsNumber rest) (fuel n : ℕ) :
    value (fuel + 1) (ascii (Nat.toDigits 10 n) ++ rest) = some (.number n, rest) := by
  have hread := number_whole h n
  cases hdigits : Nat.toDigits 10 n with
  | nil => exact absurd hdigits Nat.toDigits_ne_nil
  | cons c cs =>
      rw [hdigits] at hread
      have hdigit : c.isDigit = true := isDigit_of_mem (hdigits ▸ List.mem_cons_self ..)
      rw [ascii, List.map_cons, List.cons_append] at hread ⊢
      have hliteral : literal (c.toNat.toUInt16 :: (cs.map (fun c => c.toNat.toUInt16) ++ rest))
          = some (.number n, rest) := by
        rw [literal, keyword_cons (w := 110) rfl (digit_ne hdigit (by decide)).symm,
          keyword_cons (w := 116) rfl (digit_ne hdigit (by decide)).symm,
          keyword_cons (w := 102) rfl (digit_ne hdigit (by decide)).symm, hread]
        rfl
      rw [value, skip_cons (isSpace_digit hdigit)]
      split
      · rename_i heq
        exact absurd (List.cons.inj heq).1 (digit_ne hdigit (by decide))
      · rename_i heq
        exact absurd (List.cons.inj heq).1 (digit_ne hdigit (by decide))
      · rename_i heq
        exact absurd (List.cons.inj heq).1 (digit_ne hdigit (by decide))
      · exact hliteral

theorem value_quote (fuel : ℕ) (s rest : Utf16) :
    value (fuel + 1) (quote s ++ rest) = some (.string s, rest) := by
  rw [quote, List.append_assoc, List.cons_append, value, skip_cons (by decide)]
  simp [textBody_quoteUnits]

/-- The first unit of a text starts no space and closes nothing. -/
theorem stringify_head (o : Out) :
    ∃ u us, stringify o = u :: us ∧ isSpace u = false ∧ u ≠ 93 := by
  cases o with
  | text s => exact ⟨34, _, by rw [stringify, quote, List.cons_append], rfl, by decide⟩
  | whole n =>
      cases hdigits : Nat.toDigits 10 n with
      | nil => exact absurd hdigits Nat.toDigits_ne_nil
      | cons c cs =>
          have hdigit : c.isDigit = true := isDigit_of_mem (hdigits ▸ List.mem_cons_self ..)
          exact ⟨_, _, by rw [stringify, hdigits, ascii, List.map_cons], isSpace_digit hdigit,
            digit_ne hdigit (by decide)⟩
  | list items => exact ⟨91, _, by rw [stringify], rfl, by decide⟩
  | record fields => exact ⟨123, _, by rw [stringify], rfl, by decide⟩

theorem value_array {us us' : Utf16} {u : UInt16} (h : skip us = u :: us') (hne : u ≠ 93)
    (fuel : ℕ) :
    value (fuel + 1) (91 :: us) = (items fuel (u :: us')).map fun r => (.array r.1, r.2) := by
  rw [value, skip_cons (by decide)]
  simp only [h]
  split
  · rename_i heq
    exact absurd (List.cons.inj heq).1 hne
  · rfl

theorem value_object {us us' : Utf16} {u : UInt16} (h : skip us = u :: us') (hne : u ≠ 125)
    (fuel : ℕ) :
    value (fuel + 1) (123 :: us) = (members fuel (u :: us')).map fun r => (.object r.1, r.2) := by
  rw [value, skip_cons (by decide)]
  simp only [h]
  split
  · rename_i heq
    exact absurd (List.cons.inj heq).1 hne
  · rfl

/-- The start of the items of an array, or of the fields of an object, is what is written. -/
theorem stringifyItems_head (item : Out) (items : List Out) (rest : Utf16) :
    ∃ u us, stringifyItems (item :: items) ++ rest = u :: us
      ∧ skip (u :: us) = u :: us ∧ u ≠ 93 := by
  obtain ⟨u, us, htext, hspace, hne⟩ := stringify_head item
  cases items with
  | nil =>
      rw [stringifyItems, htext]
      exact ⟨u, us ++ rest, rfl, skip_cons hspace _, hne⟩
  | cons next items =>
      rw [stringifyItems, htext, List.append_assoc]
      exact ⟨u, _, rfl, skip_cons hspace _, hne⟩

theorem stringifyFields_head (field : String × Out) (fields : List (String × Out)) (rest : Utf16) :
    ∃ us, stringifyFields (field :: fields) ++ rest = 34 :: us := by
  cases fields with
  | nil => exact ⟨_, by rw [stringifyFields, quote]; rfl⟩
  | cons next fields => exact ⟨_, by rw [stringifyFields, quote]; rfl⟩

/-- The field at the start of a text, up to what follows its value. -/
theorem members_field {fuel : ℕ} {key us rest : Utf16} {v : Value}
    (hread : value fuel us = some (v, rest)) :
    members (fuel + 1) (quote key ++ 58 :: us)
      = match skip rest with
        | 44 :: us => (members fuel us).map fun r => ((key, v) :: r.1, r.2)
        | 125 :: us => some ([(key, v)], us)
        | _ => none := by
  simp only [quote, List.append_assoc, List.cons_append, List.nil_append]
  rw [members, skip_cons (by decide)]
  simp only [textBody_quoteUnits, Option.bind_some]
  rw [skip_cons (by decide)]
  simp only [hread, Option.bind_some]

mutual

/-- What was written is read, followed by anything but more of a number. -/
theorem value_stringify :
    ∀ (o : Out) (fuel : ℕ) (rest : Utf16), EndsNumber rest → (stringify o).length < fuel →
      value fuel (stringify o ++ rest) = some (o.value, rest)
  | o, 0, rest, _, hlt => absurd hlt (Nat.not_lt_zero _)
  | .text s, fuel + 1, rest, _, _ => by
      rw [stringify, Out.value]
      exact value_quote fuel s rest
  | .whole n, fuel + 1, rest, h, _ => by
      rw [stringify, Out.value]
      exact value_whole h fuel n
  | .list [], fuel + 1, rest, _, _ => by
      rw [stringify, stringifyItems, value]
      simp [skip, isSpace, Out.value, itemValues]
  | .list (item :: items), fuel + 1, rest, _, hlt => by
      obtain ⟨u, us, htext, hskip, hne⟩ := stringifyItems_head item items (93 :: rest)
      have hread := items_stringify item items fuel rest (by
        rw [stringify, List.length_cons, List.length_append, List.length_singleton] at hlt
        omega)
      rw [stringify, List.cons_append, List.append_assoc, List.singleton_append, htext,
        value_array hskip hne, ← htext, hread, Out.value]
      rfl
  | .record [], fuel + 1, rest, _, _ => by
      rw [stringify, stringifyFields, value]
      simp [skip, isSpace, Out.value, fieldValues]
  | .record (field :: fields), fuel + 1, rest, _, hlt => by
      obtain ⟨us, htext⟩ := stringifyFields_head field fields (125 :: rest)
      have hread := members_stringify field fields fuel rest (by
        rw [stringify, List.length_cons, List.length_append, List.length_singleton] at hlt
        omega)
      rw [stringify, List.cons_append, List.append_assoc, List.singleton_append, htext,
        value_object (skip_cons (by decide) us) (by decide), ← htext, hread, Out.value]
      rfl

theorem items_stringify :
    ∀ (item : Out) (others : List Out) (fuel : ℕ) (rest : Utf16),
      (stringifyItems (item :: others)).length + 1 < fuel →
        items fuel (stringifyItems (item :: others) ++ 93 :: rest)
          = some (itemValues (item :: others), rest)
  | item, others, 0, rest, hlt => absurd hlt (Nat.not_lt_zero _)
  | item, [], fuel + 1, rest, hlt => by
      rw [stringifyItems] at hlt ⊢
      have hread := value_stringify item fuel (93 :: rest) (ends_cons rfl rest) (by omega)
      rw [items, hread]
      simp [skip, isSpace, itemValues]
  | item, next :: others, fuel + 1, rest, hlt => by
      rw [stringifyItems, List.length_append, List.length_cons] at hlt
      have hread := value_stringify item fuel
        (44 :: (stringifyItems (next :: others) ++ 93 :: rest)) (ends_cons rfl _) (by omega)
      have hrest := items_stringify next others fuel rest (by omega)
      rw [stringifyItems, List.append_assoc, List.cons_append, items, hread, Option.bind_some]
      simp only [skip_cons (u := 44) rfl, hrest]
      rfl

theorem members_stringify :
    ∀ (field : String × Out) (others : List (String × Out)) (fuel : ℕ) (rest : Utf16),
      (stringifyFields (field :: others)).length + 1 < fuel →
        members fuel (stringifyFields (field :: others) ++ 125 :: rest)
          = some (fieldValues (field :: others), rest)
  | field, others, 0, rest, hlt => absurd hlt (Nat.not_lt_zero _)
  | (key, item), [], fuel + 1, rest, hlt => by
      rw [stringifyFields, List.length_append, List.length_cons] at hlt
      have hread := value_stringify item fuel (125 :: rest) (ends_cons rfl rest) (by omega)
      rw [stringifyFields, List.append_assoc, List.cons_append, members_field hread,
        skip_cons (by decide)]
      rfl
  | (key, item), next :: others, fuel + 1, rest, hlt => by
      rw [stringifyFields, List.length_append, List.length_cons, List.length_append,
        List.length_cons] at hlt
      have hread := value_stringify item fuel
        (44 :: (stringifyFields (next :: others) ++ 125 :: rest)) (ends_cons rfl _) (by omega)
      have hrest := members_stringify next others fuel rest (by omega)
      rw [stringifyFields, List.append_assoc, List.cons_append, List.append_assoc,
        List.cons_append, members_field hread, skip_cons (by decide)]
      simp only [hrest]
      rfl

end

/-- `JSON.parse(JSON.stringify(value))` -/
theorem parse_stringify (o : Out) : parse (stringify o) = some o.value := by
  have hread := value_stringify o ((stringify o).length + 1) [] nofun (by omega)
  rw [List.append_nil] at hread
  rw [parse, hread]
  rfl

/-! ## Texts in a value are shorter than its text -/

theorem textBody_length {us : Utf16} {r : Utf16 × Utf16} (h : textBody us = some r) :
    r.1.length + r.2.length < us.length := by
  induction us using textBody.induct generalizing r with
  | case1 us =>
      rw [textBody] at h
      obtain rfl := Option.some.inj h
      simp
  | case2 a b c d us ih =>
      rw [textBody] at h
      obtain ⟨u, -, hmap⟩ := Option.bind_eq_some_iff.mp h
      obtain ⟨r', hr', rfl⟩ := Option.map_eq_some_iff.mp hmap
      have hlt := ih hr'
      simp only [List.length_cons]
      omega
  | case3 e us hnot ih =>
      rw [textBody] at h
      · obtain ⟨u, -, hmap⟩ := Option.bind_eq_some_iff.mp h
        obtain ⟨r', hr', rfl⟩ := Option.map_eq_some_iff.mp hmap
        have hlt := ih hr'
        simp only [List.length_cons]
        omega
      · exact hnot
  | case4 u us hquote hhex hescape hbad =>
      rw [textBody, if_pos hbad] at h
      · cases h
      · exact hquote
      · exact hhex
      · exact hescape
  | case5 u us hquote hhex hescape hgood ih =>
      rw [textBody, if_neg hgood] at h
      · obtain ⟨r', hr', rfl⟩ := Option.map_eq_some_iff.mp h
        have hlt := ih hr'
        simp only [List.length_cons]
        omega
      · exact hquote
      · exact hhex
      · exact hescape
  | case6 => cases h

theorem skip_length (us : Utf16) : (skip us).length ≤ us.length :=
  (List.dropWhile_suffix isSpace).length_le

theorem length_of_skip {us us' : Utf16} {u : UInt16} (h : skip us = u :: us') :
    us'.length < us.length := by
  have hle := skip_length us
  rw [h, List.length_cons] at hle
  omega

/-- A literal is no text and no object. -/
theorem literal_spec {us rest : Utf16} {v : Value} (h : literal us = some (v, rest)) :
    rest.length ≤ us.length ∧ (∀ s, v ≠ .string s) ∧ ∀ fields, v ≠ .object fields := by
  have hkeyword {word : String} {w : Value} (hw : keyword word w us = some (v, rest)) :
      rest.length ≤ us.length ∧ w = v := by
    rw [keyword] at hw
    split at hw
    · obtain ⟨rfl, rfl⟩ := Prod.mk.inj (Option.some.inj hw)
      exact ⟨by simp, rfl⟩
    · cases hw
  rw [literal, Option.or_eq_some_iff, Option.or_eq_some_iff, Option.or_eq_some_iff] at h
  rcases h with h | ⟨-, h | ⟨-, h | ⟨-, h⟩⟩⟩
  · obtain ⟨hle, rfl⟩ := hkeyword h
    exact ⟨hle, nofun, nofun⟩
  · obtain ⟨hle, rfl⟩ := hkeyword h
    exact ⟨hle, nofun, nofun⟩
  · obtain ⟨hle, rfl⟩ := hkeyword h
    exact ⟨hle, nofun, nofun⟩
  · obtain ⟨r, hr, heq⟩ := Option.map_eq_some_iff.mp h
    obtain ⟨rfl, rfl⟩ := Prod.mk.inj heq
    rw [number] at hr
    obtain ⟨r', -, rfl⟩ := Option.map_eq_some_iff.mp hr
    exact ⟨by simp, nofun, nofun⟩

/-- The texts among the values of some fields are shorter than `n`. -/
def TextsBelow (n : ℕ) (fields : List (Utf16 × Value)) : Prop :=
  ∀ field ∈ fields, ∀ s, field.2 = .string s → s.length < n

theorem TextsBelow.mono {m n : ℕ} (h : m ≤ n) {fields : List (Utf16 × Value)}
    (hfields : TextsBelow m fields) : TextsBelow n fields :=
  fun field hfield s hs => (hfields field hfield s hs).trans_le h

mutual

theorem value_length :
    ∀ (fuel : ℕ) {us rest : Utf16} {v : Value}, value fuel us = some (v, rest) →
      rest.length ≤ us.length ∧ (∀ s, v = .string s → s.length < us.length)
        ∧ ∀ fields, v = .object fields → TextsBelow us.length fields
  | 0, us, rest, v, h => by
      rw [value] at h
      cases h
  | fuel + 1, us, rest, v, h => by
      rw [value] at h
      split at h
      · rename_i us' hskip
        have hlt := length_of_skip hskip
        obtain ⟨r, hr, heq⟩ := Option.map_eq_some_iff.mp h
        obtain ⟨rfl, rfl⟩ := Prod.mk.inj heq
        have hbody := textBody_length hr
        refine ⟨by omega, fun s hs => ?_, nofun⟩
        obtain rfl := Value.string.inj hs
        omega
      · rename_i us' hskip
        have hlt := length_of_skip hskip
        split at h
        · rename_i us'' hskip'
          have hlt' := length_of_skip hskip'
          obtain ⟨rfl, rfl⟩ := Prod.mk.inj (Option.some.inj h)
          exact ⟨by omega, nofun, nofun⟩
        · obtain ⟨r, hr, heq⟩ := Option.map_eq_some_iff.mp h
          obtain ⟨rfl, rfl⟩ := Prod.mk.inj heq
          have hle := items_length fuel hr
          have hskip' := skip_length us'
          exact ⟨by omega, nofun, nofun⟩
      · rename_i us' hskip
        have hlt := length_of_skip hskip
        split at h
        · rename_i us'' hskip'
          have hlt' := length_of_skip hskip'
          obtain ⟨rfl, rfl⟩ := Prod.mk.inj (Option.some.inj h)
          refine ⟨by omega, nofun, fun fields hfields => ?_⟩
          obtain rfl := Value.object.inj hfields
          exact fun field hfield => nomatch hfield
        · obtain ⟨r, hr, heq⟩ := Option.map_eq_some_iff.mp h
          obtain ⟨rfl, rfl⟩ := Prod.mk.inj heq
          obtain ⟨hle, hbelow⟩ := members_length fuel hr
          have hskip' := skip_length us'
          refine ⟨by omega, nofun, fun fields hfields => ?_⟩
          obtain rfl := Value.object.inj hfields
          exact hbelow.mono (by omega)
      · obtain ⟨hle, hstring, hobject⟩ := literal_spec h
        have hskip := skip_length us
        exact ⟨by omega, fun s hs => absurd hs (hstring s),
          fun fields hfields => absurd hfields (hobject fields)⟩

theorem items_length :
    ∀ (fuel : ℕ) {us rest : Utf16} {vs : List Value}, items fuel us = some (vs, rest) →
      rest.length ≤ us.length
  | 0, us, rest, vs, h => by
      rw [items] at h
      cases h
  | fuel + 1, us, rest, vs, h => by
      rw [items] at h
      obtain ⟨⟨v, us'⟩, hv, hmatch⟩ := Option.bind_eq_some_iff.mp h
      obtain ⟨hle, -, -⟩ := value_length fuel hv
      simp only at hmatch
      split at hmatch
      · rename_i us'' hskip
        have hlt := length_of_skip hskip
        obtain ⟨r, hr, heq⟩ := Option.map_eq_some_iff.mp hmatch
        obtain ⟨rfl, rfl⟩ := Prod.mk.inj heq
        have hrest := items_length fuel hr
        omega
      · rename_i us'' hskip
        have hlt := length_of_skip hskip
        obtain ⟨rfl, rfl⟩ := Prod.mk.inj (Option.some.inj hmatch)
        omega
      · cases hmatch

theorem members_length :
    ∀ (fuel : ℕ) {us rest : Utf16} {fields : List (Utf16 × Value)},
      members fuel us = some (fields, rest) →
        rest.length ≤ us.length ∧ TextsBelow us.length fields
  | 0, us, rest, fields, h => by
      rw [members] at h
      cases h
  | fuel + 1, us, rest, fields, h => by
      rw [members] at h
      split at h
      · rename_i us₁ hskip₁
        have hlt₁ := length_of_skip hskip₁
        obtain ⟨⟨key, us₂⟩, hkey, hmatch⟩ := Option.bind_eq_some_iff.mp h
        have hlt₂ := textBody_length hkey
        simp only at hmatch hlt₂
        split at hmatch
        · rename_i us₃ hskip₃
          have hlt₃ := length_of_skip hskip₃
          obtain ⟨⟨v, us₄⟩, hv, hmatch'⟩ := Option.bind_eq_some_iff.mp hmatch
          obtain ⟨hle₄, hstring, -⟩ := value_length fuel hv
          simp only at hmatch'
          split at hmatch'
          · rename_i us₅ hskip₅
            have hlt₅ := length_of_skip hskip₅
            obtain ⟨r, hr, heq⟩ := Option.map_eq_some_iff.mp hmatch'
            obtain ⟨rfl, rfl⟩ := Prod.mk.inj heq
            obtain ⟨hle, hbelow⟩ := members_length fuel hr
            refine ⟨by omega, fun field hfield s hs => ?_⟩
            rcases List.mem_cons.mp hfield with rfl | hfield
            · have hlt := hstring s hs
              omega
            · have hlt := hbelow field hfield s hs
              omega
          · rename_i us₅ hskip₅
            have hlt₅ := length_of_skip hskip₅
            obtain ⟨rfl, rfl⟩ := Prod.mk.inj (Option.some.inj hmatch')
            refine ⟨by omega, fun field hfield s hs => ?_⟩
            obtain rfl := List.mem_singleton.mp hfield
            have hlt := hstring s hs
            omega
          · cases hmatch'
        · cases hmatch
      · cases h

end

/-- A text that is the value of a key is shorter than the text of its object. -/
theorem length_get {us s : Utf16} {v : Value} (h : parse us = some v) {key : String}
    (hs : v.get key = some (.string s)) : s.length < us.length := by
  rw [parse] at h
  split at h
  · rename_i json rest hvalue
    split at h
    · obtain rfl := Option.some.inj h
      obtain ⟨-, -, hobject⟩ := value_length _ hvalue
      cases json with
      | object fields =>
          obtain ⟨before, after, hfields, -⟩ := List.lookup_eq_some_iff.mp hs
          have hmem := hfields ▸ List.mem_append_right before (List.mem_cons_self ..)
          exact hobject fields rfl _ (List.mem_reverse.mp hmem) s rfl
      | _ => cases hs
    · cases h
  · cases h

end BlockMiner.Utf16Json
