import BlockMiner.Json
import Mathlib.Data.List.DropRight

/-!
# Texts, as the language treats them

What `String` makes of a JSON value, the numbers that `parseInt` and
`parseFloat` read at the start of a text, and its case. The text of a number
is a parameter. `String` of an object looks for its own `toString`, which in a
JSON value is no function, and throws if there is one.

Of the case mappings those are here that lead to ASCII; texts are only compared
with ASCII afterwards.
-/

namespace BlockMiner

namespace Json

variable {ν : Type}

/-! ## Properties and texts -/

/-- `value[key]`, where the last of several fields counts; `none` is `undefined`. -/
def get (key : String) : Json ν → Option (Json ν)
  | .object fields => (fields.reverse.lookup key)
  | _ => none

def isObject : Json ν → Bool
  | .object _ | .array _ => true
  | _ => false

def string? : Json ν → Option String
  | .string s => some s
  | _ => none

def bool? : Json ν → Option Bool
  | .bool b => some b
  | _ => none

mutual

/-- `String(value)`; `none` where it throws. -/
def text (number : ν → String) : Json ν → Option String
  | .null => some "null"
  | .bool b => some (if b then "true" else "false")
  | .number n => some (number n)
  | .string s => some s
  | .array items => join number items
  | .object fields =>
      if fields.any fun f => f.1 = "toString" then none else some "[object Object]"

/-- `items.join()`; an item `null` has the empty text. -/
def join (number : ν → String) : List (Json ν) → Option String
  | [] => some ""
  | [.null] => some ""
  | [item] => item.text number
  | .null :: item :: items => (join number (item :: items)).map ("," ++ ·)
  | first :: item :: items =>
      (first.text number).bind fun s => (join number (item :: items)).map (s ++ "," ++ ·)

end

end Json

/-- `String(value ?? "")` -/
def textOr {ν : Type} (number : ν → String) : Option (Json ν) → Option String
  | none | some .null => some ""
  | some value => value.text number

/-! ## Numbers at the start of a text -/

/-- The exponent, if there is a whole one. -/
def exponentPrefix : List Char → ℤ
  | e :: cs =>
      if e ≠ 'e' ∧ e ≠ 'E' then 0
      else
        let (sign, cs) : ℤ × List Char := match cs with
          | '-' :: cs => (-1, cs)
          | '+' :: cs => (1, cs)
          | cs => (1, cs)
        sign * (readDigits 10 0 0 cs).1
  | [] => 0

def unsignedDecimalPrefix (cs : List Char) : JsNumber :=
  if "Infinity".toList.isPrefixOf cs then .infinite false
  else
    let (whole, wholeCount, rest) := readDigits 10 0 0 cs
    let (fraction, count, rest) := match rest with
      | '.' :: rest => readDigits 10 0 0 rest
      | rest => (0, 0, rest)
    if wholeCount + count = 0 then .nan
    else .finite ((whole * 10 ^ count + fraction : ℕ) * (10 : ℚ) ^ (exponentPrefix rest - count))

def parseFloat (s : String) : JsNumber :=
  match s.toList.dropWhile isStrWhiteSpaceChar with
  | '-' :: cs => (unsignedDecimalPrefix cs).neg
  | '+' :: cs => unsignedDecimalPrefix cs
  | cs => unsignedDecimalPrefix cs

/-- `parseInt(s, 10)`; `none` is `NaN`. -/
def parseInt (s : String) : Option ℤ :=
  let (sign, cs) : ℤ × List Char := match s.toList.dropWhile isStrWhiteSpaceChar with
    | '-' :: cs => (-1, cs)
    | '+' :: cs => (1, cs)
    | cs => (1, cs)
  let (value, count, _) := readDigits 10 0 0 cs
  if count = 0 then none else some (sign * value)

/-! ## Trimming -/

theorem trim_trim (s : String) : trim (trim s) = trim s := by
  have htrim : ∀ cs, trimStr cs
      = (cs.dropWhile isStrWhiteSpaceChar).rdropWhile isStrWhiteSpaceChar := fun _ => rfl
  unfold trim
  rw [String.toList_ofList, htrim, htrim]
  have hidem := List.dropWhile_idempotent isStrWhiteSpaceChar s.toList
  generalize s.toList.dropWhile isStrWhiteSpaceChar = ds at hidem ⊢
  -- trimming the end of `ds` leaves its front, which is no white space
  have hfront : (ds.rdropWhile isStrWhiteSpaceChar).dropWhile isStrWhiteSpaceChar
      = ds.rdropWhile isStrWhiteSpaceChar := by
    refine List.dropWhile_eq_self_iff.mpr fun hpos => ?_
    have hstart := List.rdropWhile_prefix isStrWhiteSpaceChar (l := ds)
    rw [hstart.getElem hpos]
    exact List.dropWhile_eq_self_iff.mp hidem _
  rw [hfront, List.rdropWhile_idempotent]

/-! ## Case and length -/

/-- The characters whose upper case is ASCII. -/
def upperChar (c : Char) : List Char :=
  match c.toNat with
  | 0x131 => ['I']
  | 0x17F => ['S']
  | 0xDF => ['S', 'S']
  | 0xFB00 => ['F', 'F']
  | 0xFB01 => ['F', 'I']
  | 0xFB02 => ['F', 'L']
  | 0xFB03 => ['F', 'F', 'I']
  | 0xFB04 => ['F', 'F', 'L']
  | 0xFB05 | 0xFB06 => ['S', 'T']
  | _ => [c.toUpper]

def toUpperCase (s : String) : String := String.ofList (s.toList.flatMap upperChar)

/-- The Kelvin sign is the one other character whose lower case is ASCII. -/
def lowerChar (c : Char) : Char := if c.toNat = 0x212A then 'k' else c.toLower

def toLowerCase (s : String) : String := String.ofList (s.toList.map lowerChar)

/-- `s.length`, in units of 16 bits. -/
def utf16Length (s : String) : ℕ := (s.toList.map fun c => if c.toNat < 0x10000 then 1 else 2).sum

example : parseFloat " 4e-9 POL" = .finite (4 / 10 ^ 9) := by decide +kernel

end BlockMiner
