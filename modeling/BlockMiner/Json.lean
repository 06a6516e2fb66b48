import Mathlib.Algebra.Order.Field.Rat

/-!
# JSON values and their numbers

What `JSON.parse` makes of a request body, and what `Number` makes of it.
The numbers of a value are a parameter, since some of the code computes with
them and some only prints them. Where it computes, a number is exact
(`JsNumber`): the rounding to 53 bits is left out, and with it the distinction
between 0 and -0.

`Number` of an array goes through its text: that of one item is the item's,
and with two it contains a comma, which no numeric literal does.
-/

namespace BlockMiner

inductive Json (ν : Type) where
  | null
  | bool (b : Bool)
  | number (n : ν)
  | string (s : String)
  | array (items : List (Json ν))
  | object (fields : List (String × Json ν))

inductive JsNumber where
  | finite (q : ℚ)
  | infinite (negative : Bool)
  | nan
deriving DecidableEq

namespace JsNumber

def neg : JsNumber → JsNumber
  | finite q => finite (-q)
  | infinite negative => infinite !negative
  | nan => nan

/-- `x * rate` for a positive rate. -/
def mulPos (x : JsNumber) (rate : ℚ) : JsNumber :=
  match x with
  | finite q => finite (q * rate)
  | x => x

/-- `x / rate` for a positive rate. -/
def divPos (x : JsNumber) (rate : ℚ) : JsNumber :=
  match x with
  | finite q => finite (q / rate)
  | x => x

/-- `q < x` -/
def above (q : ℚ) : JsNumber → Bool
  | finite x => q < x
  | infinite negative => !negative
  | nan => false

end JsNumber

/-! ## Numeric literals -/

/-- `WhiteSpace` and `LineTerminator`. -/
def isStrWhiteSpaceChar (c : Char) : Bool :=
  let n := c.toNat
  (9 ≤ n && n ≤ 13) || n = 0x20 || n = 0xA0 || n = 0x1680 || (0x2000 ≤ n && n ≤ 0x200A)
    || n = 0x2028 || n = 0x2029 || n = 0x202F || n = 0x205F || n = 0x3000 || n = 0xFEFF

def trimStr (cs : List Char) : List Char :=
  ((cs.dropWhile isStrWhiteSpaceChar).reverse.dropWhile isStrWhiteSpaceChar).reverse

def trim (s : String) : String := String.ofList (trimStr s.toList)

/-- The value of a digit in a base up to 16. -/
def digitValue (base : ℕ) (c : Char) : Option ℕ :=
  let n := c.toNat
  let value :=
    if 48 ≤ n ∧ n ≤ 57 then some (n - 48)
    else if 97 ≤ n ∧ n ≤ 102 then some (n - 87)
    else if 65 ≤ n ∧ n ≤ 70 then some (n - 55)
    else none
  value.filter (· < base)

/-- The digits a text starts with: their value, their number, and the rest. -/
def readDigits (base : ℕ) (value count : ℕ) : List Char → ℕ × ℕ × List Char
  | [] => (value, count, [])
  | c :: cs =>
      match digitValue base c with
      | none => (value, count, c :: cs)
      | some d => readDigits base (value * base + d) (count + 1) cs

/-- A literal that is nothing but digits. -/
def nonDecimalLiteral (base : ℕ) (cs : List Char) : JsNumber :=
  match readDigits base 0 0 cs with
  | (value, count, []) => if count = 0 then .nan else .finite value
  | _ => .nan

def exponentPart : List Char → Option ℤ
  | [] => some 0
  | e :: cs =>
      if e ≠ 'e' ∧ e ≠ 'E' then none
      else
        let (sign, cs) : ℤ × List Char := match cs with
          | '-' :: cs => (-1, cs)
          | '+' :: cs => (1, cs)
          | cs => (1, cs)
        match readDigits 10 0 0 cs with
        | (value, count, []) => if count = 0 then none else some (sign * value)
        | _ => none

def unsignedDecimalLiteral (cs : List Char) : JsNumber :=
  if cs = "Infinity".toList then .infinite false
  else
    let (whole, wholeCount, rest) := readDigits 10 0 0 cs
    let (fraction, count, rest) := match rest with
      | '.' :: rest => readDigits 10 0 0 rest
      | rest => (0, 0, rest)
    if wholeCount + count = 0 then .nan
    else
      match exponentPart rest with
      | none => .nan
      | some exponent =>
          .finite ((whole * 10 ^ count + fraction : ℕ) * (10 : ℚ) ^ (exponent - count))

/-- `StringToNumber` -/
def stringToNumber (s : String) : JsNumber :=
  match trimStr s.toList with
  | [] => .finite 0
  | '0' :: 'x' :: cs | '0' :: 'X' :: cs => nonDecimalLiteral 16 cs
  | '0' :: 'o' :: cs | '0' :: 'O' :: cs => nonDecimalLiteral 8 cs
  | '0' :: 'b' :: cs | '0' :: 'B' :: cs => nonDecimalLiteral 2 cs
  | '-' :: cs => (unsignedDecimalLiteral cs).neg
  | '+' :: cs => unsignedDecimalLiteral cs
  | cs => unsignedDecimalLiteral cs

/-! ## Number -/

mutual

def Json.toNumber : Json JsNumber → JsNumber
  | .null => .finite 0
  | .bool b => .finite (if b then 1 else 0)
  | .number n => n
  | .string s => stringToNumber s
  | .array items => textToNumber items
  | .object _ => .nan

/-- `Number` of the text of an array: an item `null` has the empty text. -/
def textToNumber : List (Json JsNumber) → JsNumber
  | [] => .finite 0
  | [.bool _] => .nan
  | [item] => item.toNumber
  | _ :: _ :: _ => .nan

end

/-- `Number(value)`; `none` is `undefined`. -/
def Number : Option (Json JsNumber) → JsNumber
  | none => .nan
  | some value => value.toNumber

example : Number (some (.string " -1.5e1 ")) = .finite (-15) := by decide +kernel

end BlockMiner
