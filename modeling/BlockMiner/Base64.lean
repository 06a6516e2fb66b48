import Mathlib.Data.List.Basic

/-!
# Base64

`Buffer.toString("base64")` and `Buffer.from(text, "base64")`. The decoder
takes both alphabets and skips every other character, the padding among them.
-/

namespace BlockMiner.Base64

def alphabet : List Char :=
  "ABCDEFGHIJKLMNOPQRSTUVWXYZabcdefghijklmnopqrstuvwxyz0123456789+/".toList

/-- The digit of six bits. -/
def charOf (n : ℕ) : Char := alphabet.getD n 'A'

def digitOf (c : Char) : Option ℕ :=
  let n := c.toNat
  if 65 ≤ n ∧ n ≤ 90 then some (n - 65)
  else if 97 ≤ n ∧ n ≤ 122 then some (n - 71)
  else if 48 ≤ n ∧ n ≤ 57 then some (n + 4)
  else if c = '+' ∨ c = '-' then some 62
  else if c = '/' ∨ c = '_' then some 63
  else none

def encode : List UInt8 → List Char
  | [] => []
  | [a] => [charOf (a.toNat / 4), charOf (a.toNat % 4 * 16), '=', '=']
  | [a, b] =>
      [charOf (a.toNat / 4), charOf (a.toNat % 4 * 16 + b.toNat / 16), charOf (b.toNat % 16 * 4),
        '=']
  | a :: b :: c :: bytes =>
      charOf (a.toNat / 4) :: charOf (a.toNat % 4 * 16 + b.toNat / 16)
        :: charOf (b.toNat % 16 * 4 + c.toNat / 64) :: charOf (c.toNat % 64) :: encode bytes

/-- The bytes of the digits; a single last digit is none. -/
def bytesOf : List ℕ → List UInt8
  | p :: q :: r :: s :: digits =>
      .ofNat (p * 4 + q / 16) :: .ofNat (q % 16 * 16 + r / 4) :: .ofNat (r % 4 * 64 + s)
        :: bytesOf digits
  | [p, q, r] => [.ofNat (p * 4 + q / 16), .ofNat (q % 16 * 16 + r / 4)]
  | [p, q] => [.ofNat (p * 4 + q / 16)]
  | [_] | [] => []

def decode (cs : List Char) : List UInt8 := bytesOf (cs.filterMap digitOf)

theorem digitOf_charOf : ∀ n < 64, digitOf (charOf n) = some n := by
  decide +kernel

theorem digitOf_pad : digitOf '=' = none := by
  decide

theorem ofNat_eq {a : UInt8} {n : ℕ} (h : n = a.toNat) : UInt8.ofNat n = a := by
  rw [h, UInt8.ofNat_toNat]

/-- Decoding reads back what was encoded. -/
theorem decode_encode (bytes : List UInt8) : decode (encode bytes) = bytes := by
  unfold decode
  induction bytes using encode.induct with
  | case1 => rfl
  | case2 a =>
    have ha := a.toNat_lt
    have h1 := digitOf_charOf (a.toNat / 4) (by omega)
    have h2 := digitOf_charOf (a.toNat % 4 * 16) (by omega)
    simp only [encode, List.filterMap_cons, List.filterMap_nil, h1, h2, digitOf_pad, bytesOf]
    rw [ofNat_eq (a := a) (by omega)]
  | case3 a b =>
    have ha := a.toNat_lt
    have hb := b.toNat_lt
    have h1 := digitOf_charOf (a.toNat / 4) (by omega)
    have h2 := digitOf_charOf (a.toNat % 4 * 16 + b.toNat / 16) (by omega)
    have h3 := digitOf_charOf (b.toNat % 16 * 4) (by omega)
    simp only [encode, List.filterMap_cons, List.filterMap_nil, h1, h2, h3, digitOf_pad, bytesOf]
    rw [ofNat_eq (a := a) (by omega), ofNat_eq (a := b) (by omega)]
  | case4 a b c bytes ih =>
    have ha := a.toNat_lt
    have hb := b.toNat_lt
    have hc := c.toNat_lt
    have h1 := digitOf_charOf (a.toNat / 4) (by omega)
    have h2 := digitOf_charOf (a.toNat % 4 * 16 + b.toNat / 16) (by omega)
    have h3 := digitOf_charOf (b.toNat % 16 * 4 + c.toNat / 64) (by omega)
    have h4 := digitOf_charOf (c.toNat % 64) (by omega)
    simp only [encode, List.filterMap_cons, h1, h2, h3, h4, bytesOf, ih]
    rw [ofNat_eq (a := a) (by omega), ofNat_eq (a := b) (by omega), ofNat_eq (a := c) (by omega)]

/-! ## Texts -/

/-- `Buffer.from(text, "utf8").toString("base64")` -/
def encodeText (text : String) : String := String.ofList (encode text.toByteArray.data.toList)

/-- `Buffer.from(text, "base64").toString("utf8")`, with a reading of bytes that are no UTF-8. -/
def decodeText (lossy : ByteArray → String) (text : String) : String :=
  let bytes : ByteArray := ⟨(decode text.toList).toArray⟩
  if h : bytes.IsValidUTF8 then ⟨bytes, h⟩ else lossy bytes

theorem decodeText_encodeText (lossy : ByteArray → String) (text : String) :
    decodeText lossy (encodeText text) = text := by
  have hbytes : (⟨(decode (encodeText text).toList).toArray⟩ : ByteArray) = text.toByteArray := by
    simp [encodeText, decode_encode]
  simp only [decodeText, hbytes]
  exact dif_pos text.isValidUTF8

example : decodeText (fun _ => "") "aGk=" = "hi" := by decide

end BlockMiner.Base64
