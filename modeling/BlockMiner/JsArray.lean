import Mathlib.Data.String.Basic
import Mathlib.Logic.Function.Basic

/-!
# Arrays, as the language treats them

An array has its items by index, up to its length, and whatever was set under
other keys. `none` is `undefined`, or the value `null` where the code does not
tell them apart.

A table of arrays, such as a board by its rows, is read and written at a place:
a row and a key in it. `undo_exchange` is what a swap of two places and its
reversal leave of the table.
-/

namespace BlockMiner

/-- A key that is an array index. -/
def arrayIndex (key : String) : Option ℕ :=
  let n := Nat.ofDigitChars 10 key.toList 0
  if Nat.toDigits 10 n = key.toList ∧ n < 4294967295 then some n else none

theorem arrayIndex_inj {key key' : String} {x : ℕ} (h : arrayIndex key = some x)
    (h' : arrayIndex key' = some x) : key = key' := by
  have hdigits : ∀ {key : String}, arrayIndex key = some x → Nat.toDigits 10 x = key.toList := by
    intro key h
    unfold arrayIndex at h
    dsimp only at h
    split at h
    · next hdigits =>
      obtain rfl := Option.some.inj h
      exact hdigits.1
    · cases h
  exact String.toList_inj.1 ((hdigits h).symm.trans (hdigits h'))

structure JsArray (α : Type) where
  items : ℕ → Option α
  length : ℕ
  props : String → Option α

namespace JsArray

variable {α : Type} (a : JsArray α)

def get (key : String) : Option α :=
  match arrayIndex key with
  | some x => if x < a.length then a.items x else none
  | none => a.props key

/-- An index from the length on makes the array longer. -/
def set (key : String) (value : Option α) : JsArray α :=
  match arrayIndex key with
  | some x => { a with
      items := fun i => if i = x then value else if a.length ≤ i ∧ i < x then none else a.items i
      length := max a.length (x + 1) }
  | none => { a with props := Function.update a.props key value }

/-- Setting the key does not make the array longer. -/
def Inner (key : String) : Prop := ∀ x, arrayIndex key = some x → x < a.length

variable {a} {key key' : String} {value value' : Option α}

theorem get_set_self : (a.set key value).get key = value := by
  unfold get set
  cases arrayIndex key with
  | none => exact Function.update_self ..
  | some x =>
      dsimp only
      rw [if_pos (by omega), if_pos rfl]

theorem get_set_of_ne (h : key' ≠ key) : (a.set key value).get key' = a.get key' := by
  unfold get set
  cases hkey : arrayIndex key with
  | none => cases arrayIndex key' with
    | none => exact Function.update_of_ne h ..
    | some x' => rfl
  | some x => cases hkey' : arrayIndex key' with
    | none => rfl
    | some x' =>
        have hne : x' ≠ x := fun heq => h (arrayIndex_inj hkey' (heq ▸ hkey))
        dsimp only
        rw [if_neg hne]
        by_cases hlt : x' < a.length
        · rw [if_pos (by omega), if_neg (by omega), if_pos hlt]
        · rw [if_neg hlt]
          by_cases hbetween : x' < x
          · rw [if_pos (by omega), if_pos ⟨by omega, hbetween⟩]
          · rw [if_neg (by omega)]

theorem set_set : (a.set key value).set key value' = a.set key value' := by
  unfold set
  cases arrayIndex key with
  | none => simp only [Function.update_idem]
  | some x =>
      dsimp only
      congr 1
      · funext i
        by_cases hi : i = x
        · rw [if_pos hi, if_pos hi]
        · rw [if_neg hi, if_neg hi, if_neg (by omega), if_neg hi]
      · omega

theorem set_get (h : a.Inner key) : a.set key (a.get key) = a := by
  unfold set get
  cases hkey : arrayIndex key with
  | none => simp only [Function.update_eq_self]
  | some x =>
      have hx : x < a.length := h x hkey
      dsimp only
      rw [if_pos hx, max_eq_left hx]
      congr 1
      funext i
      by_cases hi : i = x
      · rw [if_pos hi, hi]
      · rw [if_neg hi, if_neg (by omega)]

theorem length_le_set : a.length ≤ (a.set key value).length := by
  unfold set
  cases arrayIndex key with
  | none => exact Nat.le_refl _
  | some x => exact Nat.le_max_left ..

theorem lt_length_set {x : ℕ} (h : arrayIndex key = some x) : x < (a.set key value).length := by
  unfold set
  rw [h]
  exact Nat.le_max_right ..

theorem Inner.set (h : a.Inner key) : (a.set key' value).Inner key :=
  fun x hx => (h x hx).trans_le length_le_set

theorem length_set (h : a.Inner key) : (a.set key value).length = a.length := by
  unfold JsArray.set
  cases hkey : arrayIndex key with
  | none => rfl
  | some x => exact max_eq_left (h x hkey)

end JsArray

/-! ## Tables of arrays -/

/-- A row, and a key in it. -/
abbrev Place := ℕ × String

abbrev Rows (α : Type) := ℕ → JsArray α

namespace Rows

variable {α : Type} (rows : Rows α)

def read (place : Place) : Option α := (rows place.1).get place.2

def write (place : Place) (value : Option α) : Rows α :=
  Function.update rows place.1 ((rows place.1).set place.2 value)

def Inner (place : Place) : Prop := (rows place.1).Inner place.2

/-- The values of two places change places. -/
def exchange (from_ to_ : Place) : Rows α :=
  (write rows from_ (read rows to_)).write to_ (read rows from_)

/-- The reversal, with the value that was at `from_`. -/
def undo (from_ to_ : Place) (temp : Option α) : Rows α :=
  (write rows to_ (read rows from_)).write from_ temp

variable {rows} {place place' : Place} {value value' : Option α}

theorem read_write_self : (rows.write place value).read place = value := by
  unfold read write
  rw [Function.update_self, JsArray.get_set_self]

theorem read_write_of_ne (h : place' ≠ place) :
    (rows.write place value).read place' = rows.read place' := by
  unfold read write
  by_cases hrow : place'.1 = place.1
  · rw [hrow, Function.update_self, JsArray.get_set_of_ne fun hkey => h (Prod.ext hrow hkey)]
  · rw [Function.update_of_ne hrow]

theorem write_write : (rows.write place value).write place value' = rows.write place value' := by
  unfold write
  rw [Function.update_self, JsArray.set_set, Function.update_idem]

theorem write_read (h : rows.Inner place) : rows.write place (rows.read place) = rows := by
  unfold write read
  rw [JsArray.set_get h, Function.update_eq_self]

theorem Inner.write (h : rows.Inner place) : (rows.write place' value).Inner place := by
  unfold Rows.write Rows.Inner
  by_cases hrow : place.1 = place'.1
  · rw [hrow, Function.update_self]
    exact JsArray.Inner.set (hrow ▸ h)
  · rw [Function.update_of_ne hrow]
    exact h

theorem undo_exchange {from_ to_ : Place} (hfrom : rows.Inner from_) (hto : rows.Inner to_) :
    (rows.exchange from_ to_).undo from_ to_ (rows.read from_) = rows := by
  unfold undo exchange
  by_cases hne : from_ = to_
  · subst hne
    rw [write_write, write_write, write_write, write_read hfrom]
  · have hwritten : (rows.write from_ (rows.read to_)).write to_ (rows.read to_)
        = rows.write from_ (rows.read to_) := by
      have hinner : (rows.write from_ (rows.read to_)).Inner to_ := hto.write
      have h := write_read hinner
      rwa [read_write_of_ne (Ne.symm hne)] at h
    rw [read_write_of_ne hne, read_write_self, write_write, hwritten, write_write,
      write_read hfrom]

/-- Writing makes no row shorter. -/
theorem length_le_write (y : ℕ) : (rows y).length ≤ (rows.write place value y).length := by
  unfold write
  by_cases hrow : y = place.1
  · rw [hrow, Function.update_self]
    exact JsArray.length_le_set
  · rw [Function.update_of_ne hrow]

theorem lt_length_write {x : ℕ} (h : arrayIndex place.2 = some x) :
    x < (rows.write place value place.1).length := by
  unfold write
  rw [Function.update_self]
  exact JsArray.lt_length_set h

end Rows

end BlockMiner
