import BlockMiner.Json
import Mathlib.Data.List.Sort
import Mathlib.Tactic.IntervalCases

/-!
# Canonical JSON text

`stableStringify` of `audit/utils.js`: JSON text with the keys of every object
sorted. The text determines the value up to the order of fields
(`stableStringify_inj`), which is what makes a hash of it a commitment to the
value. The proof reads the texts from the left: `text_unique` says that a text
followed by something that cannot continue a number splits in one way only,
and goes by the size of the value, with one lemma for the items of an array
and the sorted fields of an object (`join_unique`).

Texts are lists of characters. A number stands as the text it prints as, so
two numbers that print alike are the same.
-/

namespace BlockMiner

abbrev Text := List Char

def isNumberChar (c : Char) : Bool := c.isDigit || c = '-' || c = '+' || c = '.' || c = 'e'

structure NumberText where
  text : Text
  nonempty : text ≠ []
  chars : ∀ c ∈ text, isNumberChar c = true

/-- A JSON value as it is printed. -/
abbrev JsonText := Json NumberText

/-! ## Strings -/

def hexDigit (n : ℕ) : Char := Char.ofNat (if n < 10 then 48 + n else 87 + n)

def escapeChar (c : Char) : Text :=
  if c = '"' then ['\\', '"']
  else if c = '\\' then ['\\', '\\']
  else if c.toNat = 8 then ['\\', 'b']
  else if c.toNat = 9 then ['\\', 't']
  else if c.toNat = 10 then ['\\', 'n']
  else if c.toNat = 12 then ['\\', 'f']
  else if c.toNat = 13 then ['\\', 'r']
  else if c.toNat < 32 then
    ['\\', 'u', '0', '0', hexDigit (c.toNat / 16), hexDigit (c.toNat % 16)]
  else [c]

/-- `JSON.stringify` of a string. -/
def quote (s : String) : Text := '"' :: (s.toList.flatMap escapeChar ++ ['"'])

/-! ## Sorted keys -/

/-- The UTF-16 code units by which `sort` compares. -/
def codeUnits (s : String) : List ℕ :=
  s.toList.flatMap fun c =>
    if c.toNat < 0x10000 then [c.toNat]
    else [0xD800 + (c.toNat - 0x10000) / 0x400, 0xDC00 + (c.toNat - 0x10000) % 0x400]

def unitsLe : List ℕ → List ℕ → Bool
  | [], _ => true
  | _ :: _, [] => false
  | a :: as, b :: bs => a < b || (a = b && unitsLe as bs)

def sortKeys {α : Type} (fields : List (String × α)) : List (String × α) :=
  fields.insertionSort fun f g => unitsLe (codeUnits f.1) (codeUnits g.1) = true

theorem sortKeys_map {α β : Type} (f : α → β) (fields : List (String × α)) :
    sortKeys (fields.map (Prod.map id f)) = (sortKeys fields).map (Prod.map id f) :=
  (List.map_insertionSort _ _ (Prod.map id f) fields fun _ _ _ _ => Iff.rfl).symm

theorem mem_sortKeys {α : Type} {fields : List (String × α)} {f : String × α} :
    f ∈ sortKeys fields ↔ f ∈ fields :=
  List.mem_insertionSort _

/-- Sorting by the same keys keeps different values apart. -/
theorem sortKeys_congr {α β : Type} {f g : α → β} {fields : List (String × α)} :
    sortKeys (fields.map (Prod.map id f)) = sortKeys (fields.map (Prod.map id g)) ↔
      ∀ field ∈ fields, f field.2 = g field.2 := by
  rw [sortKeys_map, sortKeys_map, List.map_inj_left]
  constructor
  · intro h field hfield
    exact (Prod.mk.inj (h field (mem_sortKeys.mpr hfield))).2
  · intro h field hfield
    rw [Prod.map_apply, Prod.map_apply, h field (mem_sortKeys.mp hfield)]

theorem unitsLe_total (as bs : List ℕ) : unitsLe as bs = true ∨ unitsLe bs as = true := by
  induction as generalizing bs with
  | nil => exact .inl (by simp [unitsLe])
  | cons a as ih =>
      cases bs with
      | nil => exact .inr (by simp [unitsLe])
      | cons b bs =>
          simp only [unitsLe, Bool.or_eq_true, Bool.and_eq_true, decide_eq_true_eq]
          rcases lt_trichotomy a b with h | rfl | h
          · exact .inl (.inl h)
          · exact (ih bs).imp (fun h => .inr ⟨rfl, h⟩) fun h => .inr ⟨rfl, h⟩
          · exact .inr (.inl h)

theorem unitsLe_trans {as bs cs : List ℕ} (hab : unitsLe as bs = true)
    (hbc : unitsLe bs cs = true) : unitsLe as cs = true := by
  induction as generalizing bs cs with
  | nil => simp [unitsLe]
  | cons a as ih =>
      cases bs with
      | nil => simp [unitsLe] at hab
      | cons b bs =>
          cases cs with
          | nil => simp [unitsLe] at hbc
          | cons c cs =>
              simp only [unitsLe, Bool.or_eq_true, Bool.and_eq_true, decide_eq_true_eq] at *
              rcases hab with hab | ⟨rfl, hab⟩
              · omega
              · rcases hbc with hbc | ⟨rfl, hbc⟩
                · exact .inl hbc
                · exact .inr ⟨rfl, ih hab hbc⟩

theorem sortKeys_sortKeys {α : Type} (fields : List (String × α)) :
    sortKeys (sortKeys fields) = sortKeys fields := by
  have : Std.Total fun f g : String × α => unitsLe (codeUnits f.1) (codeUnits g.1) = true :=
    ⟨fun f g => unitsLe_total _ _⟩
  have : IsTrans (String × α) fun f g => unitsLe (codeUnits f.1) (codeUnits g.1) = true :=
    ⟨fun f g h => unitsLe_trans⟩
  exact (List.pairwise_insertionSort _ fields).insertionSort_eq

/-! ## The text of a value -/

/-- `join(",")` -/
def join : List Text → Text
  | [] => []
  | [t] => t
  | t :: u :: ts => t ++ ',' :: join (u :: ts)

def fieldText (f : String × Text) : Text := quote f.1 ++ ':' :: f.2

mutual

def stableStringify : JsonText → Text
  | .null => "null".toList
  | .bool true => "true".toList
  | .bool false => "false".toList
  | .number n => n.text
  | .string s => quote s
  | .array items => '[' :: (join (stringifyItems items) ++ [']'])
  | .object fields => '{' :: (join ((sortKeys (stringifyFields fields)).map fieldText) ++ ['}'])

def stringifyItems : List JsonText → List Text
  | [] => []
  | v :: items => stableStringify v :: stringifyItems items

def stringifyFields : List (String × JsonText) → List (String × Text)
  | [] => []
  | (key, v) :: fields => (key, stableStringify v) :: stringifyFields fields

end

mutual

/-- The value with its fields in the order of the text. -/
def canonical : JsonText → JsonText
  | .array items => .array (canonicalItems items)
  | .object fields => .object (sortKeys (canonicalFields fields))
  | v => v

def canonicalItems : List JsonText → List JsonText
  | [] => []
  | v :: items => canonical v :: canonicalItems items

def canonicalFields : List (String × JsonText) → List (String × JsonText)
  | [] => []
  | (key, v) :: fields => (key, canonical v) :: canonicalFields fields

end

theorem stringifyItems_eq (items : List JsonText) :
    stringifyItems items = items.map stableStringify := by
  induction items with
  | nil => rfl
  | cons v items ih => rw [stringifyItems, ih, List.map_cons]

theorem stringifyFields_eq (fields : List (String × JsonText)) :
    stringifyFields fields = fields.map (Prod.map id stableStringify) := by
  induction fields with
  | nil => rfl
  | cons f fields ih => rw [stringifyFields, ih, List.map_cons]; rfl

theorem canonicalItems_eq (items : List JsonText) :
    canonicalItems items = items.map canonical := by
  induction items with
  | nil => rfl
  | cons v items ih => rw [canonicalItems, ih, List.map_cons]

theorem canonicalFields_eq (fields : List (String × JsonText)) :
    canonicalFields fields = fields.map (Prod.map id canonical) := by
  induction fields with
  | nil => rfl
  | cons f fields ih => rw [canonicalFields, ih, List.map_cons]; rfl

/-! ## Strings split in one way -/

/-- Reads the rest of an escape. -/
def readEscape : Text → Option (Char × Text)
  | '"' :: r => some ('"', r)
  | '\\' :: r => some ('\\', r)
  | 'b' :: r => some (Char.ofNat 8, r)
  | 't' :: r => some (Char.ofNat 9, r)
  | 'n' :: r => some (Char.ofNat 10, r)
  | 'f' :: r => some (Char.ofNat 12, r)
  | 'r' :: r => some (Char.ofNat 13, r)
  | 'u' :: '0' :: '0' :: a :: b :: r =>
      let value (c : Char) : ℕ := if c.isDigit then c.toNat - 48 else c.toNat - 87
      some (Char.ofNat (16 * value a + value b), r)
  | _ => none

/-- Reads one escaped character. -/
def unescape : Text → Option (Char × Text)
  | [] => none
  | c :: r => if c = '\\' then readEscape r else some (c, r)

theorem ofNat_toNat {c : Char} {n : ℕ} (h : c.toNat = n) : c = Char.ofNat n := by
  rw [← h, Char.ofNat_toNat]

theorem unescape_escapeChar (c : Char) (r : Text) :
    unescape (escapeChar c ++ r) = some (c, r) := by
  unfold escapeChar
  split
  case isTrue h => rw [h]; rfl
  case isFalse hquote =>
    split
    case isTrue h => rw [h]; rfl
    case isFalse hback =>
      split_ifs with h8 h9 h10 h12 h13 h32
      · rw [ofNat_toNat h8]; rfl
      · rw [ofNat_toNat h9]; rfl
      · rw [ofNat_toNat h10]; rfl
      · rw [ofNat_toNat h12]; rfl
      · rw [ofNat_toNat h13]; rfl
      · -- the other control characters
        generalize hn : c.toNat = n at h32
        obtain rfl := ofNat_toNat hn
        interval_cases n <;> rfl
      · simp [unescape, hback]

theorem escapeChar_unique {c c' : Char} {r r' : Text}
    (h : escapeChar c ++ r = escapeChar c' ++ r') : c = c' ∧ r = r' := by
  have heq := congrArg unescape h
  rw [unescape_escapeChar, unescape_escapeChar] at heq
  simpa using heq

/-- No escaped character starts with the quote that ends the string. -/
theorem escapeChar_ne_quote (c : Char) (r r' : Text) : escapeChar c ++ r ≠ '"' :: r' := by
  intro h
  have heq := congrArg unescape h
  rw [unescape_escapeChar, unescape, if_neg (by decide)] at heq
  obtain ⟨rfl, -⟩ : c = '"' ∧ r = r' := by simpa using heq
  cases h

theorem escaped_unique {l l' r r' : Text}
    (h : l.flatMap escapeChar ++ '"' :: r = l'.flatMap escapeChar ++ '"' :: r') :
    l = l' ∧ r = r' := by
  induction l generalizing l' with
  | nil =>
      cases l' with
      | nil => exact ⟨rfl, (List.cons.inj h).2⟩
      | cons c' l' =>
          rw [List.flatMap_cons, List.append_assoc] at h
          exact absurd h.symm (escapeChar_ne_quote c' _ _)
  | cons c l ih =>
      cases l' with
      | nil =>
          rw [List.flatMap_cons, List.append_assoc] at h
          exact absurd h (escapeChar_ne_quote c _ _)
      | cons c' l' =>
          rw [List.flatMap_cons, List.flatMap_cons, List.append_assoc, List.append_assoc] at h
          obtain ⟨rfl, hrest⟩ := escapeChar_unique h
          obtain ⟨rfl, hr⟩ := ih hrest
          exact ⟨rfl, hr⟩

theorem quote_unique {s s' : String} {r r' : Text} (h : quote s ++ r = quote s' ++ r') :
    s = s' ∧ r = r' := by
  simp only [quote, List.cons_append, List.append_assoc, List.cons.injEq, true_and,
    List.nil_append] at h
  obtain ⟨hs, hr⟩ := escaped_unique h
  exact ⟨String.toList_injective hs, hr⟩

/-! ## Numbers split in one way -/

/-- What may follow a text: nothing that continues a number. -/
def Follows (r : Text) : Prop := ∀ c ∈ r.head?, isNumberChar c = false

theorem follows_nil : Follows [] :=
  fun _ hc => nomatch hc

theorem follows_cons {c : Char} (hc : isNumberChar c = false) (r : Text) : Follows (c :: r) :=
  fun _ hd => Option.some.inj hd ▸ hc

theorem digits_unique {l l' r r' : Text} (hl : ∀ c ∈ l, isNumberChar c = true)
    (hl' : ∀ c ∈ l', isNumberChar c = true) (hr : Follows r) (hr' : Follows r')
    (h : l ++ r = l' ++ r') : l = l' ∧ r = r' := by
  induction l generalizing l' with
  | nil =>
      cases l' with
      | nil => exact ⟨rfl, h⟩
      | cons c' l' =>
          have hfalse := hr c' (by rw [← List.nil_append r, h]; rfl)
          rw [hl' c' (List.mem_cons_self ..)] at hfalse
          cases hfalse
  | cons c l ih =>
      cases l' with
      | nil =>
          have hfalse := hr' c (by rw [← List.nil_append r', ← h]; rfl)
          rw [hl c (List.mem_cons_self ..)] at hfalse
          cases hfalse
      | cons c' l' =>
          rw [List.cons_append, List.cons_append] at h
          obtain ⟨rfl, htail⟩ := List.cons.inj h
          obtain ⟨rfl, hrest⟩ := ih (fun d hd => hl d (List.mem_cons_of_mem _ hd))
            (fun d hd => hl' d (List.mem_cons_of_mem _ hd)) htail
          exact ⟨rfl, hrest⟩

/-! ## Values split in one way -/

section Join

variable {α β : Type} {f : α → Text} {g : α → β} {close : Char}

/-- The texts of a list split in one way if those of its members do. -/
theorem join_unique (hclose : isNumberChar close = false) (hne : close ≠ ',')
    (hstart : ∀ a r r', f a ++ r ≠ close :: r') {l l' : List α} {r r' : Text}
    (ih : ∀ a ∈ l, ∀ a' r r', Follows r → Follows r' → f a ++ r = f a' ++ r' → g a = g a' ∧ r = r')
    (h : join (l.map f) ++ close :: r = join (l'.map f) ++ close :: r') :
    l.map g = l'.map g ∧ r = r' := by
  have hfollow := follows_cons hclose
  have hcomma := follows_cons (c := ',') rfl
  induction l generalizing l' with
  | nil =>
      rcases l' with - | ⟨a', - | ⟨b', l'⟩⟩
      · exact ⟨rfl, (List.cons.inj h).2⟩
      · exact absurd h.symm (hstart a' _ _)
      · simp only [List.map_cons, join, List.append_assoc] at h
        exact absurd h.symm (hstart a' _ _)
  | cons a l ihl =>
      have ha := ih a (List.mem_cons_self ..)
      rcases l with - | ⟨b, l⟩
      · rcases l' with - | ⟨a', - | ⟨b', l'⟩⟩
        · exact absurd h (hstart a _ _)
        · obtain ⟨hg, hrest⟩ := ha a' _ _ (hfollow r) (hfollow r') h
          exact ⟨by simp [hg], (List.cons.inj hrest).2⟩
        · simp only [List.map_cons, List.map_nil, join, List.append_assoc, List.cons_append] at h
          obtain ⟨-, hrest⟩ := ha a' _ _ (hfollow r) (hcomma _) h
          exact absurd (List.cons.inj hrest).1 hne
      · rcases l' with - | ⟨a', - | ⟨b', l'⟩⟩
        · simp only [List.map_cons, join, List.append_assoc] at h
          exact absurd h (hstart a _ _)
        · simp only [List.map_cons, List.map_nil, join, List.append_assoc, List.cons_append] at h
          obtain ⟨-, hrest⟩ := ha a' _ _ (hcomma _) (hfollow r') h
          exact absurd (List.cons.inj hrest).1.symm hne
        · simp only [List.map_cons, join, List.append_assoc, List.cons_append] at h
          obtain ⟨hg, hrest⟩ := ha a' _ _ (hcomma _) (hcomma _) h
          have ih' : ∀ x ∈ b :: l, ∀ a' r r', Follows r → Follows r' →
              f x ++ r = f a' ++ r' → g x = g a' ∧ r = r' :=
            fun x hx => ih x (List.mem_cons_of_mem a hx)
          obtain ⟨hgs, hr⟩ := ihl ih'
            (show _ = join ((b' :: l').map f) ++ close :: r' from (List.cons.inj hrest).2)
          exact ⟨congrArg₂ List.cons hg hgs, hr⟩

end Join

/-- What a text starting with `c` can be the text of. -/
def leadKind (c : Char) : ℕ :=
  if isNumberChar c then 0
  else if c = 'n' then 1
  else if c = 't' then 2
  else if c = 'f' then 3
  else if c = '"' then 4
  else if c = '[' then 5
  else if c = '{' then 6
  else 7

def kind : JsonText → ℕ
  | .number _ => 0
  | .null => 1
  | .bool true => 2
  | .bool false => 3
  | .string _ => 4
  | .array _ => 5
  | .object _ => 6

theorem kind_lt (v : JsonText) : kind v < 7 := by
  unfold kind
  split <;> omega

theorem stableStringify_lead (v : JsonText) :
    ∃ c t, stableStringify v = c :: t ∧ leadKind c = kind v := by
  cases v with
  | null => exact ⟨'n', _, by rw [stableStringify]; rfl, rfl⟩
  | bool b =>
      cases b with
      | true => exact ⟨'t', _, by rw [stableStringify]; rfl, rfl⟩
      | false => exact ⟨'f', _, by rw [stableStringify]; rfl, rfl⟩
  | number n =>
      obtain ⟨c, t, htext⟩ := List.exists_cons_of_ne_nil n.nonempty
      refine ⟨c, t, by rw [stableStringify, htext], ?_⟩
      have hc := n.chars c (by rw [htext]; exact List.mem_cons_self ..)
      simp [leadKind, hc, kind]
  | string s => exact ⟨'"', _, by rw [stableStringify, quote], rfl⟩
  | array items => exact ⟨'[', _, by rw [stableStringify], rfl⟩
  | object fields => exact ⟨'{', _, by rw [stableStringify], rfl⟩

theorem kind_of_text {v v' : JsonText} {r r' : Text}
    (h : stableStringify v ++ r = stableStringify v' ++ r') : kind v = kind v' := by
  obtain ⟨c, t, ht, hc⟩ := stableStringify_lead v
  obtain ⟨c', t', ht', hc'⟩ := stableStringify_lead v'
  rw [ht, ht', List.cons_append, List.cons_append] at h
  rw [← hc, ← hc', (List.cons.inj h).1]

theorem stableStringify_ne_close (v : JsonText) (r r' : Text) :
    stableStringify v ++ r ≠ ']' :: r' := by
  intro h
  obtain ⟨c, t, ht, hc⟩ := stableStringify_lead v
  rw [ht, List.cons_append] at h
  have hlt := kind_lt v
  rw [← hc, (List.cons.inj h).1] at hlt
  exact absurd hlt (by decide)

/-- A text splits off what follows it in one way. -/
theorem text_unique (v v' : JsonText) {r r' : Text} (hr : Follows r) (hr' : Follows r')
    (h : stableStringify v ++ r = stableStringify v' ++ r') :
    canonical v = canonical v' ∧ r = r' := by
  -- values nest in lists, so the induction is on their size
  induction hn : sizeOf v using Nat.strong_induction_on generalizing v v' r r' with
  | _ n ihn =>
    have hkind := kind_of_text h
    cases v with
    | null =>
        rcases v' with _ | (_ | _) | _ | _ | _ | _ <;> cases hkind
        exact ⟨rfl, List.append_cancel_left h⟩
    | bool b =>
        rcases b with _ | _ <;> rcases v' with _ | (_ | _) | _ | _ | _ | _ <;> cases hkind
        · exact ⟨rfl, List.append_cancel_left h⟩
        · exact ⟨rfl, List.append_cancel_left h⟩
    | number n =>
        rcases v' with _ | (_ | _) | n' | _ | _ | _ <;> cases hkind
        rw [stableStringify, stableStringify] at h
        obtain ⟨htext, hrest⟩ := digits_unique n.chars n'.chars hr hr' h
        obtain ⟨text, _, _⟩ := n
        obtain ⟨text', _, _⟩ := n'
        cases htext
        exact ⟨rfl, hrest⟩
    | string s =>
        rcases v' with _ | (_ | _) | _ | s' | _ | _ <;> cases hkind
        rw [stableStringify, stableStringify] at h
        obtain ⟨rfl, hrest⟩ := quote_unique h
        exact ⟨rfl, hrest⟩
    | array items =>
        rcases v' with _ | (_ | _) | _ | _ | items' | _ <;> cases hkind
        simp only [stableStringify, stringifyItems_eq, List.cons_append, List.append_assoc,
          List.nil_append, List.cons.injEq, true_and] at h
        have ih : ∀ a ∈ items, ∀ a' r r', Follows r → Follows r' →
            stableStringify a ++ r = stableStringify a' ++ r' →
              canonical a = canonical a' ∧ r = r' := by
          intro a ha a' r r' hr hr' heq
          have hlt := List.sizeOf_lt_of_mem ha
          have hsize : sizeOf (Json.array items) = 1 + sizeOf items := by simp
          exact ihn (sizeOf a) (by omega) a a' hr hr' heq rfl
        obtain ⟨hitems, hrest⟩ := join_unique rfl (by decide) stableStringify_ne_close ih h
        simp only [canonical, canonicalItems_eq, hitems, true_and]
        exact hrest
    | object fields =>
        rcases v' with _ | (_ | _) | _ | _ | _ | fields' <;> cases hkind
        simp only [stableStringify, stringifyFields_eq, sortKeys_map, List.map_map,
          List.cons_append, List.append_assoc, List.nil_append, List.cons.injEq, true_and] at h
        have ih : ∀ f ∈ sortKeys fields, ∀ (f' : String × JsonText) r r', Follows r → Follows r' →
            (fieldText ∘ Prod.map id stableStringify) f ++ r =
              (fieldText ∘ Prod.map id stableStringify) f' ++ r' →
                Prod.map id canonical f = Prod.map id canonical f' ∧ r = r' := by
          intro f hf f' r r' hr hr' heq
          obtain ⟨key, a⟩ := f
          obtain ⟨key', a'⟩ := f'
          have hlt := List.sizeOf_lt_of_mem (mem_sortKeys.1 hf)
          simp only [Function.comp_apply, fieldText, Prod.map_apply, id_eq,
            List.append_assoc] at heq
          obtain ⟨rfl, htail⟩ := quote_unique heq
          simp only [List.cons_append, List.cons.injEq, true_and] at htail
          have hsize : sizeOf (Json.object fields) = 1 + sizeOf fields := by simp
          have hpair : sizeOf (key, a) = 1 + sizeOf key + sizeOf a := by simp
          obtain ⟨hcanonical, hrest⟩ := ihn (sizeOf a) (by omega) a a' hr hr' htail rfl
          exact ⟨by rw [Prod.map_apply, hcanonical, Prod.map_apply], hrest⟩
        have hstart : ∀ (f : String × JsonText) r r',
            (fieldText ∘ Prod.map id stableStringify) f ++ r ≠ '}' :: r' := by
          intro f r r' heq
          exact absurd (List.cons.inj heq).1 (by decide)
        obtain ⟨hfields, hrest⟩ := join_unique rfl (by decide) hstart ih h
        simp only [canonical, canonicalFields_eq, sortKeys_map, hfields, true_and]
        exact hrest

theorem canonical_of_text {v v' : JsonText} (h : stableStringify v = stableStringify v') :
    canonical v = canonical v' :=
  (text_unique v v' follows_nil follows_nil (by rw [h])).1

/-- The text of a value does not depend on the order of its fields. -/
theorem stableStringify_canonical (v : JsonText) :
    stableStringify (canonical v) = stableStringify v := by
  induction hn : sizeOf v using Nat.strong_induction_on generalizing v with
  | _ n ih =>
    cases v with
    | null => rfl
    | bool b => rfl
    | number n => rfl
    | string s => rfl
    | array items =>
        have hitems : ∀ a ∈ items, (stableStringify ∘ canonical) a = stableStringify a := by
          intro a ha
          have hlt := List.sizeOf_lt_of_mem ha
          have hsize : sizeOf (Json.array items) = 1 + sizeOf items := by simp
          exact ih (sizeOf a) (by omega) a rfl
        simp only [canonical, canonicalItems_eq, stableStringify, stringifyItems_eq, List.map_map]
        rw [List.map_congr_left hitems]
    | object fields =>
        have hfields : ∀ f ∈ fields, (Prod.map id stableStringify ∘ Prod.map id canonical) f =
            Prod.map id stableStringify f := by
          intro f hf
          obtain ⟨key, a⟩ := f
          have hlt := List.sizeOf_lt_of_mem hf
          have hsize : sizeOf (Json.object fields) = 1 + sizeOf fields := by simp
          have hpair : sizeOf (key, a) = 1 + sizeOf key + sizeOf a := by simp
          simp only [Function.comp_apply, Prod.map_apply, id_eq]
          rw [ih (sizeOf a) (by omega) a rfl]
        simp only [canonical, canonicalFields_eq, stableStringify, stringifyFields_eq]
        rw [← sortKeys_map, sortKeys_sortKeys, List.map_map, List.map_congr_left hfields]

theorem stableStringify_inj {v v' : JsonText} :
    stableStringify v = stableStringify v' ↔ canonical v = canonical v' := by
  constructor
  · exact canonical_of_text
  · intro h
    rw [← stableStringify_canonical v, h, stableStringify_canonical]

end BlockMiner
