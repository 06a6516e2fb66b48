import Mathlib.Data.List.Basic
import Mathlib.Data.List.Infix
import Mathlib.Data.List.TakeWhile
import Mathlib.Tactic.IntervalCases

/-!
# Masking a text

`maskString` of `audit/utils.js`. A text with an `@` keeps its first character
and all between its first two `@`; another one, of more than four characters,
keeps two at each end. What is left contains the text itself only if there was
nothing to hide: `infix_maskString_iff` lists the texts (`KeptByMask`).

The characters are UTF-16 code units, since `slice` and `length` go by these.
-/

namespace BlockMiner.AuditPayloads

abbrev Units := List UInt16

def star : UInt16 := 42

def atSign : UInt16 := 64

/-- `[local, domain] = value.split("@")`, for a value with an `@`. -/
def splitAt (value : Units) : Units × Units :=
  (value.takeWhile (· ≠ atSign),
    ((value.dropWhile (· ≠ atSign)).drop 1).takeWhile (· ≠ atSign))

def maskString (value : Units) : Units :=
  if atSign ∈ value then
    let (name, domain) := splitAt value
    name.take 1 ++ [star, star, star, atSign] ++ domain
  else if value.length ≤ 4 then [star, star, star, star]
  else value.take 2 ++ [star, star, star] ++ value.drop (value.length - 2)

/-- The texts that their own mask contains: of at least five characters, they are masked
already, or have nothing before a single `@`, or a few stars. -/
inductive KeptByMask : Units → Prop
  | name (domain : Units) (h : atSign ∉ domain) (stars : ℕ) (hstars : stars ≤ 3) :
      KeptByMask (List.replicate stars star ++ atSign :: domain)
  | masked (c : UInt16) (domain : Units) (h : atSign ∉ domain) (hc : c ≠ atSign) :
      KeptByMask (c :: star :: star :: star :: atSign :: domain)
  | five (a b : UInt16) (h : atSign ∉ [a, b]) : KeptByMask [a, b, star, star, star]
  | five' (c d : UInt16) (h : atSign ∉ [c, d]) : KeptByMask [star, star, star, c, d]
  | six (a b : UInt16) (h : atSign ∉ [a, b]) : KeptByMask [a, b, star, star, star, star]
  | six' (c d : UInt16) (h : atSign ∉ [c, d]) : KeptByMask [star, star, star, star, c, d]
  | seven (a b c d : UInt16) (h : atSign ∉ [a, b, c, d]) :
      KeptByMask [a, b, star, star, star, c, d]

/-! ## With an `@` -/

theorem splitAt_eq {name rest : Units} (hname : atSign ∉ name) :
    splitAt (name ++ atSign :: rest) = (name, rest.takeWhile (· ≠ atSign)) := by
  have hall : ∀ c ∈ name, decide (c ≠ atSign) = true := fun _ hc =>
    decide_eq_true fun heq => hname (heq ▸ hc)
  rw [splitAt, List.takeWhile_append_of_pos hall, List.dropWhile_append_of_pos hall]
  simp

theorem maskString_at {name rest : Units} (hname : atSign ∉ name) :
    maskString (name ++ atSign :: rest)
      = name.take 1 ++ [star, star, star, atSign] ++ rest.takeWhile (· ≠ atSign) := by
  rw [maskString, if_pos (by simp), splitAt_eq hname]

theorem takeWhile_self {domain : Units} (h : atSign ∉ domain) :
    domain.takeWhile (· ≠ atSign) = domain :=
  List.takeWhile_eq_self_iff.mpr fun _ hc => decide_eq_true fun heq => h (heq ▸ hc)

/-- The mask has one `@`, so the text has no other, and they are the same one. -/
theorem infix_maskString_at {name rest : Units} (hname : atSign ∉ name)
    (h : name ++ atSign :: rest <:+: maskString (name ++ atSign :: rest)) :
    atSign ∉ rest ∧ ∃ t, t ++ name = name.take 1 ++ [star, star, star] := by
  rw [maskString_at hname] at h
  have hdomain : (rest.takeWhile (· ≠ atSign)).count atSign = 0 :=
    List.count_eq_zero.mpr fun hmem => by simpa using List.mem_takeWhile_imp hmem
  have htake : (name.take 1).count atSign = 0 :=
    List.count_eq_zero.mpr fun hmem => hname (List.mem_of_mem_take hmem)
  have hcount := h.sublist.count_le atSign
  have hthree : ([star, star, star, atSign] : Units).count atSign = 1 := by decide
  rw [List.count_append, List.count_append, List.count_append, List.count_cons_self, hdomain,
    htake, hthree] at hcount
  have hrest : atSign ∉ rest := List.count_eq_zero.mp (by omega)
  obtain ⟨t, u, htu⟩ := h
  have hone := congrArg (List.count atSign) htu
  simp only [List.count_append, List.count_cons_self, hdomain, htake, hthree] at hone
  have ht : atSign ∉ t ++ name := by
    rw [List.mem_append, not_or]
    exact ⟨List.count_eq_zero.mp (by omega), hname⟩
  have hu : atSign ∉ rest ++ u := by
    rw [List.mem_append, not_or]
    exact ⟨hrest, List.count_eq_zero.mp (by omega)⟩
  have hsplit : (t ++ name) ++ atSign :: (rest ++ u)
      = (name.take 1 ++ [star, star, star]) ++ atSign :: rest.takeWhile (· ≠ atSign) := by
    simpa using htu
  exact ⟨hrest, t, ((List.append_cons_inj_of_notMem ht hu).mp hsplit).1⟩

theorem keptByMask_at {name rest : Units} (hname : atSign ∉ name) (hrest : atSign ∉ rest)
    {t : Units} (ht : t ++ name = name.take 1 ++ [star, star, star]) :
    KeptByMask (name ++ atSign :: rest) := by
  cases name with
  | nil => exact .name rest hrest 0 (by omega)
  | cons c name =>
      have hc : c ≠ atSign := fun heq => hname (heq ▸ List.mem_cons_self ..)
      rcases t with _ | ⟨x, t⟩
      · obtain rfl : name = [star, star, star] := by simpa using ht
        exact .masked c rest hrest hc
      · -- the name is what is left of three stars
        have hstars : t ++ c :: name = List.replicate 3 star := by
          simpa using (List.cons.inj ht).2
        have hall : c :: name = List.replicate (c :: name).length star :=
          List.eq_replicate_of_mem fun b hb =>
            List.eq_of_mem_replicate (hstars ▸ List.mem_append_right t hb)
        have hlength := congrArg List.length hstars
        rw [List.length_append, List.length_replicate] at hlength
        rw [hall]
        exact .name rest hrest _ (by omega)

/-! ## Without one -/

theorem maskString_long {value : Units} (h : atSign ∉ value) (hlong : 4 < value.length) :
    maskString value = value.take 2 ++ [star, star, star] ++ value.drop (value.length - 2) := by
  rw [maskString, if_neg h, if_neg (by omega)]

theorem keptByMask_long {value : Units} (h : atSign ∉ value) (hlong : 4 < value.length)
    (hshown : value <:+: maskString value) : KeptByMask value := by
  rw [maskString_long h hlong] at hshown
  have hlength := hshown.length_le
  rw [List.length_append, List.length_append, List.length_take, List.length_drop] at hlength
  have hshort : value.length ≤ 7 := by
    simp only [List.length_cons, List.length_nil] at hlength
    omega
  match value, hlong, hshort with
  | [a, b, c, d, e], _, _ =>
      have hab : atSign ∉ [a, b] := fun hmem => h (List.mem_append_left [c, d, e] hmem)
      have hde : atSign ∉ [d, e] := fun hmem => h (List.mem_append_right [a, b, c] hmem)
      have hplaces : (c = star ∧ d = star ∧ e = star)
          ∨ (a = b ∧ b = star ∧ c = star ∧ d = star ∧ e = d)
          ∨ (a = star ∧ b = star ∧ c = star) := by
        simpa [List.infix_cons_iff] using hshown
      rcases hplaces with ⟨rfl, rfl, rfl⟩ | ⟨rfl, rfl, rfl, rfl, rfl⟩ | ⟨rfl, rfl, rfl⟩
      · exact .five a b hab
      · exact .five _ _ hab
      · exact .five' d e hde
  | [a, b, c, d, e, f], _, _ =>
      have hab : atSign ∉ [a, b] := fun hmem => h (List.mem_append_left [c, d, e, f] hmem)
      have hef : atSign ∉ [e, f] := fun hmem => h (List.mem_append_right [a, b, c, d] hmem)
      have hplaces : (c = star ∧ d = star ∧ e = star ∧ f = e)
          ∨ (a = b ∧ b = star ∧ c = star ∧ d = star) := by
        simpa [List.infix_cons_iff] using hshown
      rcases hplaces with ⟨rfl, rfl, rfl, rfl⟩ | ⟨rfl, rfl, rfl, rfl⟩
      · exact .six a b hab
      · exact .six' e f hef
  | [a, b, c, d, e, f, g], _, _ =>
      have habfg : atSign ∉ [a, b, f, g] := fun hmem => h (by simp at hmem ⊢; tauto)
      have hplaces : c = star ∧ d = star ∧ e = star := by
        simpa [List.infix_cons_iff] using hshown
      obtain ⟨rfl, rfl, rfl⟩ := hplaces
      exact .seven a b f g habfg

theorem atSign_ne_star : atSign ≠ star := by decide

theorem notMem_stars {stars : ℕ} : atSign ∉ List.replicate stars star := fun hmem =>
  atSign_ne_star (List.eq_of_mem_replicate hmem)

theorem notMem_of_stars {kept value : Units} (h : atSign ∉ kept)
    (hvalue : ∀ c ∈ value, c = star ∨ c ∈ kept) : atSign ∉ value := fun hmem =>
  (hvalue atSign hmem).elim atSign_ne_star h

/-- A text longer than four characters is in its own mask if and only if it is one of the
kept ones. -/
theorem infix_maskString_iff {value : Units} (hlong : 4 < value.length) :
    value <:+: maskString value ↔ KeptByMask value := by
  constructor
  · intro hshown
    by_cases h : atSign ∈ value
    · obtain ⟨name, rest, rfl, hname⟩ := List.eq_append_cons_of_mem h
      obtain ⟨hrest, t, ht⟩ := infix_maskString_at hname hshown
      exact keptByMask_at hname hrest ht
    · exact keptByMask_long h hlong hshown
  · intro hkept
    cases hkept with
    | name domain h stars hstars =>
        rw [maskString_at notMem_stars, takeWhile_self h]
        refine ⟨List.replicate (min 1 stars + 3 - stars) star, [], ?_⟩
        interval_cases stars <;> simp [List.replicate]
    | masked c domain h hc =>
        have hname : atSign ∉ [c, star, star, star] := by simp [hc.symm, atSign_ne_star]
        have hmask : maskString ([c, star, star, star] ++ atSign :: domain) = _ :=
          maskString_at hname
        rw [takeWhile_self h] at hmask
        exact (show _ = maskString _ from hmask.symm) ▸ List.infix_rfl
    | five a b h =>
        rw [maskString_long (notMem_of_stars h (by simp)) (by simp)]
        exact ⟨[], [star, star], rfl⟩
    | five' c d h =>
        rw [maskString_long (notMem_of_stars h (by simp)) (by simp)]
        exact ⟨[star, star], [], rfl⟩
    | six a b h =>
        rw [maskString_long (notMem_of_stars h (by simp)) (by simp)]
        exact ⟨[], [star], rfl⟩
    | six' c d h =>
        rw [maskString_long (notMem_of_stars h (by simp)) (by simp)]
        exact ⟨[star], [], rfl⟩
    | seven a b c d h =>
        rw [maskString_long (notMem_of_stars h (by simp)) (by simp)]
        exact ⟨[], [], rfl⟩

end BlockMiner.AuditPayloads
