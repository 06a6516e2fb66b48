import BlockMiner.Json
import Mathlib

/-!
# Dates as texts

A date is a number of milliseconds since 1970. `toISOString` writes it with its
year, month and day in the Gregorian calendar, and `parseISO` reads what it
writes. A calendar year here starts in March, so that a leap day is its last.

Other formats that `Date` reads are not covered.
-/

namespace BlockMiner.IsoDate

/-- A date that `Date` can hold. -/
structure TimeValue where
  ms : ℤ
  range : |ms| ≤ 8640000000000000
deriving DecidableEq

structure Civil where
  year : ℤ
  month : ℕ
  day : ℕ

/-- The month from a number that counts from March. -/
def monthOf (march : ℕ) : ℕ := if march < 10 then march + 3 else march - 9

def marchOf (month : ℕ) : ℕ := if month ≤ 2 then month + 9 else month - 3

/-- The days before a month that counts from March, in its year. -/
def monthDays (march : ℕ) : ℕ := (153 * march + 2) / 5

/-- The days before a year that starts in March. -/
def yearDays (year : ℤ) : ℤ := 365 * year + year / 4 - year / 100 + year / 400

/-- The first of March of the year 0. -/
def EPOCH : ℤ := -719468

/-- The date of a day since 1970-01-01. -/
def civilOfDay (day : ℤ) : Civil :=
  let cycle := (day - EPOCH) / 146097
  let dayOfCycle := ((day - EPOCH) % 146097).toNat
  let century := min 3 (dayOfCycle / 36524)
  let dayOfCentury := dayOfCycle - century * 36524
  let group := dayOfCentury / 1461
  let dayOfGroup := dayOfCentury % 1461
  let year := min 3 (dayOfGroup / 365)
  let dayOfYear := dayOfGroup - year * 365
  let march := (5 * dayOfYear + 2) / 153
  { year := 400 * cycle + 100 * century + 4 * group + year + if march < 10 then 0 else 1
    month := monthOf march
    day := dayOfYear - monthDays march + 1 }

/-- The day of a date; days past the end of the month count on. -/
def dayOfCivil (c : Civil) : ℤ :=
  yearDays (if c.month ≤ 2 then c.year - 1 else c.year) + monthDays (marchOf c.month) + c.day - 1
    + EPOCH

theorem yearDays_eq {cycle : ℤ} {century group year : ℕ} (hc : century ≤ 3) (hg : group ≤ 24)
    (hy : year ≤ 3) :
    yearDays (400 * cycle + 100 * century + 4 * group + year)
      = 146097 * cycle + 36524 * century + 1461 * group + 365 * year := by
  unfold yearDays
  have h4 : (400 * cycle + 100 * century + 4 * group + year) / 4
      = 100 * cycle + 25 * century + group := by omega
  have h100 : (400 * cycle + 100 * century + 4 * group + year) / 100
      = 4 * cycle + century := by omega
  have h400 : (400 * cycle + 100 * century + 4 * group + year) / 400 = cycle := by omega
  omega

theorem marchOf_monthOf {march : ℕ} (h : march ≤ 11) : marchOf (monthOf march) = march := by
  unfold marchOf monthOf
  split_ifs <;> omega

theorem monthOf_le_two {march : ℕ} (h : march ≤ 11) : monthOf march ≤ 2 ↔ ¬march < 10 := by
  unfold monthOf
  split_ifs <;> omega

/-- The month of a day of the year, and the day of the month. -/
theorem month_spec {dayOfYear : ℕ} (h : dayOfYear ≤ 365) :
    (5 * dayOfYear + 2) / 153 ≤ 11 ∧ monthDays ((5 * dayOfYear + 2) / 153) ≤ dayOfYear
      ∧ dayOfYear < monthDays ((5 * dayOfYear + 2) / 153) + 31 := by
  unfold monthDays
  omega

/-- A day as a cycle of 400 years and what `civilOfDay` splits it into. -/
theorem civilOfDay_spec (day : ℤ) :
    ∃ (cycle : ℤ) (century group year dayOfYear : ℕ),
      century ≤ 3 ∧ group ≤ 24 ∧ year ≤ 3 ∧ dayOfYear ≤ 365
        ∧ day = EPOCH + 146097 * cycle + 36524 * century + 1461 * group + 365 * year + dayOfYear
        ∧ civilOfDay day =
          { year := 400 * cycle + 100 * century + 4 * group + year
              + if (5 * dayOfYear + 2) / 153 < 10 then 0 else 1
            month := monthOf ((5 * dayOfYear + 2) / 153)
            day := dayOfYear - monthDays ((5 * dayOfYear + 2) / 153) + 1 } := by
  have hcycle := Int.emod_add_mul_ediv (day - EPOCH) 146097
  have hlt := Int.emod_lt_of_pos (day - EPOCH) (b := 146097) (by omega)
  have hnonneg := Int.emod_nonneg (day - EPOCH) (b := 146097) (by omega)
  refine ⟨_, _, _, _, _, ?_, ?_, ?_, ?_, ?_, rfl⟩ <;> omega

theorem dayOfCivil_civilOfDay (day : ℤ) : dayOfCivil (civilOfDay day) = day := by
  obtain ⟨cycle, century, group, year, dayOfYear, hc, hg, hy, hd, hday, h⟩ := civilOfDay_spec day
  obtain ⟨hmarch, hle, -⟩ := month_spec hd
  rw [h, dayOfCivil]
  dsimp only
  rw [marchOf_monthOf hmarch]
  have hyear : (if monthOf ((5 * dayOfYear + 2) / 153) ≤ 2 then
        400 * cycle + 100 * century + 4 * group + year
          + (if (5 * dayOfYear + 2) / 153 < 10 then 0 else 1) - 1
      else
        400 * cycle + 100 * century + 4 * group + year
          + if (5 * dayOfYear + 2) / 153 < 10 then 0 else 1)
      = 400 * cycle + 100 * century + 4 * group + year := by
    by_cases h10 : (5 * dayOfYear + 2) / 153 < 10
    · rw [if_neg ((monthOf_le_two hmarch).not.2 (not_not.2 h10)), if_pos h10, add_zero]
    · rw [if_pos ((monthOf_le_two hmarch).2 h10), if_neg h10]
      omega
  rw [hyear, yearDays_eq hc hg hy]
  omega

/-- The fields of a date fit their places. -/
theorem civilOfDay_bounds {day : ℤ} (h : |day| ≤ 100000000) :
    (civilOfDay day).year.natAbs < 1000000 ∧ 1 ≤ (civilOfDay day).month
      ∧ (civilOfDay day).month ≤ 12 ∧ 1 ≤ (civilOfDay day).day ∧ (civilOfDay day).day ≤ 31 := by
  obtain ⟨cycle, century, group, year, dayOfYear, hc, hg, hy, hd, hday, hcivil⟩ :=
    civilOfDay_spec day
  obtain ⟨hmarch, -, hlt⟩ := month_spec hd
  have hrange := abs_le.1 h
  rw [hcivil]
  unfold EPOCH at hday
  dsimp only
  have hmonth : 1 ≤ monthOf ((5 * dayOfYear + 2) / 153)
      ∧ monthOf ((5 * dayOfYear + 2) / 153) ≤ 12 := by
    unfold monthOf
    split_ifs <;> omega
  refine ⟨?_, hmonth.1, hmonth.2, by omega, by omega⟩
  split_ifs <;> omega

/-! ## Digits -/

/-- A number in so many digits. -/
def digits : ℕ → ℕ → List Char
  | 0, _ => []
  | width + 1, n => Nat.digitChar (n / 10 ^ width) :: digits width (n % 10 ^ width)

/-- A number from so many digits. -/
def readNumber : ℕ → ℕ → List Char → Option (ℕ × List Char)
  | 0, value, cs => some (value, cs)
  | width + 1, value, c :: cs =>
      (digitValue 10 c).bind fun d => readNumber width (value * 10 + d) cs
  | _ + 1, _, [] => none

theorem digitValue_digitChar : ∀ d < 10, digitValue 10 (Nat.digitChar d) = some d := by
  decide

theorem readNumber_digits (width n value : ℕ) (rest : List Char) (h : n < 10 ^ width) :
    readNumber width value (digits width n ++ rest) = some (value * 10 ^ width + n, rest) := by
  induction width generalizing n value with
  | zero =>
    obtain rfl : n = 0 := by simpa using h
    simp [readNumber, digits]
  | succ width ih =>
    have hpos : 0 < 10 ^ width := Nat.pos_of_ne_zero (by simp)
    have hdigit : n / 10 ^ width < 10 := Nat.div_lt_of_lt_mul (by rwa [pow_succ] at h)
    simp only [digits, List.cons_append, readNumber, digitValue_digitChar _ hdigit,
      Option.bind_some]
    rw [ih _ _ (Nat.mod_lt _ hpos)]
    have hvalue : (value * 10 + n / 10 ^ width) * 10 ^ width + n % 10 ^ width
        = value * 10 ^ (width + 1) + n := by
      calc (value * 10 + n / 10 ^ width) * 10 ^ width + n % 10 ^ width
          = value * 10 ^ (width + 1) + (10 ^ width * (n / 10 ^ width) + n % 10 ^ width) := by ring
        _ = value * 10 ^ (width + 1) + n := by rw [Nat.div_add_mod]
    rw [hvalue]

/-! ## The text of a date -/

def yearText (year : ℤ) : List Char :=
  if 0 ≤ year ∧ year ≤ 9999 then digits 4 year.toNat
  else (if year < 0 then '-' else '+') :: digits 6 year.natAbs

def toISOString (date : TimeValue) : String :=
  let civil := civilOfDay (date.ms / 86400000)
  let time := (date.ms % 86400000).toNat
  String.ofList (yearText civil.year ++ '-' :: digits 2 civil.month ++ '-' :: digits 2 civil.day
    ++ 'T' :: digits 2 (time / 3600000) ++ ':' :: digits 2 (time / 60000 % 60)
    ++ ':' :: digits 2 (time / 1000 % 60) ++ '.' :: digits 3 (time % 1000) ++ ['Z'])

def readYear : List Char → Option (ℤ × List Char)
  | '+' :: cs => (readNumber 6 0 cs).map fun (n, cs) => (n, cs)
  | '-' :: cs => ((readNumber 6 0 cs).filter (·.1 ≠ 0)).map fun (n, cs) => (-n, cs)
  | cs => (readNumber 4 0 cs).map fun (n, cs) => (n, cs)

def expect (c : Char) : List Char → Option (List Char)
  | d :: cs => if d = c then some cs else none
  | [] => none

def timeClip (ms : ℤ) : Option TimeValue :=
  if h : |ms| ≤ 8640000000000000 then some ⟨ms, h⟩ else none

/-- The day of a month may be past its end, and a day ends at 24:00. -/
def parseISO (text : String) : Option TimeValue := do
  let (year, cs) ← readYear text.toList
  let (month, cs) ← (expect '-' cs).bind (readNumber 2 0)
  let (day, cs) ← (expect '-' cs).bind (readNumber 2 0)
  let (hour, cs) ← (expect 'T' cs).bind (readNumber 2 0)
  let (minute, cs) ← (expect ':' cs).bind (readNumber 2 0)
  let (second, cs) ← (expect ':' cs).bind (readNumber 2 0)
  let (ms, cs) ← (expect '.' cs).bind (readNumber 3 0)
  let time := hour * 3600000 + minute * 60000 + second * 1000 + ms
  if cs = ['Z'] ∧ 1 ≤ month ∧ month ≤ 12 ∧ 1 ≤ day ∧ day ≤ 31 ∧ minute < 60 ∧ second < 60
      ∧ time ≤ 86400000 then
    timeClip (dayOfCivil ⟨year, month, day⟩ * 86400000 + time)
  else none

theorem readYear_yearText {year : ℤ} (h : year.natAbs < 1000000) (rest : List Char) :
    readYear (yearText year ++ rest) = some (year, rest) := by
  have hread := readNumber_digits 6 year.natAbs 0 rest h
  unfold yearText
  split_ifs with hplain hneg
  · have hread := readNumber_digits 4 year.toNat 0 rest (by omega)
    have hdigit : year.toNat / 10 ^ 3 < 10 := by omega
    have hfirst : ∀ d < 10, Nat.digitChar d ≠ '+' ∧ Nat.digitChar d ≠ '-' := by decide
    obtain ⟨hplus, hminus⟩ := hfirst _ hdigit
    simp only [digits, List.cons_append] at hread ⊢
    unfold readYear
    split
    case h_1 heq => exact absurd (List.cons.inj heq).1 hplus
    case h_2 heq => exact absurd (List.cons.inj heq).1 hminus
    case h_3 =>
      have hsame : ((0 * 10 ^ 4 + year.toNat : ℕ) : ℤ) = year := by omega
      rw [hread]
      exact congrArg (fun y => some (y, rest)) hsame
  · have hsame : -((0 * 10 ^ 6 + year.natAbs : ℕ) : ℤ) = year := by omega
    have hne : decide ((0 * 10 ^ 6 + year.natAbs, rest).1 ≠ 0) = true :=
      decide_eq_true (by dsimp only; omega)
    simp only [List.cons_append, readYear, hread]
    rw [Option.filter_some_pos (p := fun n : ℕ × List Char => n.1 ≠ 0) hne]
    exact congrArg (fun y => some (y, rest)) hsame
  · have hsame : ((0 * 10 ^ 6 + year.natAbs : ℕ) : ℤ) = year := by omega
    simp only [List.cons_append, readYear, hread]
    exact congrArg (fun y => some (y, rest)) hsame

theorem expect_cons (c : Char) (cs : List Char) : expect c (c :: cs) = some cs := if_pos rfl

theorem parseISO_toISOString (date : TimeValue) : parseISO (toISOString date) = some date := by
  have hday : |date.ms / 86400000| ≤ 100000000 := by
    have hrange := abs_le.1 date.range
    exact abs_le.2 (by omega)
  obtain ⟨hyear, hm1, hm12, hd1, hd31⟩ := civilOfDay_bounds hday
  have hnonneg := Int.emod_nonneg date.ms (b := 86400000) (by omega)
  obtain ⟨time, htime⟩ := Int.eq_ofNat_of_zero_le hnonneg
  have hlt := Int.emod_lt_of_pos date.ms (b := 86400000) (by omega)
  have hms : date.ms = date.ms / 86400000 * 86400000 + time := by omega
  generalize hcivil : civilOfDay (date.ms / 86400000) = civil at *
  unfold parseISO toISOString
  simp only [hcivil, String.toList_ofList, List.append_assoc, List.cons_append, htime,
    Int.toNat_natCast]
  rw [readYear_yearText hyear]
  simp only [Option.bind_eq_bind, Option.bind_some, expect_cons]
  rw [readNumber_digits 2 _ 0 _ (by omega)]
  simp only [Option.bind_some, expect_cons]
  rw [readNumber_digits 2 _ 0 _ (by omega)]
  simp only [Option.bind_some, expect_cons]
  rw [readNumber_digits 2 _ 0 _ (by omega)]
  simp only [Option.bind_some, expect_cons]
  rw [readNumber_digits 2 _ 0 _ (by omega)]
  simp only [Option.bind_some, expect_cons]
  rw [readNumber_digits 2 _ 0 _ (by omega)]
  simp only [Option.bind_some, expect_cons]
  rw [readNumber_digits 3 _ 0 _ (by omega)]
  simp only [Option.bind_some, zero_mul, zero_add]
  have hminute : time / 60000 / 60 = time / 3600000 := Nat.div_div_eq_div_mul ..
  have hsecond : time / 1000 / 60 = time / 60000 := Nat.div_div_eq_div_mul ..
  have hsum : time / 3600000 * 3600000 + time / 60000 % 60 * 60000 + time / 1000 % 60 * 1000
      + time % 1000 = time := by omega
  rw [hsum, if_pos ⟨trivial, by omega⟩]
  have hsame : dayOfCivil ⟨civil.year, civil.month, civil.day⟩ = date.ms / 86400000 :=
    hcivil ▸ dayOfCivil_civilOfDay _
  rw [hsame, ← hms]
  exact dif_pos date.range

example : parseISO "2024-02-29T12:00:00.000Z" = timeClip 1709208000000 := by decide

end BlockMiner.IsoDate
