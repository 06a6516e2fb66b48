import Mathlib.Data.Rat.Floor
import BlockMiner.Calendar
import BlockMiner.JsonSyntax

/-!
# Periods of missions

`services/miniPass/miniPassPeriod.js`: the day and the week in UTC of an
instant.

`Date.UTC` reads a year from 0 to 99 as one of the twentieth century, so
`utcIsoWeekKey` finds the week of another year there. In the year -271821, the
first of January is before the earliest instant. On all other days the key has
the week of ISO 8601 (`utcIsoWeekKey_iff`).

The number of a week is the ceiling of a double. The exact quotient is a whole
number or at least 1/7 from one, so both have the same ceiling.
-/

namespace BlockMiner.MiniPassPeriod

open IsoDate
open JsonSyntax (intText)

/-- The day of an instant. -/
def utcDay (ms : ℤ) : ℤ := ms / 86400000

/-- `toISOString().slice(0, 10)` -/
def utcDayKey (now : ℤ) : String :=
  let civil := civilOfDay (utcDay now)
  String.ofList
    ((yearText civil.year ++ '-' :: digits 2 civil.month ++ '-' :: digits 2 civil.day).take 10)

def getUTCFullYear (ms : ℤ) : ℤ := (civilOfDay (utcDay ms)).year

def getUTCMonth (ms : ℤ) : ℤ := (civilOfDay (utcDay ms)).month - 1

def getUTCDate (ms : ℤ) : ℤ := (civilOfDay (utcDay ms)).day

def getUTCDay (ms : ℤ) : ℤ := (utcDay ms + 4) % 7

def setUTCDate (ms date : ℤ) : Option TimeValue :=
  timeClip (makeDay (getUTCFullYear ms) (getUTCMonth ms) date * 86400000 + ms % 86400000)

def padStart (width : ℕ) (text : List Char) : List Char :=
  List.replicate (width - text.length) '0' ++ text

def weekNo (d yearStart : ℤ) : ℤ := ⌈(((d - yearStart : ℤ) : ℚ) / 86400000 + 1) / 7⌉

def weekNoText (d : ℤ) : List Char :=
  (dateUTC (getUTCFullYear d) 0 1 0).elim ['N', 'a', 'N'] fun yearStart =>
    intText (weekNo d yearStart.ms)

/-- The Thursday of the week of a date that is a midnight. -/
def weekThursday (d : ℤ) : Option TimeValue :=
  let dayNum := if getUTCDay d = 0 then 7 else getUTCDay d
  setUTCDate d (getUTCDate d + 4 - dayNum)

def utcIsoWeekKey (date : ℤ) : String :=
  match (dateUTC (getUTCFullYear date) (getUTCMonth date) (getUTCDate date) 0).bind
      fun d => weekThursday d.ms with
  | none => "NaN-WNaN"
  | some d =>
      String.ofList
        (intText (getUTCFullYear d.ms) ++ '-' :: 'W' :: padStart 2 (weekNoText d.ms))

/-! ## Each step -/

theorem utcDay_midnight (day : ℤ) : utcDay (day * 86400000) = day :=
  Int.mul_ediv_cancel day (by decide)

/-- The month and the day of a date that can be held. -/
theorem month_between {day : ℤ} (h : |day| ≤ 100000000) :
    1 ≤ (civilOfDay day).month ∧ (civilOfDay day).month ≤ 12 :=
  ⟨(civilOfDay_bounds h).2.1, (civilOfDay_bounds h).2.2.1⟩

theorem setUTCDate_midnight {day : ℤ} (h : |day| ≤ 100000000) (shift : ℤ) :
    setUTCDate (day * 86400000) (getUTCDate (day * 86400000) + shift)
      = timeClip ((day + shift) * 86400000) := by
  obtain ⟨hm1, hm12⟩ := month_between h
  unfold setUTCDate getUTCFullYear getUTCMonth getUTCDate
  rw [utcDay_midnight, makeDay_add, makeDay_eq hm1 hm12, dayOfCivil_civilOfDay,
    Int.mul_emod_left, add_zero]

theorem weekThursday_midnight {day : ℤ} (h : |day| ≤ 100000000) :
    weekThursday (day * 86400000) = timeClip (thursday day * 86400000) := by
  unfold weekThursday
  dsimp only
  rw [add_sub_assoc, setUTCDate_midnight h]
  congr 2
  unfold getUTCDay thursday monday
  rw [utcDay_midnight]
  split_ifs <;> omega

theorem weekNo_midnight (day first : ℤ) :
    weekNo (day * 86400000) (first * 86400000) = (day - first) / 7 + 1 := by
  have hquotient : (((day * 86400000 - first * 86400000 : ℤ) : ℚ) / 86400000 + 1) / 7
      = ((day - first + 1 : ℤ) : ℚ) / ((7 : ℕ) : ℚ) := by
    push_cast
    ring
  rw [weekNo, hquotient, Rat.ceil_intCast_div_natCast]
  omega

theorem thursday_range {day : ℤ} (h : |day| ≤ 100000000) : |thursday day| ≤ 100000000 := by
  rw [abs_le] at *
  unfold thursday monday
  omega

theorem utcDay_range (date : TimeValue) : |utcDay date.ms| ≤ 100000000 := by
  have hrange := abs_le.1 date.range
  rw [abs_le]
  unfold utcDay
  omega

/-! ## The key of a week -/

/-- The year and the number of a week. -/
def weekKey (year : ℤ) (week : ℕ) : String :=
  String.ofList (intText year ++ '-' :: 'W' :: digits 2 week)

/-- `Date.UTC` reads the years of the day and of its Thursday as they are, and
the first of January of the latter is an instant. -/
def WeekReadable (day : ℤ) : Prop :=
  fullYear (civilOfDay day).year = (civilOfDay day).year
    ∧ fullYear (civilOfDay (thursday day)).year = (civilOfDay (thursday day)).year
    ∧ (civilOfDay (thursday day)).year ≠ -271821

theorem intText_split {year year' : ℤ} {rest rest' : List Char}
    (h : intText year ++ '-' :: rest = intText year' ++ '-' :: rest') :
    year = year' ∧ rest = rest' := by
  have hends : ∀ rest, JsonSyntax.EndsNumber ('-' :: rest) := by
    rintro rest c ⟨⟩
    decide
  have hread := JsonSyntax.number_intText (hends rest) year
  rw [h, JsonSyntax.number_intText (hends rest') year'] at hread
  obtain ⟨hyear, hrest⟩ := Prod.mk.inj (Option.some.inj hread)
  exact ⟨Int.cast_injective hyear.symm, (List.cons.inj hrest).2.symm⟩

theorem digits_inj {week week' : ℕ} (h : week < 100) (h' : week' < 100)
    (heq : digits 2 week = digits 2 week') : week = week' := by
  have hread := readNumber_digits 2 week 0 [] h
  rw [heq, readNumber_digits 2 week' 0 [] h'] at hread
  have hsame := (Prod.mk.inj (Option.some.inj hread)).1
  omega

theorem weekKey_inj {day day' year year' : ℤ} {week week' : ℕ} (h : IsoWeek day year week)
    (h' : IsoWeek day' year' week') :
    weekKey year week = weekKey year' week' ↔ year = year' ∧ week = week' := by
  constructor
  · intro heq
    obtain ⟨hyear, hweek⟩ := intText_split (String.ofList_injective heq)
    have hle := h.week_le
    have hle' := h'.week_le
    exact ⟨hyear, digits_inj (by omega) (by omega) (List.cons.inj hweek).2⟩
  · rintro ⟨rfl, rfl⟩
    rfl

theorem padStart_week : ∀ week ≤ 53, padStart 2 (intText (week : ℕ)) = digits 2 week := by
  decide

theorem length_digits (width n : ℕ) : (digits width n).length = width := by
  induction width generalizing n with
  | zero => rfl
  | succ width ih => rw [digits, List.length_cons, ih]

theorem weekNoText_eq (day : ℤ) :
    weekNoText (day * 86400000)
      = (timeClip (newYear (fullYear (civilOfDay day).year) * 86400000)).elim ['N', 'a', 'N']
          fun yearStart => intText (weekNo (day * 86400000) yearStart.ms) := by
  have hfirst : ∀ year, makeDay year 0 1 = newYear year := fun year =>
    makeDay_eq le_rfl (by decide) year 1
  rw [weekNoText, getUTCFullYear, utcDay_midnight, dateUTC, hfirst, zero_mul, add_zero]

theorem weekNoText_of_range {day : ℤ} (h : |newYear (fullYear (civilOfDay day).year)| ≤ 100000000) :
    weekNoText (day * 86400000)
      = intText ((day - newYear (fullYear (civilOfDay day).year)) / 7 + 1) := by
  obtain ⟨start, hstart, hms⟩ := timeClip_day h
  rw [weekNoText_eq, hstart, Option.elim_some, hms, weekNo_midnight]

theorem padStart_negative {n : ℤ} (hn : n < 0) {week : ℕ} (hweek : week < 100) :
    padStart 2 (intText n) ≠ digits 2 week := by
  have hlength : 0 < (Nat.toDigits 10 n.natAbs).length := Nat.length_toDigits_pos
  have hpad : 2 - ('-' :: Nat.toDigits 10 n.natAbs).length = 0 := by
    rw [List.length_cons]
    omega
  have hdash : ∀ d < 10, '-' ≠ Nat.digitChar d := by decide
  rw [padStart, intText, if_pos hn, hpad, List.replicate_zero, List.nil_append, digits]
  intro heq
  exact hdash (week / 10 ^ 1) (by omega) (List.cons.inj heq).1

/-- A Thursday of a year that is read as one of the twentieth century has a
week before that one. -/
theorem weekNoText_of_short {day : ℤ} {week : ℕ} (hweek : week < 100)
    (h : fullYear (civilOfDay day).year ≠ (civilOfDay day).year) :
    padStart 2 (weekNoText (day * 86400000)) ≠ digits 2 week := by
  obtain ⟨hlast, hlow, hhigh⟩ := fullYear_of_ne h
  have hday := year_lt_iff.1 hlast
  have hfrom := newYear_strictMono.monotone hlow
  have hto := newYear_strictMono.monotone hhigh
  have h100 : newYear 100 = -683003 := by decide
  have h1900 : newYear 1900 = -25567 := by decide
  have h1999 : newYear 1999 = 10592 := by decide
  rw [weekNoText_of_range (by rw [abs_le]; omega)]
  exact padStart_negative (by omega) hweek

/-- The text of a week of a Thursday. -/
theorem weekNoText_iff {day year : ℤ} {week : ℕ} (hrange : |day| ≤ 100000000)
    (h : IsoWeek day year week) :
    padStart 2 (weekNoText (thursday day * 86400000)) = digits 2 week
      ↔ fullYear year = year ∧ year ≠ -271821 := by
  obtain ⟨hyear, hweek⟩ := isoWeek_iff.1 h
  have hle := h.week_le
  have hthursday := abs_le.1 (thursday_range hrange)
  obtain ⟨hfrom, hto⟩ := year_eq_iff.1 hyear.symm
  have hfirst : newYear (-271821) = -100000109 := by decide
  have hsecond : newYear (-271820) = -99999744 := by decide
  have hlow : -271821 < year + 1 := newYear_strictMono.lt_iff_lt.1 (by omega)
  subst hyear
  by_cases hfull : fullYear (civilOfDay (thursday day)).year = (civilOfDay (thursday day)).year
  · by_cases hearly : (civilOfDay (thursday day)).year = -271821
    · have hnone : timeClip (newYear (-271821) * 86400000) = none := timeClip_none (by
        rw [hfirst]
        decide)
      rw [weekNoText_eq, hfull, hearly, hnone]
      refine ⟨fun heq => absurd (congrArg List.length heq) ?_, fun hread => absurd rfl hread.2⟩
      rw [length_digits, Option.elim_none]
      decide
    · have hsecond' := newYear_strictMono.monotone
        (show -271820 ≤ (civilOfDay (thursday day)).year by omega)
      rw [weekNoText_of_range (by rw [hfull, abs_le]; omega), hfull, ← hweek,
        padStart_week week hle]
      exact iff_of_true rfl ⟨rfl, hearly⟩
  · exact iff_of_false (weekNoText_of_short (by omega) hfull) fun hread => hfull hread.1

/-- The day whose week the key has. -/
def keyedDay (day : ℤ) : ℤ :=
  dayOfCivil ⟨fullYear (civilOfDay day).year, (civilOfDay day).month, (civilOfDay day).day⟩

theorem keyedDay_of_full {day : ℤ} (h : fullYear (civilOfDay day).year = (civilOfDay day).year) :
    keyedDay day = day := by
  rw [keyedDay, h, dayOfCivil_civilOfDay]

theorem keyedDay_of_short {day : ℤ} (hrange : |day| ≤ 100000000)
    (h : fullYear (civilOfDay day).year ≠ (civilOfDay day).year) :
    -25567 ≤ keyedDay day ∧ keyedDay day < 11000 := by
  obtain ⟨-, hm1, hm12, hd1, hd31⟩ := civilOfDay_bounds hrange
  obtain ⟨-, hlow, hhigh⟩ := fullYear_of_ne h
  obtain ⟨hfrom, hto⟩ :=
    @dayOfCivil_between (fullYear (civilOfDay day).year) _ _ hm1 hm12 hd1 hd31
  have hfirst := newYear_strictMono.monotone hlow
  have hlast := newYear_strictMono.monotone (add_le_add_left hhigh 1)
  have h1900 : newYear 1900 = -25567 := by decide
  have h2000 : newYear (1999 + 1) = 10957 := by decide
  unfold keyedDay
  omega

theorem keyedDay_range {day : ℤ} (h : |day| ≤ 100000000) : |keyedDay day| ≤ 100000000 := by
  by_cases hfull : fullYear (civilOfDay day).year = (civilOfDay day).year
  · rwa [keyedDay_of_full hfull]
  · have hshort := keyedDay_of_short h hfull
    rw [abs_le]
    omega

theorem utcIsoWeekKey_eq (date : TimeValue) :
    utcIsoWeekKey date.ms
      = String.ofList (intText (civilOfDay (thursday (keyedDay (utcDay date.ms)))).year
        ++ '-' :: 'W'
          :: padStart 2 (weekNoText (thursday (keyedDay (utcDay date.ms)) * 86400000))) := by
  have hrange := keyedDay_range (utcDay_range date)
  obtain ⟨d, hd, hms⟩ := timeClip_day hrange
  obtain ⟨d', hd', hms'⟩ := timeClip_day (thursday_range hrange)
  obtain ⟨hm1, hm12⟩ := month_between (utcDay_range date)
  have hdate : dateUTC (getUTCFullYear date.ms) (getUTCMonth date.ms) (getUTCDate date.ms) 0
      = some d := by
    unfold dateUTC getUTCFullYear getUTCMonth getUTCDate
    rw [makeDay_eq hm1 hm12, zero_mul, add_zero]
    exact hd
  unfold utcIsoWeekKey
  rw [hdate, Option.bind_some, hms, weekThursday_midnight hrange, hd']
  dsimp only
  rw [hms', getUTCFullYear, utcDay_midnight]

/-- The key is the one of ISO 8601 on the days that `Date.UTC` can read. -/
theorem utcIsoWeekKey_eq_iff (date : TimeValue) {year : ℤ} {week : ℕ}
    (h : IsoWeek (utcDay date.ms) year week) :
    utcIsoWeekKey date.ms = weekKey year week ↔ WeekReadable (utcDay date.ms) := by
  have hrange := utcDay_range date
  have hyear := (isoWeek_iff.1 h).1
  rw [utcIsoWeekKey_eq]
  by_cases hfull : fullYear (civilOfDay (utcDay date.ms)).year = (civilOfDay (utcDay date.ms)).year
  · have hweek := weekNoText_iff hrange h
    rw [keyedDay_of_full hfull, ← hyear, weekKey]
    unfold WeekReadable
    rw [← hyear]
    constructor
    · intro heq
      obtain ⟨-, hrest⟩ := intText_split (String.ofList_injective heq)
      exact ⟨hfull, hweek.1 (List.cons.inj hrest).2⟩
    · rintro ⟨-, hread⟩
      rw [hweek.2 hread]
  · refine iff_of_false (fun heq => ?_) fun hread => hfull hread.1
    obtain ⟨hsame, -⟩ := intText_split (String.ofList_injective heq)
    obtain ⟨hlast, -, -⟩ := fullYear_of_ne hfull
    -- the key has a year from 1899 on, and the week one of at most 100
    have hkeyed := (keyedDay_of_short hrange hfull).1
    have hlow : ¬(civilOfDay (thursday (keyedDay (utcDay date.ms)))).year < 1899 := by
      have h1899 : newYear 1899 = -25932 := by decide
      rw [year_lt_iff]
      unfold thursday monday
      omega
    have hhigh : (civilOfDay (thursday (utcDay date.ms))).year < 101 := by
      have h100 : newYear 100 = -683003 := by decide
      have h101 : newYear 101 = -682638 := by decide
      have hday := year_lt_iff.1 hlast
      rw [year_lt_iff]
      unfold thursday monday
      omega
    omega

/-- On a day that can be read the key has the week and the year of ISO 8601,
on another it has not; two days that can be read have one key if and only if
they are in one week from Monday to Sunday. -/
theorem utcIsoWeekKey_iff (date : TimeValue) :
    ((∃ year week, IsoWeek (utcDay date.ms) year week
          ∧ utcIsoWeekKey date.ms = weekKey year week)
        ↔ WeekReadable (utcDay date.ms))
      ∧ ∀ other : TimeValue, WeekReadable (utcDay date.ms) → WeekReadable (utcDay other.ms) →
        (utcIsoWeekKey date.ms = utcIsoWeekKey other.ms
          ↔ monday (utcDay date.ms) = monday (utcDay other.ms)) := by
  constructor
  · constructor
    · rintro ⟨year, week, hweek, hkey⟩
      exact (utcIsoWeekKey_eq_iff date hweek).1 hkey
    · intro hread
      obtain ⟨year, week, hweek⟩ := exists_isoWeek (utcDay date.ms)
      exact ⟨year, week, hweek, (utcIsoWeekKey_eq_iff date hweek).2 hread⟩
  · intro other hread hread'
    obtain ⟨year, week, hweek⟩ := exists_isoWeek (utcDay date.ms)
    obtain ⟨year', week', hweek'⟩ := exists_isoWeek (utcDay other.ms)
    rw [(utcIsoWeekKey_eq_iff date hweek).2 hread, (utcIsoWeekKey_eq_iff other hweek').2 hread',
      weekKey_inj hweek hweek', hweek.same_iff hweek']

/-- The end of 2026 and the start of 2027 are in one week. -/
theorem utcIsoWeekKey_iff_new_year :
    utcIsoWeekKey 1798675200000 = utcIsoWeekKey 1798761600000 :=
  ((utcIsoWeekKey_iff ⟨1798675200000, by decide⟩).2 ⟨1798761600000, by decide⟩
    (by unfold WeekReadable; decide) (by unfold WeekReadable; decide)).2 (by decide)

/-- The fifteenth of June of the year 50 gets no week of that year. -/
theorem utcIsoWeekKey_short_year :
    ¬∃ year week, IsoWeek (utcDay (-60575040000000)) year week
      ∧ utcIsoWeekKey (-60575040000000) = weekKey year week := by
  rintro ⟨year, week, hweek, hkey⟩
  have hread := (utcIsoWeekKey_eq_iff ⟨-60575040000000, by decide⟩ hweek).1 hkey
  revert hread
  unfold WeekReadable
  decide

end BlockMiner.MiniPassPeriod
