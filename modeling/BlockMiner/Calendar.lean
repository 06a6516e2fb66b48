import Mathlib.Order.SuccPred.IntervalSucc
import BlockMiner.IsoDate

/-!
# Years and weeks

Days are counted since 1970-01-01, a Thursday. `newYear` is the first day of a
calendar year; a day is in the year whose days it is among (`year_eq_iff`).

`Date.UTC` reads a year from 0 to 99 as one of the twentieth century
(`fullYear`). Its months are counted from zero.

A week runs from Monday to Sunday. The weeks of ISO 8601 are numbered within
years, and the first of a year is the one with the fourth of January
(`IsoWeek`). A week is in the year of its Thursday (`isoWeek_iff`).
-/

namespace BlockMiner.IsoDate

/-! ## Years -/

/-- The first of January. -/
def newYear (year : ℤ) : ℤ := dayOfCivil ⟨year, 1, 1⟩

theorem newYear_eq (year : ℤ) : newYear year = yearDays (year - 1) + 306 + EPOCH := by
  have hmarch : monthDays (marchOf 1) = 306 := rfl
  have hmonth : (1 : ℕ) ≤ 2 := by omega
  rw [newYear, dayOfCivil, if_pos hmonth, hmarch]
  dsimp only
  omega

theorem yearDays_succ (year : ℤ) :
    yearDays year + 365 ≤ yearDays (year + 1) ∧ yearDays (year + 1) ≤ yearDays year + 366 := by
  unfold yearDays
  omega

theorem newYear_succ (year : ℤ) :
    newYear year + 365 ≤ newYear (year + 1) ∧ newYear (year + 1) ≤ newYear year + 366 := by
  have hyear := yearDays_succ (year - 1)
  rw [sub_add_cancel] at hyear
  rw [newYear_eq, newYear_eq, add_sub_cancel_right]
  omega

theorem newYear_strictMono : StrictMono newYear := by
  refine strictMono_int_of_lt_succ fun year => ?_
  have hyear := newYear_succ year
  omega

/-- A day is in the year that `civilOfDay` gives it. -/
theorem newYear_year (day : ℤ) :
    newYear (civilOfDay day).year ≤ day ∧ day < newYear ((civilOfDay day).year + 1) := by
  obtain ⟨cycle, century, group, year, dayOfYear, hc, hg, hy, hd, hday, hcivil⟩ :=
    civilOfDay_spec day
  have hdays : yearDays (400 * cycle + 100 * century + 4 * group + year)
      = 146097 * cycle + 36524 * century + 1461 * group + 365 * year := yearDays_eq hc hg hy
  rw [newYear_eq, newYear_eq, hcivil]
  dsimp only
  generalize hyears : 400 * cycle + 100 * century + 4 * group + year = years at hdays ⊢
  have hbefore := yearDays_succ (years - 1)
  have hafter := yearDays_succ years
  rw [sub_add_cancel] at hbefore
  -- January and February end the year that starts in March
  by_cases hmarch : (5 * dayOfYear + 2) / 153 < 10
  · rw [if_pos hmarch, add_zero, add_sub_cancel_right]
    omega
  · rw [if_neg hmarch, add_sub_cancel_right, add_sub_cancel_right]
    omega

theorem year_eq_iff {day year : ℤ} :
    (civilOfDay day).year = year ↔ newYear year ≤ day ∧ day < newYear (year + 1) := by
  constructor
  · rintro rfl
    exact newYear_year day
  · rintro ⟨hfrom, hto⟩
    obtain ⟨hfrom', hto'⟩ := newYear_year day
    have h1 := newYear_strictMono.lt_iff_lt.1 (hfrom'.trans_lt hto)
    have h2 := newYear_strictMono.lt_iff_lt.1 (hfrom.trans_lt hto')
    omega

theorem year_lt_iff {day year : ℤ} : (civilOfDay day).year < year ↔ day < newYear year := by
  obtain ⟨hfrom, hto⟩ := newYear_year day
  constructor
  · intro hlt
    exact hto.trans_le (newYear_strictMono.monotone (by omega))
  · intro hlt
    exact newYear_strictMono.lt_iff_lt.1 (hfrom.trans_lt hlt)

theorem dayOfCivil_between {year : ℤ} {month day : ℕ} (hm1 : 1 ≤ month) (hm12 : month ≤ 12)
    (hd1 : 1 ≤ day) (hd31 : day ≤ 31) :
    newYear year ≤ dayOfCivil ⟨year, month, day⟩
      ∧ dayOfCivil ⟨year, month, day⟩ < newYear (year + 1) + 31 := by
  have hyear := yearDays_succ (year - 1)
  rw [sub_add_cancel] at hyear
  rw [newYear_eq, newYear_eq, add_sub_cancel_right]
  unfold dayOfCivil monthDays marchOf
  dsimp only
  split_ifs <;> omega

/-- Two dates are the same if their days are. -/
theorem civilOfDay_injective : Function.Injective civilOfDay :=
  Function.LeftInverse.injective dayOfCivil_civilOfDay

/-! ## `Date.UTC` -/

/-- The year that `Date.UTC` makes of its argument. -/
def fullYear (year : ℤ) : ℤ := if 0 ≤ year ∧ year ≤ 99 then 1900 + year else year

/-- `MakeDay`: a month or a day past its end counts on. -/
def makeDay (year month date : ℤ) : ℤ :=
  dayOfCivil ⟨year + month / 12, (month % 12).toNat + 1, 1⟩ + date - 1

def dateUTC (year month date hours : ℤ) : Option TimeValue :=
  timeClip (makeDay (fullYear year) month date * 86400000 + hours * 3600000)

theorem fullYear_of_ne {year : ℤ} (h : fullYear year ≠ year) :
    year < 100 ∧ 1900 ≤ fullYear year ∧ fullYear year ≤ 1999 := by
  unfold fullYear at *
  split_ifs at * <;> omega

theorem fullYear_of_le {year : ℤ} (h : 100 ≤ year) : fullYear year = year :=
  if_neg (by omega)

theorem makeDay_eq {month : ℕ} (hm1 : 1 ≤ month) (hm12 : month ≤ 12) (year : ℤ) (day : ℕ) :
    makeDay year (month - 1) day = dayOfCivil ⟨year, month, day⟩ := by
  have hyear : year + ((month : ℤ) - 1) / 12 = year := by omega
  have hmonth : (((month : ℤ) - 1) % 12).toNat + 1 = month := by omega
  rw [makeDay, hyear, hmonth]
  unfold dayOfCivil
  dsimp only
  omega

theorem makeDay_add (year month date shift : ℤ) :
    makeDay year month (date + shift) = makeDay year month date + shift := by
  unfold makeDay
  omega

theorem timeClip_of_range {ms : ℤ} (h : |ms| ≤ 8640000000000000) :
    ∃ date, timeClip ms = some date ∧ date.ms = ms :=
  ⟨⟨ms, h⟩, dif_pos h, rfl⟩

theorem timeClip_day {day : ℤ} (h : |day| ≤ 100000000) :
    ∃ date, timeClip (day * 86400000) = some date ∧ date.ms = day * 86400000 := by
  refine timeClip_of_range ?_
  rw [abs_le] at *
  omega

theorem timeClip_none {day : ℤ} (h : 100000000 < |day|) : timeClip (day * 86400000) = none := by
  refine dif_neg ?_
  rw [lt_abs] at h
  rw [abs_le]
  omega

/-! ## Weeks -/

/-- The Monday of the week of a day. -/
def monday (day : ℤ) : ℤ := day - (day + 3) % 7

def thursday (day : ℤ) : ℤ := monday day + 3

/-- The Monday of the week with the fourth of January. -/
def weekOne (year : ℤ) : ℤ := monday (dayOfCivil ⟨year, 1, 4⟩)

/-- A day is in this week of this year of ISO 8601. -/
structure IsoWeek (day year : ℤ) (week : ℕ) : Prop where
  start : monday day = weekOne year + 7 * (week - 1)
  positive : 1 ≤ week
  before : monday day < weekOne (year + 1)

theorem weekOne_eq (year : ℤ) : weekOne year = monday (newYear year + 3) := by
  have hfourth : dayOfCivil ⟨year, 1, 4⟩ = newYear year + 3 := by
    unfold newYear dayOfCivil
    dsimp only
    omega
  rw [weekOne, hfourth]

theorem weekOne_le_iff (day year : ℤ) :
    weekOne year ≤ monday day ↔ newYear year ≤ thursday day := by
  rw [weekOne_eq]
  unfold thursday monday
  omega

/-- A week is in the year of its Thursday. -/
theorem isoWeek_iff {day year : ℤ} {week : ℕ} :
    IsoWeek day year week ↔ year = (civilOfDay (thursday day)).year
      ∧ (week : ℤ) = (thursday day - newYear year) / 7 + 1 := by
  have hthis := weekOne_le_iff day year
  have hnext := weekOne_le_iff day (year + 1)
  constructor
  · rintro ⟨hstart, hpositive, hbefore⟩
    have hyear := year_eq_iff.2 ⟨hthis.1 (by omega), not_le.1 (mt hnext.2 (by omega))⟩
    refine ⟨hyear.symm, ?_⟩
    rw [weekOne_eq] at hstart
    unfold thursday monday at *
    omega
  · rintro ⟨hyear, hweek⟩
    obtain ⟨hfrom, hto⟩ := year_eq_iff.1 hyear.symm
    refine ⟨?_, by omega, by omega⟩
    rw [weekOne_eq]
    unfold thursday monday at *
    omega

theorem exists_isoWeek (day : ℤ) : ∃ year week, IsoWeek day year week := by
  obtain ⟨hfrom, -⟩ := newYear_year (thursday day)
  refine ⟨_, ((thursday day - newYear (civilOfDay (thursday day)).year) / 7 + 1).toNat,
    isoWeek_iff.2 ⟨rfl, ?_⟩⟩
  omega

theorem IsoWeek.unique {day year year' : ℤ} {week week' : ℕ} (h : IsoWeek day year week)
    (h' : IsoWeek day year' week') : year = year' ∧ week = week' := by
  obtain ⟨hyear, hweek⟩ := isoWeek_iff.1 h
  obtain ⟨hyear', hweek'⟩ := isoWeek_iff.1 h'
  obtain rfl := hyear.trans hyear'.symm
  exact ⟨rfl, by omega⟩

theorem IsoWeek.week_le {day year : ℤ} {week : ℕ} (h : IsoWeek day year week) : week ≤ 53 := by
  obtain ⟨hyear, hweek⟩ := isoWeek_iff.1 h
  obtain ⟨-, hto⟩ := year_eq_iff.1 hyear.symm
  have hlength := newYear_succ year
  omega

/-- Two days have the same week and year if and only if they are in the same
week from Monday to Sunday. -/
theorem IsoWeek.same_iff {day day' year year' : ℤ} {week week' : ℕ} (h : IsoWeek day year week)
    (h' : IsoWeek day' year' week') : (year = year' ∧ week = week') ↔ monday day = monday day' := by
  constructor
  · rintro ⟨rfl, rfl⟩
    exact h.start.trans h'.start.symm
  · intro hsame
    exact IsoWeek.unique h ⟨hsame ▸ h'.start, h'.positive, hsame ▸ h'.before⟩

end BlockMiner.IsoDate
