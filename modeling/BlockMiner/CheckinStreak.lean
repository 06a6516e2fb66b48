import Mathlib.Data.Finset.Card
import Mathlib.Order.Bounds.Basic
import BlockMiner.Calendar
import BlockMiner.Checkin
import BlockMiner.JsonSyntax

/-!
# Streaks of check-ins

`utils/checkinDate.js` and `utils/checkinStreak.js`. A check-in keeps the day
in America/Sao_Paulo on which it was made, as a text; the days before it are
found by reading the text, going to noon there and back by so many days, and
writing the day of that instant.

The offset of the time zone may change at any instant, and is from four hours
to one hour behind UTC (`SaoPaulo`). So 15:00 UTC is in the same day there
(`addDays_dateKey`), and going back reaches every calendar day
(`computeCheckinStreak_eq`).

Instants are those of a clock in the year 101 or later: `Date.UTC` reads a
year before 100 as one of the twentieth century. The format of a day has the
year in its era, without zeros in front.
-/

namespace BlockMiner.CheckinStreak

open IsoDate

/-! ## Days in the time zone -/

/-- America/Sao_Paulo: what is added to UTC at an instant. -/
structure SaoPaulo where
  offset : ℤ → ℤ
  low : ∀ ms, -4 * 3600000 ≤ offset ms
  high : ∀ ms, offset ms ≤ -1 * 3600000

structure Instant extends TimeValue where
  late : newYear 101 * 86400000 ≤ ms

/-- The year of the Christian era, or before it. -/
def eraYear (year : ℤ) : ℕ := (if year ≤ 0 then 1 - year else year).natAbs

def dateKey (day : ℤ) : String :=
  let civil := civilOfDay day
  String.ofList (Nat.toDigits 10 (eraYear civil.year)
    ++ '-' :: digits 2 civil.month ++ '-' :: digits 2 civil.day)

/-- `split("-").map(Number)` -/
def readKey (key : String) : List JsNumber :=
  (key.toList.splitOn '-').map fun part => stringToNumber (String.ofList part)

/-- `M - 1` -/
def pred : JsNumber → JsNumber
  | .finite q => .finite (q - 1)
  | n => n

/-- `ToIntegerOrInfinity`; `none` where `Date.UTC` answers `NaN`. -/
def toInteger : JsNumber → Option ℤ
  | .finite q => some (q.num.tdiv q.den)
  | _ => none

section Zone

variable (zone : SaoPaulo)

/-- The day there at an instant. -/
def localDay (ms : ℤ) : ℤ := (ms + zone.offset ms) / 86400000

def getBrazilCheckinDateKey (date : TimeValue) : String := dateKey (localDay zone date.ms)

/-- The text of an invalid date is an exception. -/
def addDaysToBrazilDateKey (key : String) (deltaDays : ℤ) : Option String := do
  let parts := readKey key
  let year ← toInteger (parts.getD 0 .nan)
  let month ← toInteger (pred (parts.getD 1 .nan))
  let day ← toInteger (parts.getD 2 .nan)
  let noonBrUtc ← dateUTC year month day 15
  let shifted ← timeClip (noonBrUtc.ms + deltaDays * 86400000)
  return getBrazilCheckinDateKey zone shifted

/-! ## The streak -/

/-- A row of `daily_checkins`, with the instant at which it was made. -/
structure CheckinRow where
  userId : ℕ
  status : Checkin.Status
  checkinDate : String
  madeAt : Instant
  dated : checkinDate = getBrazilCheckinDateKey zone madeAt.toTimeValue

def confirmedOf (rows : List (CheckinRow zone)) (userId : ℕ) : List (CheckinRow zone) :=
  rows.filter fun r => r.userId = userId && r.status = .confirmed

/-- The loop of `computeCheckinStreak`, with a bound on its rounds. -/
def countBack (dates : List String) : ℕ → String → ℕ → Option ℕ
  | 0, _, _ => none
  | rounds + 1, cursor, streak =>
      if cursor ∈ dates then
        (addDaysToBrazilDateKey zone cursor (-1)).bind fun previous =>
          countBack dates rounds previous (streak + 1)
      else some streak

/-- An exception is `none`. -/
def computeCheckinStreak (rows : List (CheckinRow zone)) (userId : ℕ) (now : Instant) :
    Option ℕ :=
  let dates := (confirmedOf zone rows userId).map fun r => r.checkinDate
  let today := getBrazilCheckinDateKey zone now.toTimeValue
  if today ∈ dates then countBack zone dates (dates.length + 1) today 0
  else
    (addDaysToBrazilDateKey zone today (-1)).bind fun cursor =>
      if cursor ∉ dates then some 0 else countBack zone dates (dates.length + 1) cursor 0

end Zone

/-! ## What a key tells -/

theorem not_space_of_isDigit {c : Char} (h : c.isDigit = true) :
    isStrWhiteSpaceChar c = false := by
  obtain ⟨hlow, hhigh⟩ : 48 ≤ c.toNat ∧ c.toNat ≤ 57 := by
    simpa [Char.isDigit, UInt32.le_iff_toNat_le] using h
  unfold isStrWhiteSpaceChar
  simp only [Bool.or_eq_false_iff, Bool.and_eq_false_iff, decide_eq_false_iff_not]
  omega

theorem trimStr_digits {ds : List Char} (hds : ∀ c ∈ ds, c.isDigit = true) : trimStr ds = ds := by
  have hdrop : ∀ cs : List Char, (∀ c ∈ cs, c.isDigit = true) →
      cs.dropWhile isStrWhiteSpaceChar = cs := by
    intro cs hcs
    cases cs with
    | nil => rfl
    | cons c cs =>
        rw [List.dropWhile_cons_of_neg]
        rw [not_space_of_isDigit (hcs c (List.mem_cons_self ..))]
        exact Bool.false_ne_true
  rw [trimStr, hdrop ds hds, hdrop ds.reverse fun c hc => hds c (List.mem_reverse.1 hc),
    List.reverse_reverse]

theorem unsignedDecimalLiteral_digits {ds : List Char} (hne : ds ≠ [])
    (hds : ∀ c ∈ ds, c.isDigit = true) :
    unsignedDecimalLiteral ds = .finite (Nat.ofDigitChars 10 ds 0 : ℕ) := by
  have hinfinity : ds ≠ "Infinity".toList := by
    rintro rfl
    exact absurd (hds 'I' (by decide)) (by decide)
  have hread := JsonSyntax.readDigits_append hds 0 0 []
  rw [List.append_nil] at hread
  have hpos := List.length_pos_of_ne_nil hne
  unfold unsignedDecimalLiteral
  rw [if_neg hinfinity, hread]
  simp [readDigits, exponentPart]
  omega

theorem stringToNumber_digits {ds : List Char} (hne : ds ≠ []) (hds : ∀ c ∈ ds, c.isDigit = true) :
    stringToNumber (String.ofList ds) = .finite (Nat.ofDigitChars 10 ds 0 : ℕ) := by
  unfold stringToNumber
  rw [String.toList_ofList, trimStr_digits hds]
  split
  · exact absurd rfl hne
  all_goals first
    | exact absurd (hds _ (List.mem_cons_of_mem _ (List.mem_cons_self ..))) (by decide)
    | exact absurd (hds _ (List.mem_cons_self ..)) (by decide)
    | exact unsignedDecimalLiteral_digits hne hds

theorem digitChar_isDigit : ∀ d < 10, (Nat.digitChar d).isDigit = true := by
  decide

theorem twoDigits_value : ∀ n < 100, Nat.ofDigitChars 10 (digits 2 n) 0 = n := by
  decide +kernel

theorem twoDigits (n : ℕ) (hn : n < 100) : (∀ c ∈ digits 2 n, c.isDigit = true)
    ∧ digits 2 n ≠ [] ∧ Nat.ofDigitChars 10 (digits 2 n) 0 = n := by
  refine ⟨fun c hc => ?_, List.cons_ne_nil _ _, twoDigits_value n hn⟩
  rcases List.mem_cons.1 hc with rfl | hc
  · refine digitChar_isDigit _ ?_
    rw [pow_one]
    omega
  · obtain rfl := List.mem_singleton.1 hc
    refine digitChar_isDigit _ ?_
    rw [pow_one, pow_zero, Nat.div_one]
    omega

theorem dash_not_mem {ds : List Char} (hds : ∀ c ∈ ds, c.isDigit = true) : '-' ∉ ds := by
  intro hmem
  exact absurd (hds '-' hmem) (by decide)

theorem readKey_dateKey {day : ℤ} (hrange : |day| ≤ 100000000) :
    readKey (dateKey day) = [.finite (eraYear (civilOfDay day).year : ℕ),
      .finite ((civilOfDay day).month : ℕ), .finite ((civilOfDay day).day : ℕ)] := by
  obtain ⟨-, -, hm12, -, hd31⟩ := civilOfDay_bounds hrange
  obtain ⟨hmonth, hmonthNil, hmonthValue⟩ := twoDigits (civilOfDay day).month (by omega)
  obtain ⟨hday, hdayNil, hdayValue⟩ := twoDigits (civilOfDay day).day (by omega)
  have hyear : ∀ c ∈ Nat.toDigits 10 (eraYear (civilOfDay day).year), c.isDigit = true :=
    fun c hc => Nat.isDigit_of_mem_toDigits (by decide) (by decide) hc
  unfold readKey dateKey
  rw [String.toList_ofList, List.append_assoc, List.cons_append,
    List.splitOn_append_cons_self_of_not_mem (dash_not_mem hyear),
    List.splitOn_append_cons_self_of_not_mem (dash_not_mem hmonth),
    List.splitOn_eq_singleton (dash_not_mem hday), List.map_cons, List.map_cons, List.map_singleton,
    stringToNumber_digits Nat.toDigits_ne_nil hyear,
    stringToNumber_digits hmonthNil hmonth, stringToNumber_digits hdayNil hday, hmonthValue,
    hdayValue, Nat.ofDigitChars_ten_toDigits]

/-- The days of the Christian era have keys of their own. -/
theorem dateKey_inj {day day' : ℤ} (hrange : |day| ≤ 100000000) (hrange' : |day'| ≤ 100000000)
    (hyear : 1 ≤ (civilOfDay day).year) (hyear' : 1 ≤ (civilOfDay day').year) :
    dateKey day = dateKey day' ↔ day = day' := by
  constructor
  · intro heq
    have hread := congrArg readKey heq
    rw [readKey_dateKey hrange, readKey_dateKey hrange'] at hread
    simp only [List.cons.injEq, JsNumber.finite.injEq, Nat.cast_inj, and_true] at hread
    obtain ⟨hera, hmonth, hday⟩ := hread
    unfold eraYear at hera
    rw [if_neg (by omega), if_neg (by omega)] at hera
    have hsame : (civilOfDay day).year = (civilOfDay day').year := by omega
    rw [← dayOfCivil_civilOfDay day, ← dayOfCivil_civilOfDay day']
    unfold dayOfCivil
    rw [hsame, hmonth, hday]
  · rintro rfl
    rfl

/-! ## One day back -/

theorem toInteger_intCast (n : ℤ) : toInteger (.finite n) = some n := by
  simp [toInteger]

/-- 15:00 UTC is in the same day in the time zone. -/
theorem localDay_noon (zone : SaoPaulo) (day : ℤ) :
    localDay zone (day * 86400000 + 15 * 3600000) = day := by
  have hlow := zone.low (day * 86400000 + 15 * 3600000)
  have hhigh := zone.high (day * 86400000 + 15 * 3600000)
  unfold localDay
  omega

theorem addDays_dateKey (zone : SaoPaulo) {day delta : ℤ} (hyear : 100 ≤ (civilOfDay day).year)
    (hrange : |day| < 100000000) (hshifted : |day + delta| < 100000000) :
    addDaysToBrazilDateKey zone (dateKey day) delta = some (dateKey (day + delta)) := by
  have hle := hrange.le
  obtain ⟨-, hm1, hm12, -, -⟩ := civilOfDay_bounds hle
  have hera : ((eraYear (civilOfDay day).year : ℕ) : ℤ) = (civilOfDay day).year := by
    unfold eraYear
    rw [if_neg (by omega)]
    omega
  have hnoon : dateUTC (civilOfDay day).year ((civilOfDay day).month - 1) (civilOfDay day).day 15
      = timeClip (day * 86400000 + 15 * 3600000) := by
    rw [dateUTC, fullYear_of_le hyear, makeDay_eq hm1 hm12, dayOfCivil_civilOfDay]
  obtain ⟨noon, hclip, hms⟩ := @timeClip_of_range (day * 86400000 + 15 * 3600000) (by
    rw [abs_lt] at hrange
    rw [abs_le]
    omega)
  have hto : noon.ms + delta * 86400000 = (day + delta) * 86400000 + 15 * 3600000 := by
    rw [hms]
    ring
  obtain ⟨shifted, hclip', hms'⟩ :=
    @timeClip_of_range ((day + delta) * 86400000 + 15 * 3600000) (by
      rw [abs_lt] at hshifted
      rw [abs_le]
      omega)
  have hnat : ∀ n : ℕ, toInteger (.finite n) = some (n : ℤ) := fun n => by
    rw [← toInteger_intCast, Int.cast_natCast]
  have hpred : ∀ n : ℕ, toInteger (pred (.finite n)) = some ((n : ℤ) - 1) := fun n => by
    rw [← toInteger_intCast, pred, Int.cast_sub, Int.cast_natCast, Int.cast_one]
  unfold addDaysToBrazilDateKey
  simp only [readKey_dateKey hle, List.getD_cons_zero, List.getD_cons_succ, hnat, hpred, hera,
    Option.bind_eq_bind, Option.bind_some]
  rw [hnoon, hclip, Option.bind_some, hto, hclip', Option.bind_some, getBrazilCheckinDateKey, hms',
    localDay_noon]
  rfl

/-! ## Runs of days -/

/-- So many days of the set, one after the other, end at `last`, and no more. -/
def LongestRun (days : Set ℤ) (last : ℤ) (n : ℕ) : Prop :=
  IsGreatest {n : ℕ | ∀ k < n, last - k ∈ days} n

theorem longestRun_iff {days : Set ℤ} {last : ℤ} {n : ℕ} :
    LongestRun days last n ↔ (∀ k < n, last - k ∈ days) ∧ last - n ∉ days := by
  constructor
  · rintro ⟨hrun, hmost⟩
    refine ⟨hrun, fun hmore => ?_⟩
    have hlonger : n + 1 ≤ n := hmost fun k hk => by
      rcases Nat.lt_succ_iff_lt_or_eq.1 hk with hlt | rfl
      · exact hrun k hlt
      · exact hmore
    omega
  · rintro ⟨hrun, hend⟩
    refine ⟨hrun, fun m hm => ?_⟩
    by_contra hlt
    exact hend (hm n (not_le.1 hlt))

/-- A finite set has no longer run than days. -/
theorem exists_longestRun (days : Finset ℤ) (last : ℤ) :
    ∃ n ≤ days.card, LongestRun days last n := by
  have hex : ∃ n ≤ days.card, last - (n : ℕ) ∉ days := by
    by_contra hall
    push Not at hall
    have hinj : Function.Injective fun k : ℕ => last - (k : ℤ) := fun k k' heq => by
      dsimp only at heq
      omega
    have hcard := Finset.card_le_card_of_injOn (s := Finset.range (days.card + 1)) (t := days)
      (fun k : ℕ => last - (k : ℤ)) (fun k hk => hall k (by
        have hlt := Finset.mem_range.1 (Finset.mem_coe.1 hk)
        omega)) hinj.injOn
    rw [Finset.card_range] at hcard
    omega
  classical
  obtain ⟨hle, hend⟩ := Nat.find_spec hex
  refine ⟨_, hle, longestRun_iff.2 ⟨fun k hk => ?_, hend⟩⟩
  by_contra hmissing
  exact Nat.find_min hex hk ⟨by omega, hmissing⟩

theorem LongestRun.previous {days : Set ℤ} {last : ℤ} {n : ℕ} (h : LongestRun days last (n + 1)) :
    last ∈ days ∧ LongestRun days (last - 1) n := by
  obtain ⟨hrun, hend⟩ := longestRun_iff.1 h
  have hback : ∀ k : ℕ, last - ((k + 1 : ℕ) : ℤ) = last - 1 - k := fun k => by
    omega
  refine ⟨?_, longestRun_iff.2 ⟨fun k hk => ?_, ?_⟩⟩
  · have hfirst := hrun 0 (by omega)
    rwa [Nat.cast_zero, sub_zero] at hfirst
  · rw [← hback]
    exact hrun (k + 1) (by omega)
  · rwa [← hback]

/-! ## The streak counts a run -/

/-- The days of the confirmed check-ins of a user. -/
def checkinDays (zone : SaoPaulo) (rows : List (CheckinRow zone)) (userId : ℕ) : Finset ℤ :=
  ((confirmedOf zone rows userId).map fun r => localDay zone r.madeAt.ms).toFinset

/-- A day that the clock can show. -/
def ClockDay (day : ℤ) : Prop := newYear 100 ≤ day ∧ day < 100000000

theorem localDay_clockDay (zone : SaoPaulo) (now : Instant) : ClockDay (localDay zone now.ms) := by
  have hlow := zone.low now.ms
  have hhigh := zone.high now.ms
  have hrange := abs_le.1 now.range
  have hlate := now.late
  have h100 : newYear 100 = -683003 := by decide
  have h101 : newYear 101 = -682638 := by decide
  unfold ClockDay localDay
  omega

theorem ClockDay.range {day : ℤ} (h : ClockDay day) :
    |day| < 100000000 ∧ |day - 1| < 100000000 := by
  obtain ⟨hlow, hhigh⟩ := h
  have h100 : newYear 100 = -683003 := by decide
  rw [abs_lt, abs_lt]
  omega

theorem ClockDay.year {day : ℤ} (h : ClockDay day) :
    100 ≤ (civilOfDay day).year ∧ 1 ≤ (civilOfDay (day - 1)).year := by
  have h1 : newYear 1 = -719162 := by decide
  have h100 : newYear 100 = -683003 := by decide
  have hlow := h.1
  have hthis := (@year_lt_iff day 100).1
  have hbefore := (@year_lt_iff (day - 1) 1).1
  omega

theorem addDays_back (zone : SaoPaulo) {day : ℤ} (h : ClockDay day) :
    addDaysToBrazilDateKey zone (dateKey day) (-1) = some (dateKey (day - 1)) :=
  addDays_dateKey zone h.year.1 h.range.1 h.range.2

section Rows

variable {zone : SaoPaulo} {rows : List (CheckinRow zone)} {userId : ℕ}

theorem checkinDays_clockDay {day : ℤ} (h : day ∈ checkinDays zone rows userId) : ClockDay day := by
  obtain ⟨r, -, rfl⟩ := List.mem_map.1 (List.mem_toFinset.1 h)
  exact localDay_clockDay zone r.madeAt

/-- A date is found if and only if its day is one of a check-in. -/
theorem dateKey_mem_iff {day : ℤ} (hrange : |day| < 100000000)
    (hyear : 1 ≤ (civilOfDay day).year) :
    dateKey day ∈ (confirmedOf zone rows userId).map (fun r => r.checkinDate)
      ↔ day ∈ checkinDays zone rows userId := by
  unfold checkinDays
  rw [List.mem_map, List.mem_toFinset, List.mem_map]
  refine exists_congr fun r => and_congr_right fun _ => ?_
  have hmade := localDay_clockDay zone r.madeAt
  have hmadeYear := hmade.year.1
  rw [r.dated, getBrazilCheckinDateKey]
  exact dateKey_inj hmade.range.1.le hrange.le (by omega) hyear

theorem countBack_eq {last : ℤ} {n : ℕ} (hrun : LongestRun (checkinDays zone rows userId) last n)
    (hrange : |last| < 100000000) (hyear : 1 ≤ (civilOfDay last).year) {rounds : ℕ}
    (hrounds : n < rounds) (streak : ℕ) :
    countBack zone ((confirmedOf zone rows userId).map fun r => r.checkinDate) rounds
      (dateKey last) streak = some (streak + n) := by
  induction n generalizing last rounds streak with
  | zero =>
    obtain ⟨rounds, rfl⟩ := Nat.exists_eq_add_of_lt hrounds
    have hend := (longestRun_iff.1 hrun).2
    rw [Nat.cast_zero, sub_zero, Finset.mem_coe] at hend
    rw [countBack, if_neg (mt (dateKey_mem_iff hrange hyear).1 hend), add_zero]
  | succ n ih =>
    obtain ⟨rounds, rfl⟩ := Nat.exists_eq_add_of_lt hrounds
    obtain ⟨hmem, hbefore⟩ := hrun.previous
    have hclock := checkinDays_clockDay (Finset.mem_coe.1 hmem)
    rw [countBack, if_pos ((dateKey_mem_iff hrange hyear).2 (Finset.mem_coe.1 hmem)),
      addDays_back zone hclock, Option.bind_some,
      ih hbefore hclock.range.2 hclock.year.2 (by omega), add_assoc, add_comm 1 n]

/-- **Streak.** It is the longest run of days with check-ins up to today, or up
to yesterday if there is none today. -/
theorem computeCheckinStreak_eq (now : Instant) :
    ∃ n, computeCheckinStreak zone rows userId now = some n
      ∧ LongestRun (checkinDays zone rows userId)
        (if localDay zone now.ms ∈ checkinDays zone rows userId then localDay zone now.ms
          else localDay zone now.ms - 1) n := by
  have hclock := localDay_clockDay zone now
  have hyear : 1 ≤ (civilOfDay (localDay zone now.ms)).year := by
    have hlow := hclock.year.1
    omega
  have htoday := @dateKey_mem_iff zone rows userId _ hclock.range.1 hyear
  have hyesterday := @dateKey_mem_iff zone rows userId _ hclock.range.2 hclock.year.2
  have hrounds : ∀ n ≤ (checkinDays zone rows userId).card,
      n < ((confirmedOf zone rows userId).map fun r => r.checkinDate).length + 1 := by
    intro n hn
    have hcard := List.toFinset_card_le
      ((confirmedOf zone rows userId).map fun r => localDay zone r.madeAt.ms)
    rw [List.length_map] at hcard ⊢
    exact Nat.lt_succ_of_le (hn.trans hcard)
  unfold computeCheckinStreak getBrazilCheckinDateKey
  dsimp only
  by_cases hmem : localDay zone now.ms ∈ checkinDays zone rows userId
  · obtain ⟨n, hle, hrun⟩ := exists_longestRun (checkinDays zone rows userId) (localDay zone now.ms)
    refine ⟨n, ?_, by rwa [if_pos hmem]⟩
    rw [if_pos (htoday.2 hmem), countBack_eq hrun hclock.range.1 hyear (hrounds n hle), zero_add]
  · obtain ⟨n, hle, hrun⟩ :=
      exists_longestRun (checkinDays zone rows userId) (localDay zone now.ms - 1)
    refine ⟨n, ?_, by rwa [if_neg hmem]⟩
    rw [if_neg (mt htoday.1 hmem), addDays_back zone hclock, Option.bind_some,
      countBack_eq hrun hclock.range.2 hclock.year.2 (hrounds n hle), zero_add]
    split_ifs with hbefore
    · rfl
    · have hend : localDay zone now.ms - 1 ∉ checkinDays zone rows userId := mt hyesterday.2 hbefore
      cases n with
      | zero => rfl
      | succ n => exact absurd (Finset.mem_coe.1 hrun.previous.1) hend

end Rows

end BlockMiner.CheckinStreak
