import Mathlib

/-!
# The next reset of the daily tasks

`services/dailyTasks/dailyTaskPeriod.js`: the instant at which the day changes
is looked for by bisection. Instants are milliseconds. The function that gives
an instant its day key is a parameter.

`DayKeys` is what the search needs of it: an instant between two of one day is
of that day too (`Set.OrdConnected`). So a day is an interval, and the keys of
two days differ (`dayKeys_of_changes`).

The sum of two instants is a double. It is at most `2 ^ 54` in size, where the
even numbers are doubles and the odd ones past `2 ^ 53` are not.
-/

namespace BlockMiner.DailyTaskPeriod

variable {κ : Type}

/-! ## The search -/

/-- The double closest to the sum of two instants; of two that are, the one
with the even mantissa. -/
def sum (lo hi : ℤ) : ℤ :=
  if |lo + hi| ≤ 2 ^ 53 ∨ (lo + hi) % 2 = 0 then lo + hi
  else if (lo + hi + 1) % 4 = 0 then lo + hi + 1
  else lo + hi - 1

def midpoint (lo hi : ℤ) : ℤ := sum lo hi / 2

/-- Rounding the sum up or down leaves the midpoint inside. -/
theorem midpoint_between {lo hi : ℤ} (h : 2 < hi - lo) :
    lo < midpoint lo hi ∧ midpoint lo hi < hi := by
  unfold midpoint sum
  split_ifs <;> omega

variable [DecidableEq κ]

section Search

variable (getBrazilCheckinDateKey : ℤ → κ)

/-- The loop of `getNextDailyTaskResetAt`. -/
def searchReset (today : κ) (lo hi : ℤ) : ℤ :=
  if _ : 2 < hi - lo then
    if getBrazilCheckinDateKey (midpoint lo hi) = today then
      searchReset today (midpoint lo hi) hi
    else searchReset today lo (midpoint lo hi)
  else hi
termination_by (hi - lo).toNat
decreasing_by
  all_goals
    have hmid := @midpoint_between lo hi (by assumption)
    omega

def getNextDailyTaskResetAt (now : ℤ) : ℤ :=
  searchReset getBrazilCheckinDateKey (getBrazilCheckinDateKey now) now (now + 50 * 3600000)

end Search

/-! ## Day keys -/

/-- The instants of every day are an interval. -/
def DayKeys (key : ℤ → κ) : Prop :=
  ∀ today, (Set.preimage key {today}).OrdConnected

/-- The first instant after `now` with another key. -/
def FirstChange (key : ℤ → κ) (now change : ℤ) : Prop :=
  IsLeast {instant | now < instant ∧ key instant ≠ key now} change

omit [DecidableEq κ] in
theorem DayKeys.between {key : ℤ → κ} (hkey : DayKeys key) {first middle last : ℤ}
    (hends : key last = key first) (h1 : first ≤ middle) (h2 : middle ≤ last) :
    key middle = key first :=
  (hkey (key first)).out rfl hends ⟨h1, h2⟩

omit [DecidableEq κ] in
/-- Keys that change at increasing instants, to a new one each time. -/
theorem dayKeys_of_changes {key : ℤ → κ} {day : ℤ → ℤ} {name : ℤ → κ} (hday : Monotone day)
    (hname : Function.Injective name) (hkey : ∀ instant, key instant = name (day instant)) :
    DayKeys key := by
  intro today
  refine ⟨fun first hfirst last hlast middle hmiddle => ?_⟩
  have hsame : day last = day first := by
    apply hname
    rw [← hkey, ← hkey]
    exact (Set.mem_singleton_iff.1 hlast).trans (Set.mem_singleton_iff.1 hfirst).symm
  have h1 := hday hmiddle.1
  have h2 := hday hmiddle.2
  have heq : day middle = day first := by omega
  show key middle = today
  rw [hkey, heq, ← hkey]
  exact hfirst

omit [DecidableEq κ] in
/-- Before the change the day is the same, and after it never. -/
theorem FirstChange.key_eq_iff {key : ℤ → κ} {now change instant : ℤ} (hkey : DayKeys key)
    (hchange : FirstChange key now change) (hle : now ≤ instant) :
    key instant = key now ↔ instant < change := by
  constructor
  · intro hsame
    by_contra hlate
    exact hchange.1.2 (hkey.between hsame hchange.1.1.le (not_lt.1 hlate))
  · intro hearly
    by_contra hother
    have hne : now ≠ instant := fun heq => hother (heq ▸ rfl)
    exact absurd (hchange.2 ⟨lt_of_le_of_ne hle hne, hother⟩) (not_le.2 hearly)

omit [DecidableEq κ] in
/-- Where the day changes at all, there is a first instant. -/
theorem exists_firstChange {key : ℤ → κ} {now later : ℤ} (hlater : now < later)
    (hother : key later ≠ key now) : ∃ change ≤ later, FirstChange key now change := by
  classical
  have hex : ∃ n : ℕ, key (now + n) ≠ key now := ⟨(later - now).toNat, by
    rwa [Int.toNat_of_nonneg (by omega), add_sub_cancel]⟩
  have hpos : 0 < Nat.find hex := by
    rw [Nat.find_pos]
    simp
  refine ⟨now + Nat.find hex, ?_, ⟨by omega, Nat.find_spec hex⟩, ?_⟩
  · have hfind : Nat.find hex ≤ (later - now).toNat := Nat.find_min' hex (by
      rwa [Int.toNat_of_nonneg (by omega), add_sub_cancel])
    omega
  · rintro instant ⟨hafter, hne⟩
    have hfind : Nat.find hex ≤ (instant - now).toNat := Nat.find_min' hex (by
      rwa [Int.toNat_of_nonneg (by omega), add_sub_cancel])
    omega

/-! ## What the search finds -/

/-- The invariant of the loop: today is at `lo`, and the change is not past `hi`. -/
theorem searchReset_spec {key : ℤ → κ} {now change lo hi : ℤ} (hkey : DayKeys key)
    (hchange : FirstChange key now change) (hlo : now ≤ lo) (hbefore : lo < change)
    (hafter : change ≤ hi) :
    change ≤ searchReset key (key now) lo hi ∧ searchReset key (key now) lo hi ≤ change + 1 := by
  fun_induction searchReset key (key now) lo hi with
  | case1 lo hi hgap htoday ih =>
    have hmid := midpoint_between hgap
    exact ih (by omega) ((hchange.key_eq_iff hkey (by omega)).1 htoday) hafter
  | case2 lo hi hgap hother ih =>
    have hmid := midpoint_between hgap
    exact ih hlo hbefore (not_lt.1 (mt (hchange.key_eq_iff hkey (by omega)).2 hother))
  | case3 lo hi hgap => exact ⟨hafter, by omega⟩

theorem getNextDailyTaskResetAt_spec {key : ℤ → κ} {now change : ℤ} (hkey : DayKeys key)
    (hchange : FirstChange key now change) (hwithin : change ≤ now + 50 * 3600000) :
    change ≤ getNextDailyTaskResetAt key now ∧ getNextDailyTaskResetAt key now ≤ change + 1 :=
  searchReset_spec hkey hchange le_rfl hchange.1.1 hwithin

omit [DecidableEq κ] in
/-- Two instants of one day see the same change. -/
theorem FirstChange.of_key_eq {key : ℤ → κ} {now later change : ℤ} (hkey : DayKeys key)
    (hchange : FirstChange key now change) (hle : now ≤ later) (hsame : key later = key now) :
    FirstChange key later change := by
  have hlater := (hchange.key_eq_iff hkey hle).1 hsame
  refine ⟨⟨hlater, hsame ▸ hchange.1.2⟩, ?_⟩
  rintro instant ⟨hafter, hother⟩
  exact hchange.2 ⟨by omega, hsame ▸ hother⟩

/-- The reset is after `now`, on another day, and within two milliseconds of
the first instant of that day; so all the instants of a day have one reset, up
to two milliseconds. -/
theorem getNextDailyTaskResetAt_change {key : ℤ → κ} (hkey : DayKeys key) {now later : ℤ}
    (hlater : now < later) (hwithin : later ≤ now + 50 * 3600000) (hother : key later ≠ key now) :
    now < getNextDailyTaskResetAt key now
      ∧ key (getNextDailyTaskResetAt key now) ≠ key now
      ∧ (∃ change, FirstChange key now change ∧ change ≤ getNextDailyTaskResetAt key now
        ∧ getNextDailyTaskResetAt key now ≤ change + 2)
      ∧ ∀ instant, key instant = key now →
        (∃ next, instant < next ∧ next ≤ instant + 50 * 3600000 ∧ key next ≠ key instant) →
        |getNextDailyTaskResetAt key instant - getNextDailyTaskResetAt key now| ≤ 2 := by
  obtain ⟨change, hle, hchange⟩ := exists_firstChange hlater hother
  obtain ⟨hfrom, hto⟩ := getNextDailyTaskResetAt_spec hkey hchange (hle.trans hwithin)
  have hnow := hchange.1.1
  refine ⟨by omega, ?_, ⟨change, hchange, hfrom, by omega⟩, ?_⟩
  · intro hsame
    exact absurd ((hchange.key_eq_iff hkey (by omega)).1 hsame) (not_lt.2 hfrom)
  · rintro instant hsame ⟨next, hnext, hnear, hdiffers⟩
    obtain ⟨change', hle', hchange'⟩ := exists_firstChange hnext hdiffers
    obtain ⟨hfrom', hto'⟩ := getNextDailyTaskResetAt_spec hkey hchange' (hle'.trans hnear)
    have heq : change' = change := by
      rcases le_total now instant with horder | horder
      · exact hchange'.unique (hchange.of_key_eq hkey horder hsame)
      · exact (hchange'.of_key_eq hkey horder hsame.symm).unique hchange
    rw [abs_le]
    omega

/-- A day of UTC, at noon. -/
theorem getNextDailyTaskResetAt_change_noon :
    43200000 < getNextDailyTaskResetAt (fun instant => instant / 86400000) 43200000 :=
  (@getNextDailyTaskResetAt_change _ _ (fun instant => instant / 86400000)
    (dayKeys_of_changes (fun _ _ h => Int.ediv_le_ediv (by decide) h) Function.injective_id
      fun _ => rfl)
    43200000 86400000 (by decide) (by decide) (by decide)).1

end BlockMiner.DailyTaskPeriod
