import BlockMiner.Conversion
import BlockMiner.Units
import Mathlib.Algebra.Order.Group.Abs

/-!
# The limits of a conversion

What a committed conversion takes and gives is fixed by its estimate, which
no other request can touch (`Priced`). The cooldown, the daily limit and the
balance are checked on rows that may have changed by the time of the commit,
so they hold in the runs in which a commit finds its checks still passing
(`ChecksStand`). The amounts and the stored limit are whole units, which
makes the tolerance in the limit's comparison disappear.
-/

namespace BlockMiner.Conversion

open Spending (round8 startUtcDay DAY_MS)

/-! ## Estimates -/

/-- The figures of an estimate fit together. -/
structure Priced (config : EconomyConfig) (est : Estimate) : Prop where
  gross : est.polGross = est.feePol + est.netPol
  net : est.blkOut = round8 (est.netPol / config.polPerBlk)
  rate : est.polPerBlk = config.polPerBlk
  gross_pos : 0 < est.polGross

theorem round8_eq_units (x : ℚ) : ∃ m, round8 x = units m := ⟨_, rfl⟩

/-- Rounding leaves whole units alone. -/
theorem round8_units (m : ℤ) : round8 (units m) = units m := by
  have hfloor : ⌊units m * 10 ^ 8 + 1 / 2⌋ = m := by
    rw [Int.floor_eq_iff]
    unfold units
    constructor
    · linarith
    · linarith
  unfold round8
  rw [hfloor]
  rfl

theorem estimate_priced {config : EconomyConfig} {polAmount : ℚ} {est : Estimate}
    (h : estimatePolToBlk config (round8 polAmount) = some est) : Priced config est := by
  unfold estimatePolToBlk at h
  split at h
  case isFalse => cases h
  case isTrue hpos =>
    obtain rfl := Option.some.inj h
    refine ⟨?_, rfl, rfl, hpos⟩
    -- the fee is whole units, and so is what it leaves
    obtain ⟨m, hm⟩ := round8_eq_units polAmount
    obtain ⟨n, hn⟩ := round8_eq_units (round8 polAmount * config.convertFeeBps / 10000)
    simp only [hn]
    rw [hm, units_sub, round8_units, units_add]
    congr 1
    omega

/-! ## The stored limit -/

theorem patched_eq_ok {α : Type} {error : ConfigError} {check : ℚ → Bool} {store : ℚ → α}
    {field : Option Parsed} {old value : α} (h : patched error check store field old = .ok value) :
    value = old ∨ ∃ n, check n = true ∧ value = store n := by
  unfold patched at h
  cases field with
  | none => exact Or.inl (Except.ok.inj h).symm
  | some parsed =>
      cases parsed with
      | none => cases h
      | some n =>
          simp only at h
          split at h
          case isTrue hn => exact Or.inr ⟨n, hn, (Except.ok.inj h).symm⟩
          case isFalse => cases h

/-- A daily limit, if there is one, is whole units. -/
def LimitStored (config : EconomyConfig) : Prop :=
  ∀ cap ∈ config.dailyConvertLimitBlk, ∃ m, 0 ≤ m ∧ cap = units m

theorem update_limitStored {row config : EconomyConfig} {patch : Patch} (hrow : LimitStored row)
    (h : updateBlkEconomyConfig row patch = .ok config) : LimitStored config := by
  unfold updateBlkEconomyConfig at h
  obtain ⟨polPerBlk, -, h⟩ := bind_eq_ok h
  obtain ⟨convertFeeBps, -, h⟩ := bind_eq_ok h
  obtain ⟨minConvertPol, -, h⟩ := bind_eq_ok h
  obtain ⟨limit, hlimit, h⟩ := bind_eq_ok h
  obtain ⟨convertCooldownSec, -, h⟩ := bind_eq_ok h
  obtain ⟨blkCycleReward, -, h⟩ := bind_eq_ok h
  obtain ⟨blkCycleIntervalSec, -, h⟩ := bind_eq_ok h
  obtain ⟨blkCycleActivitySec, -, h⟩ := bind_eq_ok h
  obtain ⟨blkCycleMinHashrate, -, h⟩ := bind_eq_ok h
  obtain ⟨blkCycleBoost, -, h⟩ := bind_eq_ok h
  obtain rfl := Except.ok.inj h
  intro cap hcap
  have hcap' : limit = some cap := hcap
  subst hcap'
  unfold patchedLimit at hlimit
  split at hlimit
  case h_1 => exact hrow cap (Except.ok.inj hlimit)
  case h_2 => cases hlimit
  case h_3 n =>
    rcases patched_eq_ok hlimit with hnone | ⟨x, hx, hstored⟩
    · cases hnone
    · obtain rfl := Option.some.inj hstored
      have hpos : (0 : ℚ) < x := of_decide_eq_true hx
      refine ⟨⌊x * 10 ^ 8 + 1 / 2⌋, Int.floor_nonneg.mpr ?_, rfl⟩
      linarith

theorem configurations_limitStored {patches : List Patch} {config : EconomyConfig}
    (h : configurations.run DEFAULT_ROW patches = some config) : LimitStored config :=
  configurations.run_kept
    (fun _ _ _ hrow hstep => update_limitStored hrow (toOption_eq_some.mp hstep))
    (fun cap hcap => by cases hcap) h

/-! ## A commit that finds its checks standing -/

/-- The checks of a conversion would still pass when it commits. -/
def ChecksStand (config : EconomyConfig) (db : Db) : Call → Answer → Prop
  | .commit est _, .ok now =>
      onCooldown config db now = false ∧ overDailyLimit config db now est.blkOut = false
        ∧ est.polGross ≤ db.polBalance
  | _, _ => True

instance (config : EconomyConfig) (db : Db) : ∀ c a, Decidable (ChecksStand config db c a)
  | .commit est _, .ok _ => inferInstanceAs (Decidable (_ ∧ _ ∧ est.polGross ≤ db.polBalance))
  | .user _, _ | .last _ _, _ | .daily _ _, _ | .commit _ _, .error =>
      inferInstanceAs (Decidable True)

/-- What was converted on the day of `instant`. -/
def convertedOn (db : Db) (instant : ℕ) : ℚ :=
  ((db.conversions.filter fun c => startUtcDay c.createdAt = startUtcDay instant).map
    (·.amount)).sum

/-- The state a run has reached, from balances `pol` and `blk`. -/
structure WithinLimits (config : EconomyConfig) (pol blk : ℚ) (db : Db) : Prop where
  priced : ∀ c ∈ db.conversions, Priced config c.rawTx ∧ c.amount = c.rawTx.blkOut
    ∧ c.fee = c.rawTx.feePol ∧ 0 < c.amount
  debited : db.polBalance = pol - (db.conversions.map (·.rawTx.polGross)).sum
  credited : db.blkBalance = blk + (db.conversions.map (·.amount)).sum
  covered : 0 ≤ db.polBalance
  apart : db.conversions.Pairwise fun c d =>
    (config.convertCooldownSec * 1000 : ℤ) ≤ |(c.createdAt : ℤ) - d.createdAt|
  capped : ∀ cap ∈ config.dailyConvertLimitBlk, ∀ instant, convertedOn db instant ≤ cap

theorem not_onCooldown {config : EconomyConfig} {db : Db} {now : ℕ}
    (h : onCooldown config db now = false) {c : ConversionRow} (hc : c ∈ db.conversions) :
    (config.convertCooldownSec * 1000 : ℤ) ≤ |(now : ℤ) - c.createdAt| := by
  obtain ⟨last, hlast⟩ := Option.isSome_iff_exists.mp
    (List.isSome_max?_of_mem (List.mem_map_of_mem (f := ConversionRow.createdAt) hc))
  have hle : c.createdAt ≤ last :=
    (List.max?_eq_some_iff.mp hlast).2 _ (List.mem_map_of_mem hc)
  simp only [onCooldown, hlast, Option.any_some, decide_eq_false_iff_not, not_and, not_lt] at h
  rcases Nat.eq_zero_or_pos config.convertCooldownSec with hzero | hpos
  · rw [hzero]
    exact le_of_eq_of_le (by simp) (abs_nonneg _)
  · have hwait := h hpos
    rw [le_div_iff₀ (by norm_num)] at hwait
    have hwait' : (config.convertCooldownSec * 1000 : ℤ) ≤ (now : ℤ) - last := by
      exact_mod_cast hwait
    have habs := le_abs_self ((now : ℤ) - c.createdAt)
    omega

theorem startUtcDay_le (instant : ℕ) : startUtcDay instant ≤ instant := Nat.sub_le ..

/-- The day's conversions are among those the aggregate adds up. -/
theorem convertedOn_le_used {db : Db} {instant now : ℕ}
    (hday : startUtcDay now = startUtcDay instant) (hpos : ∀ c ∈ db.conversions, 0 < c.amount) :
    convertedOn db instant ≤ used db now := by
  unfold convertedOn used
  generalize db.conversions = conversions at hpos
  induction conversions with
  | nil => exact le_refl _
  | cons c conversions ih =>
      have ih' := ih fun d hd => hpos d (List.mem_cons_of_mem _ hd)
      have hc := hpos c (List.mem_cons_self ..)
      rw [List.filter_cons, List.filter_cons]
      by_cases hsame : startUtcDay c.createdAt = startUtcDay instant
      · have hle : startUtcDay now ≤ c.createdAt := by
          rw [hday, ← hsame]
          exact startUtcDay_le c.createdAt
        rw [if_pos (decide_eq_true hsame), if_pos (decide_eq_true hle), List.map_cons,
          List.map_cons, List.sum_cons, List.sum_cons]
        linarith
      · rw [if_neg (by simpa using hsame)]
        split
        · rw [List.map_cons, List.sum_cons]
          linarith
        · exact ih'

theorem convertedOn_units {config : EconomyConfig} {db : Db}
    (h : ∀ c ∈ db.conversions, Priced config c.rawTx ∧ c.amount = c.rawTx.blkOut
      ∧ c.fee = c.rawTx.feePol ∧ 0 < c.amount) (instant : ℕ) :
    ∃ m, convertedOn db instant = units m := by
  refine sum_units fun x hx => ?_
  obtain ⟨c, hc, rfl⟩ := List.mem_map.mp hx
  obtain ⟨hpriced, hamount, -⟩ := h c (List.mem_filter.mp hc).1
  rw [hamount, hpriced.net]
  exact round8_eq_units _

theorem WithinLimits.commit {config : EconomyConfig} {pol blk : ℚ} {db : Db} {est : Estimate}
    {now : ℕ} (h : WithinLimits config pol blk db) (hlimit : LimitStored config)
    (hpriced : Priced config est) (hout : 0 < est.blkOut)
    (hcool : onCooldown config db now = false)
    (hcap : overDailyLimit config db now est.blkOut = false)
    (hcovered : est.polGross ≤ db.polBalance) :
    WithinLimits config pol blk (commit db est now) := by
  have hall : ∀ c ∈ (Conversion.commit db est now).conversions, Priced config c.rawTx
      ∧ c.amount = c.rawTx.blkOut ∧ c.fee = c.rawTx.feePol ∧ 0 < c.amount := by
    intro c hc
    rcases List.mem_cons.mp hc with rfl | hold
    · exact ⟨hpriced, rfl, rfl, hout⟩
    · exact h.priced c hold
  refine ⟨hall, ?_, ?_, ?_, ?_, ?_⟩
  · simp only [Conversion.commit, List.map_cons, List.sum_cons, h.debited]
    ring
  · simp only [Conversion.commit, List.map_cons, List.sum_cons, h.credited]
    ring
  · exact sub_nonneg.mpr hcovered
  · exact List.pairwise_cons.mpr ⟨fun c hc => not_onCooldown hcool hc, h.apart⟩
  · intro cap hmem instant
    obtain ⟨m, -, hm⟩ := hlimit cap hmem
    obtain ⟨n, hn⟩ := convertedOn_units hall instant
    have hsum : convertedOn (Conversion.commit db est now) instant
        = (if startUtcDay now = startUtcDay instant then est.blkOut else 0)
          + convertedOn db instant := by
      unfold convertedOn Conversion.commit
      rw [List.filter_cons]
      by_cases hday : startUtcDay now = startUtcDay instant
      · rw [if_pos (decide_eq_true hday), if_pos hday, List.map_cons, List.sum_cons]
      · rw [if_neg (by simpa using hday), if_neg hday, zero_add]
    by_cases hday : startUtcDay now = startUtcDay instant
    · have hused := convertedOn_le_used hday fun c hc => (h.priced c hc).2.2.2
      have hcap' : used db now + est.blkOut ≤ cap + 1 / 10 ^ 12 := by
        have hmem' : config.dailyConvertLimitBlk = some cap := hmem
        simp only [overDailyLimit, hmem', Option.any_some, decide_eq_false_iff_not, not_lt] at hcap
        exact hcap
      rw [if_pos hday] at hsum
      rw [hn, hm]
      refine units_le_of_lt (ε := 1 / 10 ^ 12) (by norm_num) ?_
      rw [← hn, ← hm]
      linarith
    · rw [hsum, if_neg hday, zero_add]
      exact h.capped cap hmem instant

/-! ## Runs -/

/-- What a call remembers of its estimate. -/
def Remembers (config : EconomyConfig) : Call → Prop
  | .user est => Priced config est
  | .last est _ | .daily est _ | .commit est _ => Priced config est ∧ 0 < est.blkOut

theorem checkBalance_remembers {config : EconomyConfig} {est : Estimate} {seen : ℚ} {c : Call}
    (hest : Priced config est ∧ 0 < est.blkOut) (h : checkBalance est seen = .ok c) :
    Remembers config c := by
  obtain ⟨-, h⟩ := ite_error_eq_ok.mp h
  obtain rfl := Except.ok.inj h
  exact hest

theorem query_remembers {config : EconomyConfig} {db : Db} {now : ℕ} {c c' : Call}
    (hc : Remembers config c) (h : query config db now c = .ok c') : Remembers config c' := by
  cases c with
  | user est =>
      obtain ⟨-, h⟩ := ite_error_eq_ok.mp h
      obtain ⟨-, h⟩ := ite_error_eq_ok.mp h
      obtain ⟨hout, h⟩ := ite_error_eq_ok.mp h
      obtain rfl := Except.ok.inj h
      exact ⟨hc, not_le.mp hout⟩
  | last est seen =>
      obtain ⟨-, h⟩ := ite_error_eq_ok.mp h
      split at h
      case isTrue =>
        obtain rfl := Except.ok.inj h
        exact hc
      case isFalse => exact checkBalance_remembers hc h
  | daily est seen =>
      obtain ⟨-, h⟩ := ite_error_eq_ok.mp h
      exact checkBalance_remembers hc h
  | commit est seen =>
      obtain rfl := Except.ok.inj h
      exact hc

theorem start_remembers {config : EconomyConfig} {db db' : Db} {request : Request}
    {calls : List Call} (h : start config db request = some (db', calls)) :
    db' = db ∧ ∀ c ∈ calls, Remembers config c := by
  obtain ⟨polAmount⟩ := request
  obtain ⟨rfl, rfl⟩ := Prod.mk.inj (Option.some.inj h)
  refine ⟨rfl, fun c hc => ?_⟩
  have hok := toOption_eq_some.mp (Option.mem_toList.mp hc)
  unfold convertPolToBlk at hok
  cases hest : estimatePolToBlk config (round8 polAmount) with
  | none =>
      rw [hest] at hok
      cases hok
  | some est =>
      rw [hest] at hok
      obtain rfl := Except.ok.inj hok
      exact estimate_priced hest

/-- Only a commit writes; every other step moves its call on. -/
theorem resume_cases {config : EconomyConfig} {db db' : Db} {c : Call} {answer : Answer}
    {next : Option Call} (h : resume config db c answer = some (db', next)) :
    (∃ est seen now, c = .commit est seen ∧ answer = .ok now ∧ db' = commit db est now
        ∧ next = none)
      ∨ (db' = db ∧ ∀ c' ∈ next, ∃ now, query config db now c = .ok c') := by
  cases answer with
  | error =>
      have hend : resume config db c .error = some (db, none) := by cases c <;> rfl
      obtain ⟨rfl, rfl⟩ := Prod.mk.inj (Option.some.inj (hend.symm.trans h))
      exact Or.inr ⟨rfl, fun _ hc' => by cases hc'⟩
  | ok now =>
      cases c with
      | commit est seen =>
          obtain ⟨rfl, rfl⟩ := Prod.mk.inj (Option.some.inj h)
          exact Or.inl ⟨est, seen, now, rfl, rfl, rfl, rfl⟩
      | user | last | daily =>
          obtain ⟨rfl, rfl⟩ := Prod.mk.inj (Option.some.inj h)
          exact Or.inr ⟨rfl, fun c' hc' => ⟨now, toOption_eq_some.mp hc'⟩⟩

/-- A user with the given balances who has not converted anything yet. -/
def newcomer (pol blk : ℚ) : InFlight Db Call :=
  ⟨{ polBalance := pol, blkBalance := blk, isBanned := false, conversions := [] }, .empty⟩

/-- The default row with a daily limit of 1 BLK. -/
def oneBlkADay : List Patch := [{ dailyConvertLimitBlk := some (some (some 1)) }]

theorem oneBlkADay_accepted : (configurations.run DEFAULT_ROW oneBlkADay).isSome := by
  decide +kernel

/-- Two conversions of 100 POL in turn; the second one, on the next day, is
within its limits again. -/
def convertedInTurn : List (Event Request Answer) :=
  [.start (.convertPolToBlk 100), .resume 1 (.ok 1), .resume 1 (.ok 1), .resume 1 (.ok 1),
    .resume 1 (.ok 2), .start (.convertPolToBlk 100), .resume 2 (.ok DAY_MS),
    .resume 2 (.ok DAY_MS), .resume 2 (.ok DAY_MS), .resume 2 (.ok (DAY_MS + 1))]

/-- Two conversions of 100 POL that have both read the user, the history and
the day's sum before either commits. -/
def convertedAtOnce : List (Event Request Answer) :=
  [.start (.convertPolToBlk 100), .start (.convertPolToBlk 100), .resume 1 (.ok 1),
    .resume 2 (.ok 1), .resume 1 (.ok 1), .resume 2 (.ok 1), .resume 1 (.ok 1),
    .resume 2 (.ok 1), .resume 1 (.ok 2), .resume 2 (.ok 3)]

end BlockMiner.Conversion
