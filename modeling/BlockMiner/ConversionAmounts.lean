import BlockMiner.ConversionLimits

/-!
# The arithmetic of an estimate

An estimate rounds three times: the fee, what the fee leaves, and the amount
in BLK. The second rounding does nothing, since gross and fee are whole units.
The other two are off by half a unit at most (`abs_round8_sub`) and keep the
order (`round8_mono`); that what is left keeps the order too comes from the
fee growing no faster than the gross amount (`feePol_le_add`).
-/

namespace BlockMiner.Conversion

open Spending (round8)

/-! ## Rounding -/

theorem round8_mono {x y : ℚ} (h : x ≤ y) : round8 x ≤ round8 y := by
  have hfloor : ⌊x * 10 ^ 8 + 1 / 2⌋ ≤ ⌊y * 10 ^ 8 + 1 / 2⌋ := Int.floor_le_floor (by linarith)
  have hcast : (⌊x * 10 ^ 8 + 1 / 2⌋ : ℚ) ≤ ⌊y * 10 ^ 8 + 1 / 2⌋ := by exact_mod_cast hfloor
  unfold round8
  linarith

/-- Rounding moves an amount by half a unit at most. -/
theorem abs_round8_sub (x : ℚ) : |round8 x - x| ≤ units 1 / 2 := by
  have hle := Int.floor_le (x * 10 ^ 8 + 1 / 2)
  have hlt := Int.lt_floor_add_one (x * 10 ^ 8 + 1 / 2)
  unfold round8 units
  rw [abs_le]
  constructor
  · push_cast
    linarith
  · push_cast
    linarith

theorem round8_add_units (x : ℚ) (m : ℤ) : round8 (x + units m) = round8 x + units m := by
  have hshift : (x + units m) * 10 ^ 8 + 1 / 2 = x * 10 ^ 8 + 1 / 2 + m := by
    unfold units
    ring
  unfold round8
  rw [hshift, Int.floor_add_intCast]
  unfold units
  push_cast
  ring

/-! ## The fee -/

section Fee

variable {bps : ℕ}

/-- The fee of `m` units. -/
def feeOf (bps : ℕ) (m : ℤ) : ℚ := round8 (units m * bps / 10000)

theorem feeOf_nonneg {m : ℤ} (hm : 0 ≤ m) : 0 ≤ feeOf bps m := by
  have hshare : 0 ≤ units m * bps / 10000 := by
    have hunits := units_nonneg hm
    positivity
  calc (0 : ℚ) = round8 (units 0) := by rw [round8_units, units_zero]
    _ ≤ feeOf bps m := round8_mono (by rwa [units_zero])

/-- The fee grows no faster than the amount. -/
theorem feeOf_le_add (hbps : bps ≤ 10000) {m n : ℤ} (h : m ≤ n) :
    feeOf bps n ≤ feeOf bps m + units (n - m) := by
  have hrate : (bps : ℚ) ≤ 10000 := by exact_mod_cast hbps
  have hmore : 0 ≤ units (n - m) := units_nonneg (by omega)
  have hsplit : units n = units m + units (n - m) := by
    rw [units_add]
    congr 1
    omega
  have hshare : units (n - m) * bps ≤ units (n - m) * 10000 :=
    mul_le_mul_of_nonneg_left hrate hmore
  have hscale : units n * bps / 10000 ≤ units m * bps / 10000 + units (n - m) := by
    rw [hsplit]
    linarith
  calc feeOf bps n ≤ round8 (units m * bps / 10000 + units (n - m)) := round8_mono hscale
    _ = feeOf bps m + units (n - m) := round8_add_units _ _

theorem feeOf_le (hbps : bps ≤ 10000) {m : ℤ} (hm : 0 ≤ m) : feeOf bps m ≤ units m := by
  have hzero : feeOf bps 0 = 0 := by
    simpa [feeOf] using round8_units 0
  simpa [hzero] using feeOf_le_add hbps hm

/-- Amounts in several conversions pay a fee that is off by half a unit for each. -/
theorem abs_sum_feeOf_sub (ms : List ℤ) :
    |(ms.map (feeOf bps)).sum - units ms.sum * bps / 10000| ≤ ms.length * (units 1 / 2) := by
  induction ms with
  | nil => simp
  | cons m ms ih =>
      have hm := abs_round8_sub (units m * bps / 10000)
      have hsplit : units (m + ms.sum) * bps / 10000
          = units m * bps / 10000 + units ms.sum * bps / 10000 := by
        rw [← units_add]
        ring
      rw [List.map_cons, List.sum_cons, List.sum_cons, hsplit, List.length_cons, feeOf]
      rw [abs_le] at hm ih ⊢
      push_cast
      constructor
      · linarith [hm.1, ih.1]
      · linarith [hm.2, ih.2]

end Fee

/-! ## Estimates of whole units -/

variable {config : EconomyConfig}

theorem estimate_units {m : ℤ} (hm : 0 < m) :
    estimatePolToBlk config (units m)
      = some
        { polGross := units m
          feePol := feeOf config.convertFeeBps m
          netPol := units m - feeOf config.convertFeeBps m
          blkOut := round8 ((units m - feeOf config.convertFeeBps m) / config.polPerBlk)
          polPerBlk := config.polPerBlk } := by
  obtain ⟨n, hn⟩ := round8_eq_units (units m * config.convertFeeBps / 10000)
  have hnet : round8 (units m - feeOf config.convertFeeBps m)
      = units m - feeOf config.convertFeeBps m := by
    rw [feeOf, hn, units_sub, round8_units]
  rw [estimatePolToBlk, if_pos (units_pos.mpr hm)]
  simp only
  rw [← feeOf, hnet]

/-- The figures of an estimate at a rate. -/
structure Fair (rate : ℚ) (est : Estimate) : Prop where
  fee_nonneg : 0 ≤ est.feePol
  fee_le : est.feePol ≤ est.polGross
  conserved : est.feePol + est.netPol = est.polGross
  blkOut : |est.blkOut - est.netPol / rate| ≤ units 1 / 2

/-- **Estimates.** At a fee of at most the whole amount and a positive rate, every whole amount
has a fair estimate, a larger amount leaves and gives no less, and the fees of a split are off
by half a unit for each part. -/
theorem estimate_arithmetic (hbps : config.convertFeeBps ≤ 10000) (hrate : 0 < config.polPerBlk) :
    (∀ m, 0 < m → ∃ est, estimatePolToBlk config (units m) = some est
        ∧ est.polGross = units m ∧ Fair config.polPerBlk est)
      ∧ (∀ m n est est', 0 < m → m ≤ n → estimatePolToBlk config (units m) = some est →
        estimatePolToBlk config (units n) = some est' →
          est.netPol ≤ est'.netPol ∧ est.blkOut ≤ est'.blkOut)
      ∧ ∀ (ms : List ℤ) (ests : List Estimate), (∀ m ∈ ms, 0 < m) →
        ms.mapM (fun m => estimatePolToBlk config (units m)) = some ests →
          |(ests.map (·.feePol)).sum - units ms.sum * config.convertFeeBps / 10000|
            ≤ ms.length * (units 1 / 2) := by
  refine ⟨fun m hm => ?_, fun m n est est' hm hmn hest hest' => ?_, fun ms ests hms hests => ?_⟩
  · exact ⟨_, estimate_units hm, rfl, feeOf_nonneg hm.le, feeOf_le hbps hm.le, by simp,
      abs_round8_sub _⟩
  · rw [estimate_units hm] at hest
    rw [estimate_units (hm.trans_le hmn)] at hest'
    obtain rfl := Option.some.inj hest
    obtain rfl := Option.some.inj hest'
    have hnet : units m - feeOf config.convertFeeBps m
        ≤ units n - feeOf config.convertFeeBps n := by
      have hfee := feeOf_le_add hbps hmn
      rw [← units_sub] at hfee
      linarith
    exact ⟨hnet, round8_mono (div_le_div_of_nonneg_right hnet hrate.le)⟩
  · have hfees : ests.map (·.feePol) = ms.map (feeOf config.convertFeeBps) := by
      induction ms generalizing ests with
      | nil =>
          obtain rfl : [] = ests := by simpa using hests
          rfl
      | cons m ms ih =>
          simp only [List.mapM_cons, estimate_units (hms m List.mem_cons_self),
            Option.bind_eq_bind, Option.bind_some, Option.bind_eq_some_iff,
            Option.pure_def, Option.some.injEq] at hests
          obtain ⟨rest, hrest, rfl⟩ := hests
          rw [List.map_cons, List.map_cons,
            ih rest (fun m' hm' => hms m' (List.mem_cons_of_mem m hm')) hrest]
    rw [hfees]
    exact abs_sum_feeOf_sub ms

theorem estimate_arithmetic_default :
    (∀ m, 0 < m → ∃ est, estimatePolToBlk DEFAULT_ROW (units m) = some est
        ∧ est.polGross = units m ∧ Fair DEFAULT_ROW.polPerBlk est)
      ∧ (∀ m n est est', 0 < m → m ≤ n → estimatePolToBlk DEFAULT_ROW (units m) = some est →
        estimatePolToBlk DEFAULT_ROW (units n) = some est' →
          est.netPol ≤ est'.netPol ∧ est.blkOut ≤ est'.blkOut)
      ∧ ∀ (ms : List ℤ) (ests : List Estimate), (∀ m ∈ ms, 0 < m) →
        ms.mapM (fun m => estimatePolToBlk DEFAULT_ROW (units m)) = some ests →
          |(ests.map (·.feePol)).sum - units ms.sum * DEFAULT_ROW.convertFeeBps / 10000|
            ≤ ms.length * (units 1 / 2) :=
  estimate_arithmetic (by decide) (by decide +kernel)

end BlockMiner.Conversion
