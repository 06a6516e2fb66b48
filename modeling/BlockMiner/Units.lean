import Mathlib.Algebra.Order.Floor.Ring
import Mathlib.Data.Rat.Floor
import Mathlib.Tactic.Linarith
import Mathlib.Tactic.NormNum
import Mathlib.Tactic.Positivity

/-!
# Whole units of 10⁻⁸

Amounts with eight decimals as rationals. `units m` is `m` units; sums and
differences of whole units are whole units, and two amounts that are whole
units are already ordered when they are ordered up to less than one unit
(`units_le_of_lt`), so a tolerance below a unit is no tolerance for them.
-/

namespace BlockMiner

/-- `m` units of 10⁻⁸. -/
def units (m : ℤ) : ℚ := m / 10 ^ 8

@[simp] theorem units_zero : units 0 = 0 := by simp [units]

theorem units_sub (m n : ℤ) : units m - units n = units (m - n) := by
  unfold units
  push_cast
  ring

theorem units_add (m n : ℤ) : units m + units n = units (m + n) := by
  unfold units
  push_cast
  ring

theorem units_pos {m : ℤ} : 0 < units m ↔ 0 < m := by
  unfold units
  rw [div_pos_iff_of_pos_right (by norm_num)]
  exact Int.cast_pos

theorem units_nonneg {m : ℤ} (h : 0 ≤ m) : 0 ≤ units m := by
  have hcast : (0 : ℚ) ≤ m := by exact_mod_cast h
  unfold units
  positivity

theorem units_le_of_lt {m n : ℤ} {ε : ℚ} (hε : ε < 1 / 10 ^ 8) (h : units m ≤ units n + ε) :
    units m ≤ units n := by
  have hlt : (m : ℚ) < n + 1 := by
    unfold units at h
    have hscale : (m : ℚ) ≤ n + ε * 10 ^ 8 := by linarith
    linarith
  have hle : m ≤ n := by
    have hlt' : m < n + 1 := by exact_mod_cast hlt
    omega
  have hcast : (m : ℚ) ≤ n := by exact_mod_cast hle
  unfold units
  linarith

/-- A sum of whole units. -/
theorem sum_units : ∀ {l : List ℚ}, (∀ x ∈ l, ∃ m, x = units m) → ∃ m, l.sum = units m
  | [], _ => ⟨0, units_zero.symm⟩
  | x :: l, h => by
      obtain ⟨m, rfl⟩ := h x (List.mem_cons_self ..)
      obtain ⟨n, hn⟩ := sum_units fun y hy => h y (List.mem_cons_of_mem _ hy)
      exact ⟨m + n, by rw [List.sum_cons, hn, units_add]⟩

end BlockMiner
