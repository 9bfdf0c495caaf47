import Mathlib.Data.Int.Log
import Mathlib.Data.Rat.Floor
import Mathlib.Tactic.Linarith
import Mathlib.Tactic.FieldSimp
import Mathlib.Tactic.Ring

/-- How results of non-negative arithmetic are rounded: never up by more than
half a unit in the last of 53 binary places, and never below zero. -/
structure Rounding where
  round : ℚ → ℚ
  round_nonneg : ∀ x, 0 ≤ x → 0 ≤ round x
  round_le : ∀ x, 0 ≤ x → round x ≤ x * (1 + 1 / 2 ^ 53)

namespace Rounding

/-- The nearest integer, and the even one of two that are as near. -/
def halfEven (x : ℚ) : ℤ :=
  if x - ⌊x⌋ < 1 / 2 then ⌊x⌋
  else if 1 / 2 < x - ⌊x⌋ then ⌊x⌋ + 1
  else if ⌊x⌋ % 2 = 0 then ⌊x⌋
  else ⌊x⌋ + 1

theorem halfEven_le (x : ℚ) : (halfEven x : ℚ) ≤ x + 1 / 2 := by
  have floor := Int.floor_le x
  unfold halfEven
  split
  · linarith
  · rename_i upper
    have upper := not_lt.mp upper
    split
    · push_cast
      linarith
    · split
      · linarith
      · push_cast
        linarith

theorem halfEven_nonneg {x : ℚ} (nonneg : 0 ≤ x) : 0 ≤ halfEven x := by
  have floor : 0 ≤ ⌊x⌋ := Int.floor_nonneg.mpr nonneg
  unfold halfEven
  split
  · exact floor
  · split
    · omega
    · split <;> omega

/-- No rounding at all. -/
def exact : Rounding where
  round := id
  round_nonneg _ nonneg := nonneg
  round_le x nonneg := by
    have more : 0 ≤ x * (1 / 2 ^ 53) := mul_nonneg nonneg (by norm_num)
    show x ≤ x * (1 + 1 / 2 ^ 53)
    rw [mul_add, mul_one]
    linarith

/-- The distance of neighbouring numbers of 53 binary places around a number. -/
def ulp (x : ℚ) : ℚ := 2 ^ (Int.log 2 x - 52)

theorem ulp_pos (x : ℚ) : 0 < ulp x := zpow_pos (by norm_num) _

theorem ulp_le {x : ℚ} (pos : 0 < x) : ulp x ≤ x * (1 / 2 ^ 52) := by
  have power : (2 : ℚ) ^ Int.log 2 x ≤ x := by
    have below := Int.zpow_log_le_self (b := 2) (R := ℚ) (by decide) pos
    exact_mod_cast below
  have split : ulp x = 2 ^ Int.log 2 x * (1 / 2 ^ 52) := by
    unfold ulp
    rw [zpow_sub₀ (by norm_num : (2 : ℚ) ≠ 0)]
    norm_num
    ring
  rw [split]
  exact mul_le_mul_of_nonneg_right power (by norm_num)

/-- Double precision, as long as no result overflows or is subnormal. -/
def double : Rounding where
  round x := halfEven (x / ulp x) * ulp x
  round_nonneg x nonneg := by
    have pos : 0 < ulp x := ulp_pos x
    have places : 0 ≤ halfEven (x / ulp x) := halfEven_nonneg (div_nonneg nonneg pos.le)
    exact mul_nonneg (by exact_mod_cast places) pos.le
  round_le x nonneg := by
    have pos : 0 < ulp x := ulp_pos x
    have half := halfEven_le (x / ulp x)
    have near : (halfEven (x / ulp x) : ℚ) * ulp x ≤ x + ulp x / 2 := by
      calc (halfEven (x / ulp x) : ℚ) * ulp x ≤ (x / ulp x + 1 / 2) * ulp x :=
            mul_le_mul_of_nonneg_right half pos.le
        _ = x + ulp x / 2 := by field_simp
    rcases nonneg.eq_or_lt with zero | positive
    · subst zero
      norm_num [halfEven]
    · have small := ulp_le positive
      have bound : x + ulp x / 2 ≤ x * (1 + 1 / 2 ^ 53) := by
        rw [mul_add, mul_one]
        norm_num at small ⊢
        linarith
      exact near.trans bound

end Rounding
