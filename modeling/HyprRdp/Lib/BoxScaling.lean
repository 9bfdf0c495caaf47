import Mathlib.Algebra.Order.Ring.Nat
import Mathlib.Tactic.Ring

/-! Scaling a row of `n` cells to a row of `m` cells: cell `i` of the target takes
its value from the cells of the source between `i * n / m` and the start of the
next one, from one cell at least. An interval of the source is carried to the
target with the left end rounded down and the right end rounded up. -/

namespace BoxScaling

theorem scaled_left_le {left s i n m : Nat} (source : 0 < n) (target : 0 < m) (start : left ≤ s)
    (below : s < max ((i + 1) * n / m) (i * n / m + 1)) : left * m / n ≤ i := by
  rcases lt_max_iff.mp below with wide | narrow
  · have reached : (s + 1) * m ≤ (i + 1) * n := (Nat.le_div_iff_mul_le target).mp wide
    have scaled : left * m ≤ s * m := Nat.mul_le_mul_right m start
    have strict : left * m < (i + 1) * n := by
      have widened : (s + 1) * m = s * m + m := by ring
      omega
    exact Nat.le_of_lt_succ ((Nat.div_lt_iff_lt_mul source).mpr strict)
  · have first : left ≤ i * n / m := by omega
    have scaled : left * m ≤ i * n := (Nat.le_div_iff_mul_le target).mp first
    exact Nat.div_le_of_le_mul (by rw [Nat.mul_comm n i]; exact scaled)

theorem lt_scaled_right {right s i n m : Nat} (source : 0 < n) (target : 0 < m) (above : i * n / m ≤ s)
    (stop : s < right) : i < (right * m + (n - 1)) / n := by
  have next : i * n / m + 1 ≤ right := by omega
  have passed : i * n < (i * n / m + 1) * m := by
    rw [Nat.mul_comm (i * n / m + 1) m]
    exact Nat.lt_mul_div_succ (i * n) target
  have scaled : (i * n / m + 1) * m ≤ right * m := Nat.mul_le_mul_right m next
  have enough : (i + 1) * n ≤ right * m + (n - 1) := by
    have widened : (i + 1) * n = i * n + n := by ring
    omega
  exact (Nat.le_div_iff_mul_le source).mpr enough

theorem scaled_right_le {right n m : Nat} (source : 0 < n) (inside : right ≤ n) :
    (right * m + (n - 1)) / n ≤ m := by
  have scaled : right * m ≤ n * m := Nat.mul_le_mul_right m inside
  have strict : right * m + (n - 1) < (m + 1) * n := by
    have widened : (m + 1) * n = n * m + n := by ring
    omega
  exact Nat.le_of_lt_succ ((Nat.div_lt_iff_lt_mul source).mpr strict)

theorem scaled_left_lt_right {left right n m : Nat} (source : 0 < n) (target : 0 < m) (wide : left < right) :
    left * m / n < (right * m + (n - 1)) / n := by
  have back : left * m / n * n ≤ m * left := by
    rw [Nat.mul_comm m left]
    exact Nat.div_mul_le_self (left * m) n
  exact lt_scaled_right source target (Nat.div_le_of_le_mul back) wide

end BoxScaling
