import Mathlib.Algebra.Order.Floor.Ring
import Mathlib.Algebra.Order.Ring.Abs
import Mathlib.Data.Int.Log
import Mathlib.Tactic.Linarith
import Mathlib.Tactic.Positivity
import Mathlib.Tactic.Ring

/-!
# Rounding to a binary precision

A positive number rounded to the nearest of those whose significand has a given number of
bits, and where two are as near, to the one with the even significand. The exponent has no
bounds.
-/

namespace Lib

variable {R : Type*} [Field R] [LinearOrder R] [IsStrictOrderedRing R] [FloorRing R]

/-- The nearest integer, of two the even one. -/
def roundEven (x : R) : ℤ :=
  if Int.fract x < 1 / 2 then ⌊x⌋
  else if 1 / 2 < Int.fract x then ⌊x⌋ + 1
  else if Even ⌊x⌋ then ⌊x⌋
  else ⌊x⌋ + 1

@[simp] theorem roundEven_intCast (n : ℤ) : roundEven (n : R) = n := by
  simp [roundEven]

theorem roundEven_near (x : R) : |x - roundEven x| ≤ 1 / 2 := by
  have whole : (⌊x⌋ : R) + Int.fract x = x := Int.floor_add_fract x
  have low := Int.fract_nonneg x
  have high := Int.fract_lt_one x
  rw [abs_le]
  unfold roundEven
  split_ifs with below above even <;> push_cast <;> constructor <;> linarith

/-- What the last bit of the significand stands for. -/
def ulp (bits : ℕ) (x : R) : R := 2 ^ (Int.log 2 x + 1 - bits)

def roundTo (bits : ℕ) (x : R) : R := roundEven (x / ulp bits x) * ulp bits x

theorem ulp_pos (bits : ℕ) (x : R) : 0 < ulp bits x := zpow_pos two_pos _

/-- The last bit is small beside the number. -/
theorem ulp_le {x : R} (pos : 0 < x) (bits : ℕ) : ulp bits x ≤ x * 2 / 2 ^ bits := by
  have front : (2 : R) ^ Int.log 2 x ≤ x := by exact_mod_cast Int.zpow_log_le_self one_lt_two pos
  rw [ulp, zpow_sub₀ two_ne_zero, zpow_add_one₀ two_ne_zero, zpow_natCast]
  gcongr

theorem roundTo_near (bits : ℕ) {x : R} (pos : 0 < x) : |x - roundTo bits x| ≤ x / 2 ^ bits := by
  have unit := ulp_pos bits x
  have split : x - roundTo bits x = (x / ulp bits x - roundEven (x / ulp bits x)) * ulp bits x := by
    rw [roundTo, sub_mul, div_mul_cancel₀ _ unit.ne']
  calc |x - roundTo bits x| = |x / ulp bits x - roundEven (x / ulp bits x)| * ulp bits x := by
        rw [split, abs_mul, abs_of_pos unit]
    _ ≤ 1 / 2 * (x * 2 / 2 ^ bits) := mul_le_mul (roundEven_near _) (ulp_le pos bits) unit.le (by positivity)
    _ = x / 2 ^ bits := by ring

/-- A positive number stays positive. -/
theorem roundTo_pos {bits : ℕ} (some_ : 0 < bits) {x : R} (pos : 0 < x) : 0 < roundTo bits x := by
  have near := (abs_le.mp (roundTo_near bits pos)).2
  have small : x / 2 ^ bits < x := div_lt_self pos (one_lt_pow₀ one_lt_two some_.ne')
  linarith

/-- A whole number that fits into the significand is not rounded. -/
theorem roundTo_natCast {bits n : ℕ} (pos : 0 < n) (fits : n < 2 ^ bits) : roundTo bits (n : R) = n := by
  have unit := ulp_pos bits (n : R)
  have log : Int.log 2 (n : R) = Nat.log 2 n := Int.log_natCast 2 n
  have below : Nat.log 2 n < bits := Nat.log_lt_of_lt_pow pos.ne' fits
  obtain ⟨k, rfl⟩ := Nat.exists_eq_add_of_lt below
  have shift : ulp (Nat.log 2 n + k + 1) (n : R) = (2 ^ k)⁻¹ := by
    rw [ulp, log, ← zpow_natCast, ← zpow_neg]
    congr 1
    push_cast
    ring
  have whole : (n : R) / (2 ^ k)⁻¹ = ((n * 2 ^ k : ℤ) : R) := by
    push_cast
    rw [div_inv_eq_mul]
  rw [roundTo, shift, whole, roundEven_intCast]
  push_cast
  rw [mul_assoc, mul_inv_cancel₀ (by positivity), mul_one]

end Lib
