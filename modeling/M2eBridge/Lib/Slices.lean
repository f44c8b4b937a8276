import Mathlib.Data.List.Basic

/-!
# Slices of a list

A list cut into slices of one width, the last of them shorter if the width does not
divide the length.
-/

namespace Lib

variable {α : Type*}

/-- The slice of number `k`. -/
def slice (width k : Nat) (xs : List α) : List α := (xs.drop (width * k)).take width

/-- How many slices there are: the length over the width, rounded up. -/
def sliceCount (width length : Nat) : Nat := (length + width - 1) / width

def slices (width : Nat) (xs : List α) : List (List α) :=
  (List.range (sliceCount width xs.length)).map fun k => slice width k xs

/-- The slices are those that begin inside the list. -/
theorem lt_sliceCount_iff {width length k : Nat} (pos : 0 < width) :
    k < sliceCount width length ↔ width * k < length := by
  rw [sliceCount, ← Nat.succ_le_iff, Nat.le_div_iff_mul_le pos, Nat.succ_mul, Nat.mul_comm k]
  omega

theorem slice_length (width k : Nat) (xs : List α) : (slice width k xs).length = min width (xs.length - width * k) := by
  simp [slice]

/-- Every slice but the last has the full width. -/
theorem slice_length_full {width length k : Nat} {xs : List α} (pos : 0 < width) (size : xs.length = length)
    (inner : k + 1 < sliceCount width length) : (slice width k xs).length = width := by
  have next := (lt_sliceCount_iff pos).mp inner
  rw [Nat.mul_add, Nat.mul_one] at next
  rw [slice_length, size]
  omega

/-- No slice is empty. -/
theorem slice_length_pos {width length k : Nat} {xs : List α} (pos : 0 < width) (size : xs.length = length)
    (inside : k < sliceCount width length) : 0 < (slice width k xs).length := by
  have begins := (lt_sliceCount_iff pos).mp inside
  rw [slice_length, size]
  omega

theorem flatten_slices_take (width n : Nat) (xs : List α) :
    ((List.range n).map fun k => slice width k xs).flatten = xs.take (width * n) := by
  induction n with
  | zero => simp
  | succ n ih =>
    rw [List.range_succ, List.map_append, List.flatten_append, ih, Nat.mul_succ, List.take_add]
    simp [slice]

/-- The slices in order are the list. -/
theorem flatten_slices {width : Nat} (pos : 0 < width) (xs : List α) : (slices width xs).flatten = xs := by
  have all : xs.length ≤ width * sliceCount width xs.length :=
    Nat.le_of_not_lt fun more => Nat.lt_irrefl _ ((lt_sliceCount_iff pos).mpr more)
  rw [slices, flatten_slices_take, List.take_of_length_le all]

example : slices 5 [1, 2, 3, 4, 5, 6, 7] = [[1, 2, 3, 4, 5], [6, 7]] := by decide

end Lib
