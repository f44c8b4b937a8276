import Mathlib.Algebra.Order.Floor.Semiring
import Mathlib.Data.List.Chain
import Mathlib.Tactic.Linarith

/-!
# Spaced times

Times in order of which any two are some gap apart, and how many of them there can be in a
stretch of time.
-/

namespace Lib

variable {R : Type*} [Field R] [LinearOrder R] [IsStrictOrderedRing R] {gap : R}

/-- Every time is at least the gap after all those before it. -/
def Spaced (gap : R) (times : List R) : Prop := times.Pairwise fun a b => gap ≤ b - a

/-- What the gaps between the first time and a later one come to. -/
theorem Spaced.span {first last : R} {times : List R} (spaced : Spaced gap (first :: times))
    (inside : ∀ t ∈ first :: times, t ≤ last) : times.length * gap ≤ last - first := by
  induction times generalizing first with
  | nil =>
    have ends := inside first List.mem_cons_self
    simp only [List.length_nil, Nat.cast_zero, zero_mul]
    linarith
  | cons next times ih =>
    obtain ⟨apart, rest⟩ := List.pairwise_cons.mp spaced
    have after := ih rest fun t member => inside t (List.mem_cons_of_mem _ member)
    have gap := apart next List.mem_cons_self
    simp only [List.length_cons, Nat.cast_add, Nat.cast_one, add_mul, one_mul]
    linarith

/-- A stretch of time holds at most one time more than gaps fit into it. -/
theorem Spaced.length_le [FloorSemiring R] {begins width : R} {times : List R} (spaced : Spaced gap times)
    (pos : 0 < gap) (inside : ∀ t ∈ times, begins ≤ t ∧ t ≤ begins + width) : times.length ≤ ⌊width / gap⌋₊ + 1 := by
  cases times with
  | nil => exact Nat.zero_le _
  | cons first times =>
    have span := spaced.span fun t member => (inside t member).2
    have starts := (inside first List.mem_cons_self).1
    have fits : (times.length : R) ≤ width / gap := by
      rw [le_div_iff₀ pos]
      linarith
    rw [List.length_cons]
    exact Nat.succ_le_succ (Nat.le_floor fits)

/-- Where each time is the gap after the one before it, any two are. -/
theorem spaced_iff_isChain (pos : 0 ≤ gap) {times : List R} :
    Spaced gap times ↔ times.IsChain fun a b => gap ≤ b - a := by
  have trans : IsTrans R fun a b => gap ≤ b - a := ⟨by
    intro a b c first second
    linarith⟩
  exact ⟨List.Pairwise.isChain, List.isChain_iff_pairwise.mp⟩

end Lib
