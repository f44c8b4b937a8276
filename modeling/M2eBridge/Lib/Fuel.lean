import Mathlib.Data.Option.Basic

/-!
# Computations with fuel

A computation that is given fuel returns `none` when there is too little. A steady one
returns with more fuel what it has returned with less, so that it ends in one result at most.
-/

namespace Lib.Fuel

variable {α β : Type*}

def Steady (run : Nat → Option α) : Prop := ∀ n x, run n = some x → run (n + 1) = some x

/-- With enough fuel this comes out. -/
def Ends (run : Nat → Option α) (x : α) : Prop := ∃ n, run n = some x

/-- The two end alike. -/
def Same (run run' : Nat → Option α) : Prop := ∀ x, Ends run x ↔ Ends run' x

variable {run run' : Nat → Option α} {x y : α}

theorem Steady.le (steady : Steady run) {n m : Nat} (le : n ≤ m) (ran : run n = some x) : run m = some x := by
  induction le with
  | refl => exact ran
  | step _ ih => exact steady _ _ ih

theorem Steady.unique (steady : Steady run) (ends : Ends run x) (ends' : Ends run y) : x = y := by
  obtain ⟨n, ran⟩ := ends
  obtain ⟨m, ran'⟩ := ends'
  have first := steady.le (Nat.le_max_left n m) ran
  have second := steady.le (Nat.le_max_right n m) ran'
  exact Option.some.inj (first.symm.trans second)

theorem Steady.map (steady : Steady run) (f : α → β) : Steady fun n => (run n).map f := by
  intro n y mapped
  obtain ⟨x, ran, rfl⟩ := Option.map_eq_some_iff.mp mapped
  exact Option.map_eq_some_iff.mpr ⟨x, steady n x ran, rfl⟩

theorem Ends.map (ends : Ends run x) (f : α → β) : Ends (fun n => (run n).map f) (f x) := by
  obtain ⟨n, ran⟩ := ends
  exact ⟨n, congrArg (Option.map f) ran⟩

/-- Two computations that end, end alike when they end in the same. -/
theorem same_iff (steady : Steady run) (steady' : Steady run') (ends : Ends run x) (ends' : Ends run' y) :
    Same run run' ↔ x = y := by
  constructor
  · intro same
    exact steady'.unique ((same x).mp ends) ends'
  · rintro rfl z
    constructor
    · intro here
      exact steady.unique ends here ▸ ends'
    · intro here
      exact steady'.unique ends' here ▸ ends

end Lib.Fuel
