import M2eBridge.Lib.Progress
import Mathlib.Order.WellFounded

/-!
# The run of a part

A system whose steps are those of a part, or leave the part as it is (`Embeds`). Where the part goes on again
and again in a run without end, there is a run without end of the part itself (`Execution.partOf`), and what is
fair or comes up again and again in the one is and does in the other.
-/

namespace Lib

variable {σ τ α β : Type*} {step : α → σ → Option σ} {step' : β → τ → Option τ} {proj : σ → τ} {moves : α → σ → Option β}

variable (step step' proj moves) in
/-- With a step of the system the part takes the one that `moves` tells, or none. -/
def Embeds : Prop :=
  ∀ a s t, step a s = some t → (moves a s).elim (proj t = proj s) fun b => step' b (proj s) = some (proj t)

namespace Execution

variable (run : Execution step)

variable (moves) in
/-- The part goes on at the time. -/
def Moving (n : Nat) : Prop := (moves (run.act n) (run.state n)).isSome = true

instance : DecidablePred (run.Moving moves) := fun _ => inferInstanceAs (Decidable (_ = true))

variable (again : ∀ n, ∃ m, n ≤ m ∧ run.Moving moves m)

/-- The times at which the part goes on. -/
def time : Nat → Nat
  | 0 => Nat.find (again 0)
  | k + 1 => Nat.find (again (time k + 1))

theorem time_moving (k : Nat) : run.Moving moves (run.time again k) := by
  cases k with
  | zero => exact (Nat.find_spec (again 0)).2
  | succ k => exact (Nat.find_spec (again (run.time again k + 1))).2

theorem time_strictMono : StrictMono (run.time again) :=
  strictMono_nat_of_lt_succ fun k => (Nat.find_spec (again (run.time again k + 1))).1

theorem exists_time {m : Nat} (moving : run.Moving moves m) : ∃ k, run.time again k = m := by
  have bounded : ∃ k, m ≤ run.time again k := ⟨m, (run.time_strictMono again).le_apply⟩
  have late := Nat.find_spec bounded
  have first : ∀ j, j < Nat.find bounded → run.time again j < m := fun j early => Nat.not_le.mp (Nat.find_min bounded early)
  refine ⟨Nat.find bounded, le_antisymm ?_ late⟩
  cases index : Nat.find bounded with
  | zero => exact Nat.find_min' (again 0) ⟨Nat.zero_le m, moving⟩
  | succ j => exact Nat.find_min' (again _) ⟨first j (by omega), moving⟩

variable {run} (embeds : Embeds step step' proj moves)

include embeds in
/-- While it does not go on, the part stays as it is. -/
theorem still {n m : Nat} (before : n ≤ m) (rests : ∀ i, n ≤ i → i < m → ¬ run.Moving moves i) :
    proj (run.state m) = proj (run.state n) := by
  induction m, before using Nat.le_induction with
  | base => rfl
  | succ m before ih =>
    have none' : moves (run.act m) (run.state m) = none := by
      simpa [Moving] using rests m before (Nat.lt_succ_self m)
    have kept := embeds _ _ _ (run.next m)
    rw [none', Option.elim_none] at kept
    exact kept.trans (ih fun i after early => rests i after (Nat.lt_succ_of_lt early))

include embeds in
/-- From each time there is one at which the part, still the same, goes on. -/
theorem next_time (n : Nat) : ∃ k, n ≤ run.time again k ∧ proj (run.state (run.time again k)) = proj (run.state n) := by
  obtain ⟨after, moving⟩ := Nat.find_spec (again n)
  obtain ⟨k, same⟩ := run.exists_time again moving
  refine ⟨k, same ▸ after, ?_⟩
  rw [same]
  exact still embeds after fun i late early moves => Nat.find_min (again n) early ⟨late, moves⟩

/-- The run of the part. -/
def partOf (run : Execution step) (embeds : Embeds step step' proj moves) (again : ∀ n, ∃ m, n ≤ m ∧ run.Moving moves m) :
    Execution step' where
  state k := proj (run.state (run.time again k))
  act k := (moves (run.act (run.time again k)) (run.state (run.time again k))).get (run.time_moving again k)
  next k := by
    obtain ⟨b, moved⟩ := Option.isSome_iff_exists.mp (run.time_moving again k)
    have taken := embeds _ _ _ (run.next (run.time again k))
    have kept : proj (run.state (run.time again (k + 1))) = proj (run.state (run.time again k + 1)) :=
      still embeds (run.time_strictMono again (Nat.lt_succ_self k)) fun i late early moves =>
        Nat.find_min (again (run.time again k + 1)) early ⟨late, moves⟩
    rw [moved, Option.elim_some] at taken
    simp only [moved, Option.get_some, kept, taken]

theorem partOf_zero : (run.partOf embeds again).state 0 = proj (run.state 0) :=
  still embeds (Nat.zero_le _) fun _ late early moves => Nat.find_min (again 0) early ⟨late, moves⟩

theorem partOf_act {k : Nat} {b : β} (moved : moves (run.act (run.time again k)) (run.state (run.time again k)) = some b) :
    (run.partOf embeds again).act k = b := by
  simp only [partOf, moved, Option.get_some]

/-- What comes up again and again does so in the part. -/
theorem partOf_recurs {q : τ → Prop} (recurs : ∀ n, ∃ m, n ≤ m ∧ q (proj (run.state m))) (k : Nat) :
    ∃ j, k ≤ j ∧ q ((run.partOf embeds again).state j) := by
  obtain ⟨m, after, holds⟩ := recurs (run.time again k)
  obtain ⟨j, late, same⟩ := next_time again embeds m
  exact ⟨j, (run.time_strictMono again).le_iff_le.mp (after.trans late), (congrArg q same).mpr holds⟩

/-- What is not put off for ever is not put off in the part. -/
theorem Fair.partOf {helpful : α → Prop} {helpful' : β → Prop} (fair : run.Fair helpful)
    (takes : ∀ a s t, helpful a → step a s = some t → ∃ b, moves a s = some b ∧ helpful' b)
    (lets : ∀ s b u, helpful' b → step' b (proj s) = some u → ∃ a t, helpful a ∧ step a s = some t) :
    (run.partOf embeds again).Fair helpful' := by
  intro k
  obtain ⟨m, after, taken | disabled⟩ := fair (run.time again k)
  · obtain ⟨b, moved, help⟩ := takes _ _ _ taken (run.next m)
    obtain ⟨j, rfl⟩ := run.exists_time again (by rw [Moving, moved]; rfl : run.Moving moves m)
    exact ⟨j, (run.time_strictMono again).le_iff_le.mp after, .inl (partOf_act again embeds moved ▸ help)⟩
  · obtain ⟨j, late, same⟩ := next_time again embeds m
    refine ⟨j, (run.time_strictMono again).le_iff_le.mp (after.trans late), .inr fun b help => ?_⟩
    by_contra possible
    obtain ⟨u, enabled⟩ := Option.ne_none_iff_exists'.mp possible
    obtain ⟨a, t, helps, taken⟩ := lets (run.state m) b u help (same ▸ enabled)
    cases (disabled a helps).symm.trans taken

end Execution

end Lib
