import Mathlib.Data.List.Basic

/-!
# Fields of a list

A list cut at a separator into fields. The separator ends a field, so that behind the last
one there is another field only if there is anything. `fields_of_scan` is the rule for a
scanner that takes the fields off one after the other.
-/

namespace Lib

variable {α : Type*} [DecidableEq α] {sep : α}

/-- The parts that the separator ends, and what stands behind the last one, if anything. -/
def fields (sep : α) (s : List α) : List (List α) :=
  let parts := s.splitOn sep
  if parts.getLast? = some [] then parts.dropLast else parts

@[simp] theorem fields_nil : fields sep [] = [] := rfl

theorem fields_single {s : List α} (nonempty : s ≠ []) (plain : sep ∉ s) : fields sep s = [s] := by
  have parts : s.splitOn sep = [s] := List.splitOn_eq_singleton plain
  simp [fields, parts, nonempty]

theorem fields_next {first rest : List α} (plain : sep ∉ first) :
    fields sep (first ++ sep :: rest) = first :: fields sep rest := by
  have parts : (first ++ sep :: rest).splitOn sep = first :: rest.splitOn sep :=
    List.splitOn_append_cons_self_of_not_mem plain rest
  obtain ⟨part, behind, cut⟩ := List.exists_cons_of_ne_nil (List.splitOn_ne_nil sep rest)
  simp only [fields, parts, cut, List.getLast?_cons_cons, List.dropLast_cons_cons]
  split <;> rfl

/-- A list is one field, or it has a first field that the separator ends. -/
theorem cut_at (sep : α) (s : List α) : sep ∉ s ∨ ∃ first rest, s = first ++ sep :: rest ∧ sep ∉ first := by
  by_cases inside : sep ∈ s
  · exact .inr (List.eq_append_cons_of_mem inside)
  · exact .inl inside

/-- A scanner that stops at the end, and before it gives the first field of what is left
and goes on behind it, gives the fields of what is left. -/
theorem fields_of_scan {σ : Type*} (left : σ → List α) (scan : σ → List (List α)) (inv : σ → Prop)
    (ends : ∀ s, inv s → left s = [] → scan s = [])
    (last : ∀ s, inv s → left s ≠ [] → sep ∉ left s → scan s = [left s])
    (next : ∀ s first rest, inv s → sep ∉ first → left s = first ++ sep :: rest →
      ∃ t, inv t ∧ left t = rest ∧ scan s = first :: scan t)
    (s : σ) (start : inv s) : scan s = fields sep (left s) := by
  -- what is left becomes shorter with each field
  induction length : (left s).length using Nat.strongRecOn generalizing s with
  | _ n ih =>
    rcases cut_at sep (left s) with plain | ⟨first, rest, cut, plain⟩
    · by_cases empty : left s = []
      · rw [ends s start empty, empty, fields_nil]
      · rw [last s start empty plain, fields_single empty plain]
    · obtain ⟨t, kept, behind, given⟩ := next s first rest start plain cut
      have shorter : (left t).length < n := by
        rw [← length, behind, cut, List.length_append, List.length_cons]
        omega
      rw [given, ih _ shorter t kept rfl, behind, cut, fields_next plain]

end Lib
