import Mathlib.Data.List.Nodup

/-!
# A loop over a list that stops at the first failing element

`stopLoop f l` is `for x in l: x = f x` where `f` may throw: the elements before
the first failure are updated, that element and everything behind it are left as
they were, and the flag says whether the loop came to its end. The effect is not
undone by the failure, so an element for which `f` would have succeeded keeps its
old value exactly when a failing one stands before it (`updated_iff`).
-/

namespace Lib

variable {α : Type*} (f : α → Option α)

/-- Update the elements in order until `f` fails on one of them. -/
def stopLoop : List α → List α × Bool
  | [] => ([], true)
  | a :: rest =>
    match f a with
    | none => (a :: rest, false)
    | some b => (b :: (stopLoop rest).1, (stopLoop rest).2)

variable {f}

theorem stopLoop_cons_none {a : α} (rest : List α) (h : f a = none) :
    stopLoop f (a :: rest) = (a :: rest, false) := by
  simp only [stopLoop, h]

theorem stopLoop_cons_some {a b : α} (rest : List α) (h : f a = some b) :
    stopLoop f (a :: rest) = (b :: (stopLoop f rest).1, (stopLoop f rest).2) := by
  simp only [stopLoop, h]

/-- The loop comes to its end exactly when `f` fails on no element. -/
theorem stopLoop_finished {l : List α} : (stopLoop f l).2 = true ↔ ∀ a ∈ l, (f a).isSome := by
  induction l with
  | nil => simp [stopLoop]
  | cons a rest ih =>
    cases h : f a with
    | none => simp [stopLoop_cons_none rest h, h]
    | some b => simp [stopLoop_cons_some rest h, h, ih]

/-- A loop in which nothing fails is a `map`. -/
theorem stopLoop_eq_map {g : α → α} {l : List α} (succeeds : ∀ a ∈ l, f a = some (g a)) :
    stopLoop f l = (l.map g, true) := by
  induction l with
  | nil => rfl
  | cons a rest ih =>
    rw [stopLoop_cons_some rest (succeeds a List.mem_cons_self),
      ih fun b member => succeeds b (List.mem_cons_of_mem a member)]
    rfl

/-- An element on which `f` fails is never touched. -/
theorem failing_mem_stopLoop {a : α} {l : List α} (fails : f a = none) (member : a ∈ l) :
    a ∈ (stopLoop f l).1 := by
  induction l with
  | nil => cases member
  | cons x rest ih =>
    cases h : f x with
    | none => rwa [stopLoop_cons_none rest h]
    | some b =>
      rw [stopLoop_cons_some rest h]
      rcases List.mem_cons.mp member with rfl | later
      · rw [fails] at h; cases h
      · exact List.mem_cons_of_mem b (ih later)

/-- Behind the loop stand old elements and updated ones. -/
theorem mem_stopLoop {x : α} {l : List α} (member : x ∈ (stopLoop f l).1) : x ∈ l ∨ ∃ a ∈ l, f a = some x := by
  induction l with
  | nil => cases member
  | cons a rest ih =>
    cases h : f a with
    | none =>
      rw [stopLoop_cons_none rest h] at member
      exact .inl member
    | some b =>
      rw [stopLoop_cons_some rest h] at member
      rcases List.mem_cons.mp member with rfl | later
      · exact .inr ⟨a, List.mem_cons_self, h⟩
      · rcases ih later with old | ⟨c, inRest, updated⟩
        · exact .inl (List.mem_cons_of_mem a old)
        · exact .inr ⟨c, List.mem_cons_of_mem a inRest, updated⟩

/-- What every update keeps, the loop keeps. -/
theorem stopLoop_map {β : Type*} {g : α → β} (keep : ∀ a b, f a = some b → g b = g a) (l : List α) :
    (stopLoop f l).1.map g = l.map g := by
  induction l with
  | nil => rfl
  | cons a rest ih =>
    cases h : f a with
    | none => rw [stopLoop_cons_none rest h]
    | some b => simp only [stopLoop_cons_some rest h, List.map_cons, keep a b h, ih]

/-- The element of a key is the old one behind the loop, or the updated one. -/
theorem stopLoop_find? {κ : Type*} [DecidableEq κ] {key : α → κ} (keep : ∀ a b, f a = some b → key b = key a) (k : κ)
    (l : List α) :
    (stopLoop f l).1.find? (fun a => key a = k) = l.find? (fun a => key a = k) ∨
      ∃ a b, l.find? (fun a => key a = k) = some a ∧ f a = some b ∧ (stopLoop f l).1.find? (fun a => key a = k) = some b := by
  induction l with
  | nil => exact .inl rfl
  | cons a rest ih =>
    cases h : f a with
    | none => rw [stopLoop_cons_none rest h]; exact .inl rfl
    | some b =>
      rw [stopLoop_cons_some rest h]
      have same := keep a b h
      by_cases here : key a = k
      · exact .inr ⟨a, b, by simp [here], h, by simp [same, here]⟩
      · simpa [List.find?_cons, same, here] using ih

/-- It is the updated one when the loop comes to its end. -/
theorem stopLoop_find?_finished {κ : Type*} [DecidableEq κ] {key : α → κ} (keep : ∀ a b, f a = some b → key b = key a)
    (k : κ) {l : List α} (finished : (stopLoop f l).2 = true) :
    (stopLoop f l).1.find? (fun a => key a = k) = (l.find? fun a => key a = k).bind f := by
  have succeeds := stopLoop_finished.mp finished
  clear finished
  induction l with
  | nil => rfl
  | cons a rest ih =>
    obtain ⟨here, behind⟩ := List.forall_mem_cons.mp succeeds
    obtain ⟨b, h⟩ := Option.isSome_iff_exists.mp here
    rw [stopLoop_cons_some rest h]
    have same := keep a b h
    by_cases own : key a = k
    · simp [same, own, h]
    · simpa [List.find?_cons, same, own] using ih behind

/-- No failing element stands before one on which `f` succeeds. -/
def FailsLast (f : α → Option α) (l : List α) : Prop :=
  l.Pairwise fun a b => f a = none → f b = none

instance (f : α → Option α) (l : List α) : Decidable (FailsLast f l) :=
  inferInstanceAs (Decidable (l.Pairwise _))

/-- With distinct keys that `f` keeps, every element on which `f` succeeds is
updated exactly when no failing element stands before one of them. -/
theorem updated_iff {κ : Type*} {key : α → κ} (keep : ∀ a b, f a = some b → key b = key a)
    (changes : ∀ a b, f a = some b → b ≠ a) {l : List α} (distinct : (l.map key).Nodup) :
    (∀ a ∈ l, ∀ b, f a = some b → b ∈ (stopLoop f l).1) ↔ FailsLast f l := by
  induction l with
  | nil => simp [FailsLast]
  | cons a rest ih =>
    obtain ⟨fresh, distinct⟩ := List.nodup_cons.mp distinct
    have apart : ∀ x ∈ rest, ∀ c, f x = some c → key c ≠ key a := fun x member c hc same =>
      fresh (same ▸ keep x c hc ▸ List.mem_map_of_mem member)
    rw [FailsLast, List.pairwise_cons]
    cases h : f a with
    | none =>
      -- the loop stops here with the rest as it was, so `f` must fail on all of it
      rw [stopLoop_cons_none rest h]
      constructor
      · intro updated
        have fails : ∀ x ∈ rest, f x = none := by
          intro x member
          cases hx : f x with
          | none => rfl
          | some c =>
            rcases List.mem_cons.mp (updated x (List.mem_cons_of_mem a member) c hx) with rfl | old
            · exact absurd rfl (apart x member c hx)
            · exact absurd (List.inj_on_of_nodup_map distinct old member (keep x c hx)) (changes x c hx)
        exact ⟨fun x member _ => fails x member,
          List.pairwise_of_forall_mem_list fun x _ y member _ => fails y member⟩
      · rintro ⟨fails, -⟩ x member c hc
        rcases List.mem_cons.mp member with rfl | later
        · rw [h] at hc; cases hc
        · rw [fails x later rfl] at hc; cases hc
    | some b =>
      rw [stopLoop_cons_some rest h, ← FailsLast, ← ih distinct]
      constructor
      · intro updated
        refine ⟨fun _ _ fails => (nomatch fails), fun x member c hc => ?_⟩
        rcases List.mem_cons.mp (updated x (List.mem_cons_of_mem a member) c hc) with rfl | old
        · exact absurd (keep a c h) (apart x member c hc)
        · exact old
      · rintro ⟨-, updated⟩ x member c hc
        rcases List.mem_cons.mp member with rfl | later
        · rw [h] at hc; exact List.mem_cons.mpr (.inl (Option.some.inj hc).symm)
        · exact List.mem_cons_of_mem b (updated x later c hc)

end Lib
