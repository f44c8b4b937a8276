import Mathlib.Data.List.Basic

/-!
# Entries in layers

A map kept as the list of its entries in the order of their insertion, and a stack
of named maps that is searched from the top: a key has the value of the first
layer that holds it, and an update is made in the first layer that meets a
condition. The lemmas say what an update does to the key it is for, and that it
leaves every other key alone.
-/

namespace Lib

section Entries

variable {κ ν : Type*} [DecidableEq κ]

/-- Replace the value of `key` where it stands, or append the entry. -/
def assign (key : κ) (value : ν) : List (κ × ν) → List (κ × ν)
  | [] => [(key, value)]
  | (k, v) :: rest => if key = k then (key, value) :: rest else (k, v) :: assign key value rest

def erase (key : κ) (entries : List (κ × ν)) : List (κ × ν) := entries.filter fun e => e.1 ≠ key

@[simp] theorem lookup_assign_self (key : κ) (value : ν) (entries : List (κ × ν)) :
    (assign key value entries).lookup key = some value := by
  induction entries with
  | nil => simp [assign]
  | cons e rest ih =>
    rw [assign]
    split
    · exact List.lookup_cons_self
    · next different => rw [List.lookup_cons, beq_eq_false_iff_ne.mpr different]; exact ih

theorem lookup_assign_other {key other : κ} (different : other ≠ key) (value : ν) (entries : List (κ × ν)) :
    (assign key value entries).lookup other = entries.lookup other := by
  have miss : (other == key) = false := beq_eq_false_iff_ne.mpr different
  induction entries with
  | nil => rw [assign, List.lookup_cons, miss]
  | cons e rest ih =>
    rw [assign]
    split
    · next same => subst same; rw [List.lookup_cons, List.lookup_cons, miss]
    · rw [List.lookup_cons, List.lookup_cons, ih]

/-- Assigning the value that is there changes nothing. -/
theorem assign_same {key : κ} {value : ν} {entries : List (κ × ν)} (there : entries.lookup key = some value) :
    assign key value entries = entries := by
  induction entries with
  | nil => cases there
  | cons e rest ih =>
    rw [List.lookup_cons] at there
    rw [assign]
    split
    · next same =>
      rw [beq_iff_eq.mpr same] at there
      rw [same, ← Option.some.inj there]
    · next different =>
      rw [beq_eq_false_iff_ne.mpr different] at there
      rw [ih there]

theorem mem_assign {key : κ} {value : ν} {entries : List (κ × ν)} :
    ∀ e ∈ assign key value entries, e = (key, value) ∨ e ∈ entries := by
  induction entries with
  | nil => exact fun e there => .inl (List.mem_singleton.mp there)
  | cons head rest ih =>
    intro e there
    rw [assign] at there
    split at there
    · exact (List.mem_cons.mp there).imp_right (List.mem_cons_of_mem head)
    · rcases List.mem_cons.mp there with rfl | behind
      · exact .inr List.mem_cons_self
      · exact (ih e behind).imp_right (List.mem_cons_of_mem head)

/-- Values that are read off the keys. -/
theorem map_assign {μ : Type*} (read : κ → μ) (key : κ) (value : ν) (entries : List (κ × ν)) :
    (assign key value entries).map (fun e => (e.1, read e.1)) =
      assign key (read key) (entries.map fun e => (e.1, read e.1)) := by
  induction entries with
  | nil => rfl
  | cons e rest ih =>
    rw [assign, List.map_cons, assign]
    split
    · rfl
    · rw [List.map_cons, ih]

theorem mem_keys_assign (key : κ) (value : ν) (entries : List (κ × ν)) {other : κ} :
    other ∈ (assign key value entries).map Prod.fst ↔ other = key ∨ other ∈ entries.map Prod.fst := by
  induction entries with
  | nil => simp [assign]
  | cons e rest ih =>
    rw [assign]
    split
    · next same => simp [same]
    · simp only [List.map_cons, List.mem_cons, ih]
      tauto

/-- An assignment keeps the keys distinct. -/
theorem nodup_assign {key : κ} {value : ν} {entries : List (κ × ν)} (distinct : (entries.map Prod.fst).Nodup) :
    ((assign key value entries).map Prod.fst).Nodup := by
  induction entries with
  | nil => exact List.pairwise_singleton _ key
  | cons head rest ih =>
    obtain ⟨fresh, others⟩ := List.nodup_cons.mp distinct
    rw [assign]
    split
    · next same => exact List.nodup_cons.mpr ⟨same ▸ fresh, others⟩
    · next different =>
      refine List.nodup_cons.mpr ⟨fun there => ?_, ih others⟩
      obtain ⟨e, member, same⟩ := List.mem_map.mp there
      rcases mem_assign e member with rfl | old
      · exact different same
      · exact fresh (List.mem_map.mpr ⟨e, old, same⟩)

@[simp] theorem lookup_erase_self (key : κ) (entries : List (κ × ν)) : (erase key entries).lookup key = none := by
  rw [List.lookup_eq_none_iff]
  intro e kept
  have other : e.1 ≠ key := of_decide_eq_true (List.mem_filter.mp kept).2
  exact bne_iff_ne.mpr other.symm

theorem lookup_erase_other {key other : κ} (different : other ≠ key) (entries : List (κ × ν)) :
    (erase key entries).lookup other = entries.lookup other := by
  induction entries with
  | nil => rfl
  | cons e rest ih =>
    by_cases same : e.1 = key
    · have miss : (other == e.1) = false := beq_eq_false_iff_ne.mpr fun h => different (h.trans same)
      rw [erase, List.filter_cons_of_neg (by simpa using same), List.lookup_cons, miss]
      exact ih
    · rw [erase, List.filter_cons_of_pos (by simpa using same), List.lookup_cons, List.lookup_cons]
      rw [← erase, ih]

end Entries

section Layers

variable {π κ ν : Type*}

/-- Change the first element that meets the condition. -/
def onFirst {α : Type*} (meets : α → Bool) (change : α → α) : List α → List α
  | [] => []
  | a :: rest => if meets a then change a :: rest else a :: onFirst meets change rest

/-- What the change keeps of an element, it keeps of the whole list. -/
theorem map_onFirst {α β : Type*} {meets : α → Bool} {change : α → α} {view : α → β}
    (keep : ∀ a, view (change a) = view a) (l : List α) : (onFirst meets change l).map view = l.map view := by
  induction l with
  | nil => rfl
  | cons a rest ih =>
    rw [onFirst]
    split
    · rw [List.map_cons, List.map_cons, keep]
    · rw [List.map_cons, List.map_cons, ih]

theorem mem_onFirst {α : Type*} {meets : α → Bool} {change : α → α} {l : List α} :
    ∀ x ∈ onFirst meets change l, x ∈ l ∨ ∃ a ∈ l, x = change a := by
  induction l with
  | nil => exact fun x there => .inl there
  | cons a rest ih =>
    intro x there
    rw [onFirst] at there
    split at there
    · rcases List.mem_cons.mp there with rfl | behind
      · exact .inr ⟨a, List.mem_cons_self, rfl⟩
      · exact .inl (List.mem_cons_of_mem a behind)
    · rcases List.mem_cons.mp there with rfl | behind
      · exact .inl List.mem_cons_self
      · rcases ih x behind with old | ⟨b, member, changed⟩
        · exact .inl (List.mem_cons_of_mem a old)
        · exact .inr ⟨b, List.mem_cons_of_mem a member, changed⟩

variable [DecidableEq κ]

abbrev Layer (π κ ν : Type*) := π × List (κ × ν)

/-- The value of `key` in the first layer that holds it. -/
def find? (key : κ) (layers : List (Layer π κ ν)) : Option ν := layers.findSome? fun l => l.2.lookup key

def holds (key : κ) (layer : Layer π κ ν) : Bool := (layer.2.lookup key).isSome

def assignIn (key : κ) (value : ν) (layer : Layer π κ ν) : Layer π κ ν := (layer.1, assign key value layer.2)

def eraseIn (key : κ) (layer : Layer π κ ν) : Layer π κ ν := (layer.1, erase key layer.2)

theorem find?_cons_of_holds {key : κ} {layer : Layer π κ ν} (held : holds key layer) (rest : List (Layer π κ ν)) :
    find? key (layer :: rest) = layer.2.lookup key := by
  obtain ⟨v, found⟩ := Option.isSome_iff_exists.mp held
  rw [find?, List.findSome?_cons, found]

theorem find?_cons_of_not_holds {key : κ} {layer : Layer π κ ν} (free : ¬ holds key layer)
    (rest : List (Layer π κ ν)) : find? key (layer :: rest) = find? key rest := by
  rw [find?, List.findSome?_cons, Option.not_isSome_iff_eq_none.mp free]
  rfl

theorem find?_isSome (key : κ) (layers : List (Layer π κ ν)) : (find? key layers).isSome = layers.any (holds key) :=
  List.isSome_findSome?

theorem find?_eq_none {key : κ} {layers : List (Layer π κ ν)} :
    find? key layers = none ↔ ∀ l ∈ layers, ¬ holds key l := by
  rw [← Option.not_isSome_iff_eq_none, find?_isSome, List.any_eq_true]
  exact ⟨fun no l there held => no ⟨l, there, held⟩, fun free ⟨l, there, held⟩ => free l there held⟩

/-- The first layer decides as the entries of all layers in order do. -/
theorem lookup_flatten (key : κ) (layers : List (Layer π κ ν)) :
    (layers.flatMap Prod.snd).lookup key = find? key layers := by
  induction layers with
  | nil => rfl
  | cons l rest ih =>
    rw [List.flatMap_cons, List.lookup_append, ih, find?, find?, List.findSome?_cons]
    cases l.2.lookup key <;> rfl

/-- An update that keeps the value of `other` in each layer keeps it in the stack. -/
theorem find?_onFirst_other {other : κ} {meets : Layer π κ ν → Bool} {change : Layer π κ ν → Layer π κ ν}
    (keep : ∀ l, (change l).2.lookup other = l.2.lookup other) (layers : List (Layer π κ ν)) :
    find? other (onFirst meets change layers) = find? other layers := by
  have views : (onFirst meets change layers).map (fun l => l.2.lookup other) = layers.map fun l => l.2.lookup other :=
    map_onFirst keep layers
  have by_views (ls : List (Layer π κ ν)) : find? other ls = (ls.map fun l => l.2.lookup other).findSome? id := by
    rw [List.findSome?_map]; rfl
  rw [by_views, views, ← by_views]

/-- An assignment in the first layer that meets the condition is what is found, if
no layer above that one holds the key. -/
theorem find?_assignIn_self {key : κ} (value : ν) {meets : Layer π κ ν → Bool} {layers : List (Layer π κ ν)}
    (covers : ∀ l ∈ layers, holds key l → meets l) (some_meets : ∃ l ∈ layers, meets l) :
    find? key (onFirst meets (assignIn key value) layers) = some value := by
  induction layers with
  | nil => obtain ⟨l, there, -⟩ := some_meets; cases there
  | cons l rest ih =>
    rw [onFirst]
    split
    · rw [find?_cons_of_holds (by simp [holds, assignIn])]
      exact lookup_assign_self key value l.2
    · next fails =>
      rw [find?_cons_of_not_holds fun held => fails (covers l List.mem_cons_self held)]
      refine ih (fun m there => covers m (List.mem_cons_of_mem _ there)) ?_
      obtain ⟨m, there, good⟩ := some_meets
      rcases List.mem_cons.mp there with rfl | later
      · exact absurd good fails
      · exact ⟨m, later, good⟩

/-- Assigning what is found changes nothing. -/
theorem onFirst_assignIn_same {key : κ} {value : ν} {layers : List (Layer π κ ν)}
    (found : find? key layers = some value) : onFirst (holds key) (assignIn key value) layers = layers := by
  induction layers with
  | nil => rfl
  | cons l rest ih =>
    rw [onFirst]
    split
    · next held =>
      rw [find?_cons_of_holds held] at found
      rw [assignIn, assign_same found]
    · next free =>
      rw [find?_cons_of_not_holds free] at found
      rw [ih found]

/-- Erased in the first layer that holds it, a key is gone iff no other layer holds it. -/
theorem find?_eraseIn_self {key : κ} (layers : List (Layer π κ ν)) :
    find? key (onFirst (holds key) (eraseIn key) layers) = none ↔ layers.countP (holds key) ≤ 1 := by
  induction layers with
  | nil => simp [onFirst, find?]
  | cons l rest ih =>
    rw [onFirst]
    split
    · next held =>
      rw [find?_cons_of_not_holds (by simp [holds, eraseIn]), List.countP_cons_of_pos held, find?_eq_none,
        ← List.countP_eq_zero]
      omega
    · next free =>
      rw [find?_cons_of_not_holds free, List.countP_cons_of_neg free]
      exact ih

/-- Erasing a key that is found changes something. -/
theorem onFirst_eraseIn_ne {key : κ} {layers : List (Layer π κ ν)} (found : (find? key layers).isSome) :
    onFirst (holds key) (eraseIn key) layers ≠ layers := by
  induction layers with
  | nil => cases found
  | cons l rest ih =>
    rw [onFirst]
    split
    · next held =>
      intro same
      have erased : (erase key l.2).lookup key = l.2.lookup key := by
        rw [← (Prod.mk.inj (List.cons.inj same).1).2]; simp
      rw [lookup_erase_self] at erased
      rw [holds, ← erased] at held
      cases held
    · next free =>
      rw [find?_cons_of_not_holds free] at found
      exact fun same => ih found (List.cons.inj same).2

end Layers

end Lib
