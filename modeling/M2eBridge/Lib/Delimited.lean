import Mathlib.Data.List.Infix
import Mathlib.Tactic.Common

/-!
# Delimited parts of a list

An occurrence is a part of a list that stands between an opener and a closer and holds
plain elements only. `find` gives the leftmost occurrence, and the shortest of those that
begin there, as a search with a lazy quantifier does (`find_eq_some`). `Split` is a list
cut into its leftmost occurrences, each searched for behind the one before.
-/

namespace Lib

/-- What an occurrence begins and ends with, and what it may hold. -/
structure Delimiters (α : Type*) where
  opener : List α
  closer : List α
  plain : α → Bool
  opener_ne : opener ≠ []
  closer_ne : closer ≠ []

/-- An occurrence, with what stands before and behind it. -/
structure Found (α : Type*) where
  before : List α
  content : List α
  behind : List α
  deriving DecidableEq

namespace Delimiters

variable {α : Type*} (d : Delimiters α)

/-- The text of an occurrence. -/
def around (content : List α) : List α := d.opener ++ content ++ d.closer

structure Occurs (f : Found α) (s : List α) : Prop where
  text : s = f.before ++ d.around f.content ++ f.behind
  plain : ∀ a ∈ f.content, d.plain a

structure Leftmost (f : Found α) (s : List α) : Prop where
  occurs : d.Occurs f s
  first : ∀ g, d.Occurs g s → f.before.length ≤ g.before.length
  shortest : ∀ g, d.Occurs g s → g.before = f.before → f.content.length ≤ g.content.length

section Search

variable [DecidableEq α]

/-- What stands before the first closer, and behind it. -/
def upToCloser : List α → Option (List α × List α)
  | [] => none
  | a :: s =>
    if d.closer <+: a :: s then some ([], (a :: s).drop d.closer.length)
    else if d.plain a then (upToCloser s).map fun (content, behind) => (a :: content, behind)
    else none

/-- An occurrence that begins here. -/
def here (s : List α) : Option (Found α) :=
  if d.opener <+: s then
    (d.upToCloser (s.drop d.opener.length)).map fun (content, behind) => ⟨[], content, behind⟩
  else none

def find : List α → Option (Found α)
  | [] => none
  | a :: s =>
    match d.here (a :: s) with
    | some f => some f
    | none => (find s).map fun f => { f with before := a :: f.before }

variable {d}

theorem upToCloser_text {s content behind : List α} (found : d.upToCloser s = some (content, behind)) :
    s = content ++ d.closer ++ behind ∧ ∀ a ∈ content, d.plain a := by
  induction s generalizing content with
  | nil => cases found
  | cons a s ih =>
    simp only [upToCloser] at found
    split at found
    case isTrue closes =>
      cases found
      obtain ⟨behind, text⟩ := closes
      simp [← text]
    case isFalse =>
      split at found
      case isTrue plain =>
        obtain ⟨⟨c, b⟩, rest, same⟩ := Option.map_eq_some_iff.mp found
        cases same
        obtain ⟨text, others⟩ := ih rest
        exact ⟨by simp [text], List.forall_mem_cons.mpr ⟨plain, others⟩⟩
      case isFalse => cases found

theorem upToCloser_least {s content behind : List α} (found : d.upToCloser s = some (content, behind))
    {content' behind' : List α} (text : s = content' ++ d.closer ++ behind') : content.length ≤ content'.length := by
  induction s generalizing content content' with
  | nil => cases found
  | cons a s ih =>
    simp only [upToCloser] at found
    split at found
    case isTrue => cases found; exact Nat.zero_le _
    case isFalse open_ =>
      split at found
      case isTrue =>
        obtain ⟨⟨c, b⟩, rest, same⟩ := Option.map_eq_some_iff.mp found
        cases same
        cases content' with
        | nil => exact absurd ⟨behind', text.symm⟩ open_
        | cons a' content' => exact Nat.succ_le_succ (ih rest (List.cons.inj text).2)
      case isFalse => cases found

theorem upToCloser_none {s : List α} (none_ : d.upToCloser s = none) {content behind : List α}
    (text : s = content ++ d.closer ++ behind) : ¬ ∀ a ∈ content, d.plain a := by
  induction s generalizing content with
  | nil =>
    simp only [List.nil_eq, List.append_eq_nil_iff] at text
    exact absurd text.1.2 d.closer_ne
  | cons a s ih =>
    simp only [upToCloser] at none_
    split at none_
    case isTrue => cases none_
    case isFalse open_ =>
      cases content with
      | nil => exact absurd ⟨behind, text.symm⟩ open_
      | cons a' content =>
        obtain ⟨rfl, rest⟩ := List.cons.inj text
        intro plain
        obtain ⟨here, others⟩ := List.forall_mem_cons.mp plain
        rw [if_pos here, Option.map_eq_none_iff] at none_
        exact ih none_ rest others

theorem here_eq_some {s : List α} {f : Found α} (found : d.here s = some f) :
    f.before = [] ∧ d.Occurs f s ∧ ∀ g, d.Occurs g s → g.before = [] → f.content.length ≤ g.content.length := by
  unfold here at found
  split at found
  case isTrue opens =>
    obtain ⟨rest, rfl⟩ := opens
    rw [List.drop_left] at found
    obtain ⟨⟨content, behind⟩, closed, rfl⟩ := Option.map_eq_some_iff.mp found
    obtain ⟨text, plain⟩ := upToCloser_text closed
    refine ⟨rfl, ⟨by simp [around, text], plain⟩, fun g occurs start => ?_⟩
    have same := occurs.text
    rw [start, List.nil_append, around, List.append_assoc, List.append_assoc] at same
    have closes : rest = g.content ++ d.closer ++ g.behind := by
      rw [List.append_cancel_left same, List.append_assoc]
    exact upToCloser_least closed closes
  case isFalse => cases found

theorem here_eq_none {s : List α} (none_ : d.here s = none) (g : Found α) (occurs : d.Occurs g s) : g.before ≠ [] := by
  intro start
  have text := occurs.text
  rw [start, List.nil_append, around, List.append_assoc, List.append_assoc] at text
  have opens : d.opener <+: s := ⟨_, text.symm⟩
  rw [here, if_pos opens, Option.map_eq_none_iff] at none_
  have closes : s.drop d.opener.length = g.content ++ d.closer ++ g.behind := by
    rw [text, List.drop_left, List.append_assoc]
  exact upToCloser_none none_ closes occurs.plain

omit [DecidableEq α] in
/-- An occurrence that begins later begins in the tail. -/
theorem Occurs.tail {f : Found α} {a : α} {s : List α} (occurs : d.Occurs f (a :: s)) (later : f.before ≠ []) :
    ∃ before, f.before = a :: before ∧ d.Occurs { f with before } s := by
  obtain ⟨text, plain⟩ := occurs
  cases start : f.before with
  | nil => exact absurd start later
  | cons b before =>
    rw [start] at text
    obtain ⟨rfl, rest⟩ := List.cons.inj text
    exact ⟨before, rfl, rest, plain⟩

theorem find_leftmost {s : List α} : ∀ {f : Found α}, d.find s = some f → d.Leftmost f s := by
  induction s with
  | nil => intro f found; cases found
  | cons a s ih =>
    intro f found
    simp only [find] at found
    split at found
    case h_1 at_ =>
      cases found
      obtain ⟨start, occurs, least⟩ := here_eq_some at_
      exact ⟨occurs, fun g _ => by simp [start], fun g other same => least g other (same.trans start)⟩
    case h_2 none_ =>
      obtain ⟨g, inner, rfl⟩ := Option.map_eq_some_iff.mp found
      obtain ⟨⟨text, plain⟩, first, shortest⟩ := ih inner
      refine ⟨⟨congrArg (a :: ·) text, plain⟩, fun h occurs => ?_, fun h occurs same => ?_⟩
      · obtain ⟨before, start, occurs⟩ := occurs.tail (here_eq_none none_ h occurs)
        rw [start]
        exact Nat.succ_le_succ (first _ occurs)
      · obtain ⟨before, start, occurs⟩ := occurs.tail (here_eq_none none_ h occurs)
        exact shortest { h with before } occurs (List.cons.inj (start.symm.trans same)).2

theorem find_none {s : List α} (none_ : d.find s = none) : ∀ f, ¬ d.Occurs f s := by
  induction s with
  | nil =>
    intro f occurs
    have text := occurs.text
    simp only [around, List.nil_eq, List.append_eq_nil_iff] at text
    exact d.opener_ne text.1.2.1.1
  | cons a s ih =>
    intro f occurs
    simp only [find] at none_
    split at none_
    case h_1 => cases none_
    case h_2 at_ =>
      obtain ⟨before, _, occurs⟩ := occurs.tail (here_eq_none at_ f occurs)
      exact ih (Option.map_eq_none_iff.mp none_) _ occurs

end Search

variable {d}

theorem Leftmost.unique {f g : Found α} {s : List α} (one : d.Leftmost f s) (two : d.Leftmost g s) : f = g := by
  have starts : f.before.length = g.before.length := Nat.le_antisymm (one.first g two.occurs) (two.first f one.occurs)
  have text := one.occurs.text.symm.trans two.occurs.text
  rw [List.append_assoc, List.append_assoc] at text
  obtain ⟨before, rest⟩ := List.append_inj text starts
  have sizes : f.content.length = g.content.length :=
    Nat.le_antisymm (one.shortest g two.occurs before.symm) (two.shortest f one.occurs before)
  simp only [around, List.append_assoc] at rest
  obtain ⟨content, rest⟩ := List.append_inj (List.append_cancel_left rest) sizes
  have behind := List.append_cancel_left rest
  cases f
  cases g
  simp_all

/-- The search with a lazy quantifier. -/
theorem find_eq_some [DecidableEq α] {s : List α} {f : Found α} : d.find s = some f ↔ d.Leftmost f s := by
  refine ⟨find_leftmost, fun leftmost => ?_⟩
  cases found : d.find s with
  | none => exact absurd leftmost.occurs (find_none found f)
  | some g => rw [(find_leftmost found).unique leftmost]

theorem find_eq_none [DecidableEq α] {s : List α} : d.find s = none ↔ ∀ f, ¬ d.Occurs f s := by
  refine ⟨find_none, fun none_ => ?_⟩
  cases found : d.find s with
  | none => rfl
  | some f => exact absurd (find_leftmost found).occurs (none_ f)

theorem Occurs.length {f : Found α} {s : List α} (occurs : d.Occurs f s) :
    s.length = f.before.length + (d.around f.content).length + f.behind.length := by
  rw [occurs.text, List.length_append, List.length_append]

theorem around_pos (content : List α) : 0 < (d.around content).length := by
  have opener := List.length_pos_iff.mpr d.opener_ne
  simp only [around, List.length_append]
  omega

/-- Content that the closer does not begin in is an occurrence by itself. -/
theorem Leftmost.alone {content rest : List α} {a : α} (closer : d.closer = a :: rest)
    (plain : ∀ x ∈ content, d.plain x) (free : a ∉ content) : d.Leftmost ⟨[], content, []⟩ (d.around content) where
  occurs := ⟨by simp, plain⟩
  first := fun _ _ => Nat.zero_le _
  shortest := by
    intro g occurs start
    have text := occurs.text
    rw [start, List.nil_append, around, around, List.append_assoc, List.append_assoc, List.append_assoc,
      List.append_cancel_left_eq, closer] at text
    by_contra shorter
    have inside : g.content.length < content.length := Nat.lt_of_not_le shorter
    have here := congrArg (·[g.content.length]?) text
    simp only [List.getElem?_append_left inside, List.getElem?_append_right (Nat.le_refl g.content.length), Nat.sub_self,
      List.cons_append, List.getElem?_cons_zero] at here
    exact free (List.mem_of_getElem? here)

/-! ## All of them -/

variable (d) in
/-- The leftmost occurrences of a list, each with what stands before it, and the rest. -/
inductive Split : List α → List (List α × List α) → List α → Prop where
  | last {s : List α} (none_ : ∀ f, ¬ d.Occurs f s) : Split s [] s
  | piece {s : List α} {f : Found α} {pieces : List (List α × List α)} {last : List α} (leftmost : d.Leftmost f s)
      (rest : Split f.behind pieces last) : Split s ((f.before, f.content) :: pieces) last

theorem Split.total [DecidableEq α] (d : Delimiters α) (s : List α) : ∃ pieces last, d.Split s pieces last := by
  induction size : s.length using Nat.strong_induction_on generalizing s with
  | _ n ih =>
    cases found : d.find s with
    | none => exact ⟨[], s, .last (find_none found)⟩
    | some f =>
      have leftmost := find_eq_some.mp found
      have shorter := leftmost.occurs.length
      have pos := d.around_pos f.content
      obtain ⟨pieces, last, rest⟩ := ih _ (by omega) f.behind rfl
      exact ⟨_, last, .piece leftmost rest⟩

variable (d) in
/-- The list that was cut into pieces. -/
def joined : List (List α × List α) → List α → List α
  | [], last => last
  | piece :: rest, last => piece.1 ++ d.around piece.2 ++ joined rest last

theorem Split.joined {s : List α} {pieces : List (List α × List α)} {last : List α} (split : d.Split s pieces last) :
    d.joined pieces last = s := by
  induction split with
  | last => rfl
  | piece leftmost _ ih => rw [Delimiters.joined, ih, leftmost.occurs.text]

variable (d) in
/-- The occurrences that a list was cut into, each with what stands behind it. -/
def tails : List (List α × List α) → List α → List (List α × List α)
  | [], _ => []
  | piece :: rest, last => (piece.2, d.joined rest last) :: tails rest last

/-- Behind an occurrence there is less than the whole. -/
theorem tails_shorter {pieces : List (List α × List α)} {last content behind : List α}
    (member : (content, behind) ∈ d.tails pieces last) : behind.length < (d.joined pieces last).length := by
  induction pieces with
  | nil => cases member
  | cons piece rest ih =>
    have pos := d.around_pos piece.2
    have less : (d.joined rest last).length < (d.joined (piece :: rest) last).length := by
      simp only [joined, List.length_append]
      omega
    rcases List.mem_cons.mp member with same | later
    · cases same
      exact less
    · exact (ih later).trans less

/-- The leftmost occurrence with a part of what stands behind it. -/
theorem Leftmost.part {f : Found α} {s : List α} (leftmost : d.Leftmost f s) {behind more : List α}
    (cut : f.behind = behind ++ more) : d.Leftmost ⟨[], f.content, behind⟩ (d.around f.content ++ behind) := by
  obtain ⟨⟨text, plain⟩, _, shortest⟩ := leftmost
  refine ⟨⟨rfl, plain⟩, fun _ _ => Nat.zero_le _, fun g occurs start => ?_⟩
  refine shortest ⟨f.before, g.content, g.behind ++ more⟩ ⟨?_, occurs.plain⟩ rfl
  have inside := occurs.text
  rw [start, List.nil_append] at inside
  rw [text, cut, List.append_assoc, ← List.append_assoc _ behind, inside]
  simp only [List.append_assoc]

/-- An occurrence is not less far from the end than the leftmost one. -/
theorem Leftmost.behind {f g : Found α} {s : List α} (leftmost : d.Leftmost f s) (occurs : d.Occurs g s) :
    g.behind <:+ f.behind := by
  have text := leftmost.occurs.text
  have text' := occurs.text
  have first := leftmost.first g occurs
  simp only [around, List.append_assoc] at text text'
  -- the opener of the leftmost one stands before the content of the other one ends
  have opened : f.before ++ d.opener <+: s := ⟨f.content ++ (d.closer ++ f.behind), by rw [text, List.append_assoc]⟩
  have held : g.before ++ d.opener ++ g.content <+: s :=
    ⟨d.closer ++ g.behind, by rw [text', List.append_assoc, List.append_assoc]⟩
  obtain ⟨between, same⟩ := List.prefix_of_prefix_length_le opened held (by simp only [List.length_append]; omega)
  have rest : f.content ++ (d.closer ++ f.behind) = between ++ (d.closer ++ g.behind) := by
    have whole : f.before ++ d.opener ++ (f.content ++ (d.closer ++ f.behind)) =
        f.before ++ d.opener ++ (between ++ (d.closer ++ g.behind)) := by
      rw [← List.append_assoc _ between, same, List.append_assoc, List.append_assoc, List.append_assoc, ← text, text']
    exact List.append_cancel_left whole
  -- so that the content of the leftmost one is no longer than what stands up to the closer of the other
  have least : f.content.length ≤ between.length := by
    rcases Nat.le_total f.content.length between.length with le | ge
    · exact le
    · have inside : between <+: f.content := List.prefix_of_prefix_length_le ⟨_, rest.symm⟩ ⟨_, rfl⟩ ge
      refine leftmost.shortest ⟨f.before, between, g.behind⟩ ⟨?_, fun a member => ?_⟩ rfl
      · simp only [around, List.append_assoc]
        rw [← rest, text]
      · exact leftmost.occurs.plain a (inside.mem member)
  have one : g.behind <:+ s := ⟨_, occurs.text.symm⟩
  have two : f.behind <:+ s := ⟨_, leftmost.occurs.text.symm⟩
  have sizes := congrArg List.length rest
  simp only [List.length_append] at sizes
  exact List.suffix_of_suffix_length_le one two (by omega)

/-- What is put before a list takes no occurrence from it. -/
theorem Split.append_length [DecidableEq α] (more : List α) {s : List α} {pieces pieces' : List (List α × List α)}
    {last last' : List α} (split : d.Split s pieces last) (split' : d.Split (more ++ s) pieces' last') :
    pieces.length ≤ pieces'.length := by
  induction size : (more ++ s).length using Nat.strong_induction_on generalizing more s pieces pieces' last last' with
  | _ n ih =>
    cases split with
    | last => exact Nat.zero_le _
    | @piece _ f rest _ leftmost split =>
      obtain ⟨text, plain⟩ := leftmost.occurs
      have occurs : d.Occurs { f with before := more ++ f.before } (more ++ s) := ⟨by simp [text], plain⟩
      cases split' with
      | last none_ => exact absurd occurs (none_ _)
      | @piece _ g rest' _ leftmost' split' =>
        obtain ⟨between, same⟩ := leftmost'.behind occurs
        have shorter := leftmost'.occurs.length
        have pos := d.around_pos g.content
        rw [← same] at split' shorter
        exact Nat.succ_le_succ (ih _ (by rw [← size]; simp at shorter ⊢; omega) between split split' rfl)

end Delimiters

end Lib
