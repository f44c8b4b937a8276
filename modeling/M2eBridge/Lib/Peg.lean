import Mathlib.Tactic.Common

/-!
# Parsing expressions with actions

A rule reads from the front of the input. It matches and leaves the rest, or it does not,
and then the input is as before; or an action of it throws. The state that the actions
change is not taken back when a rule around them does not match. A rule without actions is
the reading it does (`silent`), and one with a single action at its end the reading and
the action (`acting`): these two forms are closed under the combinators that a grammar
puts around them, as far as no action stands before a part that may not match.
-/

namespace Lib

/-- What a rule does: the rest when it matches, and the state that its actions leave. -/
abbrev Rule (α σ ε : Type*) := List α → σ → Except ε (Option (List α)) × σ

namespace Rule

variable {α σ ε : Type*}

def one (p : α → Bool) : Rule α σ ε
  | a :: rest, s => (.ok (if p a then some rest else none), s)
  | [], s => (.ok none, s)

def seq (first second : Rule α σ ε) : Rule α σ ε := fun input s =>
  match first input s with
  | (.ok (some rest), s) => second rest s
  | other => other

def sor (first second : Rule α σ ε) : Rule α σ ε := fun input s =>
  match first input s with
  | (.ok none, s) => second input s
  | other => other

def opt (r : Rule α σ ε) : Rule α σ ε := fun input s =>
  match r input s with
  | (.ok none, s) => (.ok (some input), s)
  | other => other

/-- At most `n` matches; a rule that reads something matches no more often than the input is long. -/
def repeated (r : Rule α σ ε) : Nat → Rule α σ ε
  | 0, input, s => (.ok (some input), s)
  | n + 1, input, s =>
    match r input s with
    | (.ok (some rest), s) => repeated r n rest s
    | (.ok none, s) => (.ok (some input), s)
    | other => other

def star (r : Rule α σ ε) : Rule α σ ε := fun input => repeated r input.length input

def plus (r : Rule α σ ε) : Rule α σ ε := seq r (star r)

/-- The action of a rule, given the text that it has read. -/
def act (r : Rule α σ ε) (f : List α → σ → Except ε Unit × σ) : Rule α σ ε := fun input s =>
  match r input s with
  | (.ok (some rest), s) =>
    match f (input.take (input.length - rest.length)) s with
    | (.ok (), s) => (.ok (some rest), s)
    | (.error e, s) => (.error e, s)
  | other => other

/-! ## What a rule keeps -/

/-- Whether it matches or not, or throws, the rule keeps what holds of the state. -/
def Keeps (inv : σ → Prop) (r : Rule α σ ε) : Prop := ∀ input s, inv s → inv (r input s).2

variable {inv : σ → Prop} {r first second : Rule α σ ε}

theorem keeps_one (p : α → Bool) : Keeps inv (one p : Rule α σ ε)
  | [], _, kept => kept
  | _ :: _, _, kept => kept

theorem Keeps.seq (keepsFirst : Keeps inv first) (keepsSecond : Keeps inv second) : Keeps inv (seq first second) := by
  intro input s kept
  have behind := keepsFirst input s kept
  unfold Rule.seq
  split
  · next rest s' matched => rw [matched] at behind; exact keepsSecond rest s' behind
  · exact behind

theorem Keeps.sor (keepsFirst : Keeps inv first) (keepsSecond : Keeps inv second) : Keeps inv (sor first second) := by
  intro input s kept
  have behind := keepsFirst input s kept
  unfold Rule.sor
  split
  · next s' missed => rw [missed] at behind; exact keepsSecond input s' behind
  · exact behind

theorem Keeps.opt (keeps : Keeps inv r) : Keeps inv (opt r) := by
  intro input s kept
  have behind := keeps input s kept
  unfold Rule.opt
  split
  · next s' missed => rw [missed] at behind; exact behind
  · exact behind

theorem Keeps.repeated (keeps : Keeps inv r) (n : Nat) : Keeps inv (repeated r n) := by
  induction n with
  | zero => exact fun _ _ kept => kept
  | succ n ih =>
    intro input s kept
    have behind := keeps input s kept
    unfold Rule.repeated
    split
    · next rest s' matched => rw [matched] at behind; exact ih rest s' behind
    · next s' missed => rw [missed] at behind; exact behind
    · exact behind

theorem Keeps.star (keeps : Keeps inv r) : Keeps inv (star r) := fun input => keeps.repeated input.length input

theorem Keeps.plus (keeps : Keeps inv r) : Keeps inv (plus r) := keeps.seq keeps.star

/-- An action keeps what it keeps for every text. -/
theorem Keeps.act {f : List α → σ → Except ε Unit × σ} (keeps : Keeps inv r)
    (action : ∀ text s, inv s → inv (f text s).2) : Keeps inv (act r f) := by
  intro input s kept
  have behind := keeps input s kept
  unfold Rule.act
  split
  · next rest s' matched =>
    rw [matched] at behind
    have acted := action (input.take (input.length - rest.length)) s' behind
    split
    · next s'' returned => rw [returned] at acted; exact acted
    · next e s'' thrown => rw [thrown] at acted; exact acted
  · exact behind

/-! ## Readings -/

/-- A rule without actions. -/
def silent (scan : List α → Option (List α)) : Rule α σ ε := fun input s => (.ok (scan input), s)

/-- A reading, and what is done with what was read. -/
def acting {β : Type*} (scan : List α → Option (β × List α)) (f : β → σ → Except ε Unit × σ) : Rule α σ ε :=
  fun input s =>
    match scan input with
    | none => (.ok none, s)
    | some (x, rest) =>
      match f x s with
      | (.ok (), s) => (.ok (some rest), s)
      | (.error e, s) => (.error e, s)

/-- One element. -/
def scanOne (p : α → Bool) : List α → Option (List α)
  | a :: rest => if p a then some rest else none
  | [] => none

theorem one_eq (p : α → Bool) : (one p : Rule α σ ε) = silent (scanOne p) := by
  funext input s
  cases input <;> rfl

theorem seq_silent (first second : List α → Option (List α)) :
    seq (silent first) (silent second) = (silent fun input => (first input).bind second : Rule α σ ε) := by
  funext input s
  simp only [seq, silent]
  cases first input <;> rfl

theorem opt_silent (scan : List α → Option (List α)) :
    opt (silent scan) = (silent fun input => some ((scan input).getD input) : Rule α σ ε) := by
  funext input s
  simp only [opt, silent]
  cases scan input <;> rfl

theorem star_of_one (p : α → Bool) :
    star (one p) = (silent fun input => some (input.dropWhile p) : Rule α σ ε) := by
  funext input s
  have run (input : List α) :
      (one p : Rule α σ ε).repeated input.length input s = (.ok (some (input.dropWhile p)), s) := by
    induction input with
    | nil => rfl
    | cons a rest ih =>
      simp only [List.length_cons, repeated, one, List.dropWhile_cons]
      cases p a with
      | true => exact ih
      | false => rfl
  exact run input

/-- What was read by a silent rule. -/
def consumed (scan : List α → Option (List α)) (input : List α) : Option (List α × List α) :=
  (scan input).map fun rest => (input.take (input.length - rest.length), rest)

theorem act_silent (scan : List α → Option (List α)) (f : List α → σ → Except ε Unit × σ) :
    act (silent scan) f = acting (consumed scan) f := by
  funext input s
  simp only [act, silent, acting, consumed]
  cases scan input <;> rfl

/-- The action of a rule without others may be given what its text stands for. -/
theorem act_silent_of {β : Type*} {scan : List α → Option (List α)} {read : List α → Option (β × List α)}
    (text : β → List α) (same : ∀ input, scan input = (read input).map Prod.snd)
    (sound : ∀ input x rest, read input = some (x, rest) → input = text x ++ rest)
    (f : List α → σ → Except ε Unit × σ) : act (silent scan) f = acting read fun x => f (text x) := by
  funext input s
  rw [act_silent]
  simp only [acting, consumed, same]
  cases found : read input with
  | none => rfl
  | some x =>
    have whole := sound input x.1 x.2 found
    have size : input.length - x.2.length = (text x.1).length := by
      rw [whole, List.length_append, Nat.add_sub_cancel]
    simp only [Option.map_some, size]
    rw [whole, List.take_left]

/-- The first of two readings that matches. -/
def scanEither {β γ δ : Type*} (inl : β → δ) (inr : γ → δ) (first : List α → Option (β × List α))
    (second : List α → Option (γ × List α)) (input : List α) : Option (δ × List α) :=
  match first input with
  | some (x, rest) => some (inl x, rest)
  | none => (second input).map fun (y, rest) => (inr y, rest)

theorem sor_acting {β γ δ : Type*} (inl : β → δ) (inr : γ → δ) (first : List α → Option (β × List α))
    (second : List α → Option (γ × List α)) (f : δ → σ → Except ε Unit × σ) :
    sor (acting first fun x => f (inl x)) (acting second fun y => f (inr y)) =
      acting (scanEither inl inr first second) f := by
  funext input s
  simp only [sor, acting, scanEither]
  cases found : first input with
  | none => cases second input <;> rfl
  | some x =>
    dsimp only
    rcases f (inl x.1) s with ⟨e | ⟨⟩, s'⟩ <;> rfl

/-- A reading that may be left out. -/
def scanOpt {β : Type*} (scan : List α → Option (β × List α)) (input : List α) : Option β × List α :=
  match scan input with
  | some (x, rest) => (some x, rest)
  | none => (none, input)

/-- The action for what may have been left out. -/
def ifAny {β : Type*} (f : β → σ → Except ε Unit × σ) : Option β → σ → Except ε Unit × σ
  | some x, s => f x s
  | none, s => (.ok (), s)

theorem opt_acting {β : Type*} (scan : List α → Option (β × List α)) (f : β → σ → Except ε Unit × σ) :
    opt (acting scan f) = acting (fun input => some (scanOpt scan input)) (ifAny f) := by
  funext input s
  simp only [opt, acting, scanOpt]
  cases found : scan input with
  | none => rfl
  | some x =>
    simp only [ifAny]
    rcases f x.1 s with ⟨e | ⟨⟩, s'⟩ <;> rfl

/-- The actions for a list, up to the first that throws. -/
def forEach {β : Type*} (f : β → σ → Except ε Unit × σ) : List β → σ → Except ε Unit × σ
  | [], s => (.ok (), s)
  | x :: xs, s =>
    match f x s with
    | (.ok (), s) => forEach f xs s
    | other => other

/-- All that can be read one after another. -/
def scanAll {β : Type*} (scan : List α → Option (β × List α)) : Nat → List α → List β × List α
  | 0, input => ([], input)
  | n + 1, input =>
    match scan input with
    | none => ([], input)
    | some (x, rest) => (x :: (scanAll scan n rest).1, (scanAll scan n rest).2)

/-- The actions of a repetition are those for all that it reads. -/
theorem repeated_acting {β : Type*} (scan : List α → Option (β × List α)) (f : β → σ → Except ε Unit × σ)
    (n : Nat) :
    repeated (acting scan f) n = acting (fun input => some (scanAll scan n input)) (forEach f) := by
  induction n with
  | zero => rfl
  | succ n ih =>
    funext input s
    simp only [repeated, acting, scanAll]
    cases found : scan input with
    | none => rfl
    | some x =>
      simp only [forEach]
      rcases f x.1 s with ⟨e | ⟨⟩, s'⟩
      · rfl
      · exact congrFun (congrFun ih x.2) s'

/-- At least one, and all that can be read behind it. -/
def scanPlus {β : Type*} (scan : List α → Option (β × List α)) (input : List α) : Option (List β × List α) :=
  (scan input).map fun (x, rest) => (x :: (scanAll scan rest.length rest).1, (scanAll scan rest.length rest).2)

theorem plus_acting {β : Type*} (scan : List α → Option (β × List α)) (f : β → σ → Except ε Unit × σ) :
    plus (acting scan f) = acting (scanPlus scan) (forEach f) := by
  funext input s
  simp only [plus, seq, acting, scanPlus]
  cases found : scan input with
  | none => rfl
  | some x =>
    simp only [Option.map_some, forEach]
    rcases f x.1 s with ⟨e | ⟨⟩, s'⟩
    · rfl
    · exact congrFun (congrFun (repeated_acting scan f x.2.length) x.2) s'

/-- A reading, and a second that always matches behind it. -/
def scanThen {β γ : Type*} (first : List α → Option (β × List α)) (second : List α → γ × List α)
    (input : List α) :
    Option ((β × γ) × List α) :=
  (first input).map fun (x, rest) => ((x, (second rest).1), (second rest).2)

/-- One action after another. -/
def both {β γ : Type*} (f : β → σ → Except ε Unit × σ) (g : γ → σ → Except ε Unit × σ) (x : β × γ)
    (s : σ) :
    Except ε Unit × σ :=
  match f x.1 s with
  | (.ok (), s) => g x.2 s
  | other => other

theorem seq_acting {β γ : Type*} (first : List α → Option (β × List α)) (second : List α → γ × List α)
    (f : β → σ → Except ε Unit × σ) (g : γ → σ → Except ε Unit × σ) :
    seq (acting first f) (acting (fun input => some (second input)) g) = acting (scanThen first second) (both f g) := by
  funext input s
  simp only [seq, acting, scanThen, both]
  cases found : first input with
  | none => rfl
  | some x =>
    simp only [Option.map_some]
    rcases f x.1 s with ⟨e | ⟨⟩, s'⟩
    · rfl
    · dsimp only

end Rule

end Lib
