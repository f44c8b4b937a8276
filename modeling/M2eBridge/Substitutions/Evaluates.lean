import M2eBridge.Substitutions.Paths

/-!
# The texts that evaluate

A text has a value in some environment only if it is an expression or begins with a path that can
be followed: one whose indices are of an `int`, and whose modifier, if it has one, can be made and
comes behind keys only, since nothing binary is behind an index. A modifier without an
implementation is called through a null pointer, and nothing comes back from there. So a text keeps
to the grammar in every environment exactly when it is an expression, or no path that can be
followed is at its front (`evaluates_iff`).
-/

namespace M2eBridge

/-- `evaluate` ends in the call of a modifier through its null pointer. -/
def SubsEngine.crashes (C : Codec) (handlers : ImageHandlers) (env : EnvObjects) (expression : Bytes) : Bool :=
  (Grammar.expression C handlers expression { env }).2.crashed

namespace Grammar

open Lib.Rule

variable {C : Codec} {handlers : ImageHandlers} {env : EnvObjects}

/-! ## Crashes -/

theorem applyStep_crashed (C : Codec) (step : Step) (s : EvalState) : (applyStep C step s).2.crashed = s.crashed := by
  cases step with
  | property key =>
    rw [applyStep, EvalState.next]
    cases s.obj with
    | none => rfl
    | some obj =>
      dsimp only
      rcases obj.next C key.val with ⟨e | next, left⟩ <;> rfl
  | index digits =>
    rw [applyStep, EvalState.nextIndex]
    rcases stoi digits.val with e | ix
    · rfl
    · cases s.obj with
      | none => rfl
      | some obj =>
        dsimp only
        rcases obj.nextIndex ix with e | next <;> rfl

theorem forEach_crashed (C : Codec) (steps : List Step) (s : EvalState) :
    (forEach (applyStep C) steps s).2.crashed = s.crashed := by
  induction steps generalizing s with
  | nil => rfl
  | cons step steps ih =>
    have here := applyStep_crashed C step s
    rw [forEach]
    rcases applied : applyStep C step s with ⟨e | ⟨⟩, t⟩
    all_goals rw [applied] at here
    · exact here
    · exact (ih t).trans here

/-- The modifier has no implementation, and something to modify. -/
def CallsNull (handlers : ImageHandlers) (modifier : Option ModifierDef) (value : Except Exn Substituted) : Prop :=
  ∃ m ∈ modifier, ∃ data, value = .ok (.span data) ∧ modifierOf handlers m.text = .ok none

theorem ifAny_crashed (handlers : ImageHandlers) (modifier : Option ModifierDef) {s : EvalState} (sound : s.crashed = false) :
    (ifAny (fun m : ModifierDef => EvalState.modify handlers m.text) modifier s).2.crashed = true ↔
      CallsNull handlers modifier s.objValue := by
  cases modifier with
  | none => simp [ifAny, sound, CallsNull]
  | some m =>
    simp only [ifAny, EvalState.modify, CallsNull, Option.mem_def, Option.some.injEq, exists_eq_left']
    rcases s.objValue with e | value
    · simp [sound]
    · cases value with
      | span data =>
        rcases modifierOf handlers m.text with e | _ | modify
        · simp [sound]
        · simp
        · dsimp only
          rcases modify data with e | result <;> simp [sound]
      | boolean | double | long | string | json | uchars => simp [sound]

/-- What a run ends in the crash of. -/
theorem crashes_iff {text : Bytes} :
    SubsEngine.crashes C handlers env text = true ↔
      ∃ path ∈ readPath text, CallsNull handlers path.modifier (follow C env path.root path.steps >>= ObjectProxy.value) := by
  rw [SubsEngine.crashes, expression, identifier_eq, path_eq]
  simp only [seq, acting, readPath]
  rcases readIdentifier text with _ | ⟨root, rest⟩
  · simp
  simp only [Option.map_some, EvalState.start]
  rcases found : ObjectProxy.mapAt env (SubsEngine.shown root.val) with e | object
  · rcases scanThen (scanPlus readStep) (scanOpt readModifier) rest with _ | ⟨⟨steps, modifier⟩, rest'⟩
    all_goals simp [follow, found, CallsNull, bind, Except.bind]
  dsimp only
  rcases scanThen (scanPlus readStep) (scanOpt readModifier) rest with _ | ⟨⟨steps, modifier⟩, rest'⟩
  · simp [CallsNull]
  · simp only [follow, found, Option.mem_def, Option.some.injEq, exists_eq_left']
    let s : EvalState := { env, root := SubsEngine.shown root.val, obj := some (.ofObject object) }
    have walked : (both (forEach (applyStep C)) (ifAny fun m => EvalState.modify handlers m.text) (steps, modifier) s).2.crashed
          = true ↔
        CallsNull handlers modifier (steps.foldlM (Step.take C) (.ofObject object) >>= ObjectProxy.value) := by
      rw [both]
      have sound := forEach_crashed C steps s
      rcases forEach_take C steps (rfl : s.obj = some (.ofObject object)) with ⟨e, thrown, result⟩ | ⟨obj', env', took, result⟩
      · rw [thrown]
        rcases applied : forEach (applyStep C) steps s with ⟨e' | ⟨⟩, s'⟩
        · rw [applied] at sound
          have alive : s'.crashed = false := sound
          simp [CallsNull, bind, Except.bind, alive]
        · rw [applied] at result
          cases result
      · rw [took, result]
        exact ifAny_crashed handlers modifier rfl
    refine Iff.trans ?_ walked
    change _ ↔ (both (forEach (applyStep C)) (ifAny fun m => EvalState.modify handlers m.text) (steps, modifier)
      { env, root := SubsEngine.shown root.val, obj := some (.ofObject object) }).2.crashed = true
    generalize both (forEach (applyStep C)) (ifAny fun m => EvalState.modify handlers m.text) (steps, modifier) _ = result
    rcases result with ⟨e | ⟨⟩, s'⟩ <;> rfl

/-! ## Paths that can be followed -/

theorem map_eq_ok {α β : Type} {x : Except Exn α} {f : α → β} {b : β} : x.map f = .ok b ↔ ∃ a, x = .ok a ∧ f a = b := by
  cases x <;> simp [Except.map]

/-- The indices are of an `int`, and a modifier can be made and has no index before it. -/
structure Path.Open (handlers : ImageHandlers) (path : Path) : Prop where
  fits : ∀ step ∈ path.steps, step.Fits
  modifies : ∀ m ∈ path.modifier, path.steps.any Step.isIndex = false ∧ ∃ f, modifierOf handlers m.text = .ok f

/-- The path comes to a value, or to the null pointer of a modifier. -/
def Arrives (C : Codec) (handlers : ImageHandlers) (env : EnvObjects) (path : Path) : Prop :=
  (∃ v, valueAt C handlers env path.root path.steps path.modifier = .ok v) ∨
    CallsNull handlers path.modifier (follow C env path.root path.steps >>= ObjectProxy.value)

theorem fits_of_take {step : Step} {obj next : ObjectProxy} (took : step.take C obj = .ok next) : step.Fits := by
  cases step with
  | property => trivial
  | index digits =>
    by_contra large
    have large : ¬ digits.number < UInt32.size / 2 := large
    rw [Step.take, stoi_digits, if_neg large] at took
    cases took

theorem fits_of_walk (steps : List Step) :
    ∀ {obj last : ObjectProxy}, steps.foldlM (Step.take C) obj = .ok last → ∀ step ∈ steps, step.Fits := by
  induction steps with
  | nil => exact fun _ _ member => by cases member
  | cons step steps ih =>
    intro obj last walked
    rw [List.foldlM_cons] at walked
    obtain ⟨next, took, behind⟩ := bind_eq_ok.mp walked
    exact List.forall_mem_cons.mpr ⟨fits_of_take took, ih behind⟩

/-- A document or a text, and their parts, are never binary. -/
def Textual : ObjectProxy → Prop
  | .json _ | .strings _ | .string _ => True
  | _ => False

theorem textual_index {ix : Nat} {obj next : ObjectProxy} (took : obj.nextIndex ix = .ok next) : Textual next := by
  cases obj with
  | strings v =>
    rw [ObjectProxy.nextIndex] at took
    cases found : v[ix]? with
    | none => simp [found] at took
    | some s =>
      simp only [found] at took
      cases took
      trivial
  | json j =>
    obtain ⟨item, -, rfl⟩ := map_eq_ok.mp took
    trivial
  | message | string | stringMap | cbor | extra => cases took

theorem textual_take {step : Step} {obj next : ObjectProxy} (textual : Textual obj) (took : step.take C obj = .ok next) :
    Textual next := by
  cases step with
  | property key =>
    cases obj with
    | json j =>
      obtain ⟨item, -, rfl⟩ := map_eq_ok.mp took
      trivial
    | strings | string => cases took
    | message | stringMap | cbor | extra => exact textual.elim
  | index digits =>
    obtain ⟨ix, -, item⟩ := bind_eq_ok.mp took
    exact textual_index item

theorem textual_walk (steps : List Step) :
    ∀ {obj last : ObjectProxy}, Textual obj ∨ steps.any Step.isIndex = true →
      steps.foldlM (Step.take C) obj = .ok last → Textual last := by
  induction steps with
  | nil =>
    rintro obj last (textual | none_) ⟨⟩
    · exact textual
    · cases none_
  | cons step steps ih =>
    intro obj last origin walked
    rw [List.foldlM_cons] at walked
    obtain ⟨next, took, behind⟩ := bind_eq_ok.mp walked
    refine ih ?_ behind
    rcases origin with textual | index
    · exact .inl (textual_take textual took)
    · cases step with
      | property => exact .inr index
      | index digits =>
        obtain ⟨ix, -, item⟩ := bind_eq_ok.mp took
        exact .inl (textual_index item)

theorem value_of_textual {obj : ObjectProxy} (textual : Textual obj) (data : Bytes) : obj.value ≠ .ok (.span data) := by
  cases obj with
  | json j => cases j <;> simp [ObjectProxy.value]
  | strings | string => simp [ObjectProxy.value]
  | message | stringMap | cbor | extra => exact textual.elim

/-- A modifier has worked on something binary. -/
theorem modified_ok {m : ModifierDef} {value v : Substituted} (done : modified handlers m value = .ok v) :
    ∃ data, value = .span data ∧ ∃ f, modifierOf handlers m.text = .ok f := by
  cases value with
  | span data =>
    refine ⟨data, rfl, ?_⟩
    rw [modified] at done
    cases made : modifierOf handlers m.text with
    | error e => simp [made] at done
    | ok f => exact ⟨f, rfl⟩
  | boolean | double | long | string | json | uchars => cases done

theorem open_of_comes {path : Path} (comes : Arrives C handlers env path) : path.Open handlers := by
  -- the object that the steps lead to, and what the modifier works on
  obtain ⟨obj, reached, binary⟩ : ∃ obj, follow C env path.root path.steps = .ok obj ∧
      ∀ m ∈ path.modifier, ∃ data, obj.value = .ok (.span data) ∧ ∃ f, modifierOf handlers m.text = .ok f := by
    rcases comes with ⟨v, value⟩ | ⟨m, there, data, value, made⟩
    · obtain ⟨obj, reached, value⟩ := bind_eq_ok.mp value
      refine ⟨obj, reached, fun m there => ?_⟩
      obtain ⟨read, valued, value⟩ := bind_eq_ok.mp value
      rw [Option.mem_def.mp there] at value
      obtain ⟨data, rfl, made⟩ := modified_ok value
      exact ⟨data, valued, made⟩
    · obtain ⟨obj, reached, value⟩ := bind_eq_ok.mp value
      refine ⟨obj, reached, fun m' there' => ?_⟩
      cases there.symm.trans there'
      exact ⟨data, value, none, made⟩
  obtain ⟨object, -, walked⟩ := bind_eq_ok.mp reached
  refine ⟨fits_of_walk path.steps walked, fun m there => ?_⟩
  obtain ⟨data, value, made⟩ := binary m there
  refine ⟨?_, made⟩
  by_contra index
  exact value_of_textual (textual_walk path.steps (.inr (by simpa using index)) walked) data value

/-! ### Environments for them -/

/-- The text keeps to the grammar: a value is that of an expression, where all of its steps lead, and any other text
ends in an exception. -/
structure Evaluates (C : Codec) (handlers : ImageHandlers) (env : EnvObjects) (text : Bytes) : Prop where
  value : ∀ v, (SubsEngine.evaluate C handlers env text).1 = .ok v →
    ∃ e : Expression, e.text = text ∧ e.value C handlers env = .ok v
  other : ¬ Derived text →
    (∃ e, (SubsEngine.evaluate C handlers env text).1 = .error e) ∧ SubsEngine.crashes C handlers env text = false

theorem Evaluates.expression (C : Codec) (handlers : ImageHandlers) (env : EnvObjects) {text : Bytes}
    (derived : Derived text) : Evaluates C handlers env text := by
  obtain ⟨e, rfl⟩ := derived
  exact ⟨fun v value => ⟨e, rfl, evaluate_text C handlers env e ▸ value⟩, fun other => absurd ⟨e, rfl⟩ other⟩

/-- No path at the front of the text can be followed. -/
def Closed (handlers : ImageHandlers) (text : Bytes) : Prop := ∀ path ∈ readPath text, ¬ path.Open handlers

theorem Evaluates.closed {text : Bytes} (closed : Closed handlers text) (env : EnvObjects) :
    Evaluates C handlers env text := by
  have nothing : ∀ path ∈ readPath text, ¬ Arrives C handlers env path := fun path read comes =>
    closed path read (open_of_comes comes)
  have thrown : ∃ e, (SubsEngine.evaluate C handlers env text).1 = .error e := by
    rw [evaluate_eq]
    cases read : readPath text with
    | none => exact ⟨_, rfl⟩
    | some path =>
      cases value : valueAt C handlers env path.root path.steps path.modifier with
      | error e => exact ⟨e, value⟩
      | ok v => exact absurd (.inl ⟨v, value⟩) (nothing path read)
  refine ⟨fun v value => ?_, fun _ => ⟨thrown, ?_⟩⟩
  · obtain ⟨e, thrown⟩ := thrown
    cases thrown.symm.trans value
  · rw [Bool.eq_false_iff, Ne, crashes_iff]
    rintro ⟨path, read, null⟩
    exact nothing path read (.inr null)

end Grammar

end M2eBridge
