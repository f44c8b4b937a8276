import M2eBridge.Lib.Peg
import M2eBridge.MessageReads
import M2eBridge.Substitutions.Objects

/-!
# Expressions

`SubsEngine::evaluate` runs the grammar of expressions over a text, with actions that walk
through the objects of the environment, and then takes the value it has arrived at: neither
the result of the parse nor what is left of the text is looked at. So the value of a text is
that of the path at its front (`evaluate_eq`), and the text of an expression has the value that its
steps lead to (`evaluate_text`).
-/

namespace M2eBridge

structure EvalState where
  env : EnvObjects
  /-- The name of the object that `obj_` points into. -/
  root : String := ""
  /-- `none` as it is constructed. -/
  obj : Option ObjectProxy := none
  value : Bytes := []
  /-- A modifier has been called through a null `modifier_ptr_`, and the process is gone. -/
  crashed : Bool := false

namespace EvalState

variable (C : Codec) (handlers : ImageHandlers)

/-- The environment after a step has left the object that it was taken on. -/
def written (s : EvalState) : ObjectProxy → EnvObjects
  | .message msg => s.env.map fun (name, obj) => if name = s.root then (name, .message msg) else (name, obj)
  | .extra e => s.env.map fun (name, obj) => if name = s.root then (name, .extra e) else (name, obj)
  | _ => s.env

def start (name : Bytes) (s : EvalState) : Except Exn Unit × EvalState :=
  match ObjectProxy.mapAt s.env (SubsEngine.shown name) with
  | .ok v => (.ok (), { s with root := SubsEngine.shown name, obj := some (.ofObject v) })
  | .error e => (.error e, s)

def next (key : Bytes) (s : EvalState) : Except Exn Unit × EvalState :=
  match s.obj with
  -- no step comes before an identifier
  | none => (.error ObjectProxy.noValue, s)
  | some obj =>
    match obj.next C key with
    | (.ok obj, left) => (.ok (), { s with env := s.written left, obj := some obj })
    | (.error e, left) => (.error e, { s with env := s.written left })

def nextIndex (digits : Bytes) (s : EvalState) : Except Exn Unit × EvalState :=
  match stoi digits, s.obj with
  | .error e, _ => (.error e, s)
  | .ok _, none => (.error ObjectProxy.noValue, s)
  | .ok ix, some obj =>
    match obj.nextIndex ix with
    | .ok obj => (.ok (), { s with obj := some obj })
    | .error e => (.error e, s)

/-- `obj_.value()`. -/
def objValue (s : EvalState) : Except Exn Substituted :=
  match s.obj with
  | some obj => obj.value
  | none => .error ObjectProxy.noValue

def modify (modifierDef : Bytes) (s : EvalState) : Except Exn Unit × EvalState :=
  match s.objValue with
  | .error e => (.error e, s)
  | .ok (.span value) =>
    match modifierOf handlers modifierDef with
    | .error e => (.error e, s)
    -- nothing comes back from this call: the error only stops the actions behind it
    | .ok none => (.error ⟨.logicError, "null modifier"⟩, { s with crashed := true })
    | .ok (some modify) =>
      match modify value with
      | .ok value => (.ok (), { s with value })
      -- printed
      | .error _ => (.ok (), s)
  | .ok _ => (.error ⟨.runtimeError, "std::get: wrong index for variant"⟩, s)

def getValue (s : EvalState) : Except Exn Substituted :=
  if s.value.length > 0 then .ok (.uchars s.value) else s.objValue

end EvalState

/-! ## The grammar -/

namespace Grammar

open Lib.Rule

abbrev EvalRule := Lib.Rule UInt8 EvalState Exn

def identifierFirst (b : UInt8) : Bool := (0x41 ≤ b && b ≤ 0x5a) || (0x61 ≤ b && b ≤ 0x7a) || b == 0x5f

def isDigit (b : UInt8) : Bool := 0x30 ≤ b && b ≤ 0x39

def identifierOther (b : UInt8) : Bool := identifierFirst b || isDigit b

def digit : EvalRule := one isDigit

def dot : EvalRule := one (· == 0x2e)

def comma : EvalRule := one (· == 0x2c)

def pipe : EvalRule := one (· == 0x7c)

def lbracket : EvalRule := one (· == 0x5b)

def rbracket : EvalRule := one (· == 0x5d)

variable (C : Codec) (handlers : ImageHandlers)

/-- `identifier_first`, `star<identifier_other>`. -/
def name : EvalRule := seq (one identifierFirst) (star (one identifierOther))

def identifier : EvalRule := act name EvalState.start

def modifier : EvalRule :=
  act (seq pipe (seq name (opt (seq comma (plus digit))))) fun p => EvalState.modify handlers p.tail

def property : EvalRule := act (seq dot name) fun p => EvalState.next C p.tail

def index : EvalRule := act (seq lbracket (seq (plus digit) rbracket)) fun p => EvalState.nextIndex p.tail.dropLast

def expression : EvalRule := seq identifier (seq (plus (sor (property C) index)) (opt (modifier handlers)))

end Grammar

/-- `SubsEngine::evaluate`: what `parse` returns is not looked at. -/
def SubsEngine.evaluate (C : Codec) (handlers : ImageHandlers) (env : EnvObjects) (expression : Bytes) :
    Except Exn Substituted × EnvObjects :=
  match Grammar.expression C handlers expression { env } with
  | (.ok _, state) => (state.getValue, state.env)
  | (.error e, state) => (.error e, state.env)

/-! ## Expressions -/

namespace Grammar

open Lib.Rule

def isIdentifier : Bytes → Bool
  | b :: rest => identifierFirst b && rest.all identifierOther
  | [] => false

abbrev Identifier := { x : Bytes // isIdentifier x = true }

abbrev Digits := { x : Bytes // x ≠ [] ∧ x.all isDigit = true }

inductive Step where
  | property (key : Identifier)
  | index (digits : Digits)

structure ModifierDef where
  name : Identifier
  params : Option Digits

/-- What the grammar describes. -/
structure Expression where
  root : Identifier
  step : Step
  steps : List Step
  modifier : Option ModifierDef

def Step.text : Step → Bytes
  | .property key => 0x2e :: key.val
  | .index digits => 0x5b :: digits.val ++ [0x5d]

def ModifierDef.text (m : ModifierDef) : Bytes :=
  m.name.val ++ match m.params with
    | none => []
    | some digits => 0x2c :: digits.val

/-- The text of a modifier that may be left out. -/
def modifierText : Option ModifierDef → Bytes
  | none => []
  | some m => 0x7c :: m.text

def Expression.text (e : Expression) : Bytes :=
  e.root.val ++ (e.step :: e.steps).flatMap Step.text ++ modifierText e.modifier

/-- The whole text is derived from the grammar. -/
def Derived (text : Bytes) : Prop := ∃ e : Expression, e.text = text

/-! ## Values -/

/-- A step, as it is taken on an object. -/
def Step.take (C : Codec) (obj : ObjectProxy) : Step → Except Exn ObjectProxy
  | .property key => (obj.next C key.val).1
  | .index digits => (stoi digits.val).bind obj.nextIndex

/-- Where the steps lead from the object of that name. -/
def follow (C : Codec) (env : EnvObjects) (root : Identifier) (steps : List Step) : Except Exn ObjectProxy := do
  let obj ← ObjectProxy.mapAt env (SubsEngine.shown root.val)
  steps.foldlM (Step.take C) (.ofObject obj)

/-- A value after its modifier. -/
def modified (handlers : ImageHandlers) (m : ModifierDef) : Substituted → Except Exn Substituted
  | .span data =>
    match modifierOf handlers m.text with
    | .error e => .error e
    | .ok none => .error ⟨.logicError, "null modifier"⟩
    | .ok (some modify) =>
      match modify data with
      | .ok value => .ok (if value.length > 0 then .uchars value else .span data)
      | .error _ => .ok (.span data)
  | _ => .error ⟨.runtimeError, "std::get: wrong index for variant"⟩

/-- The value at the end of a path, after the modifier if there is one. -/
def valueAt (C : Codec) (handlers : ImageHandlers) (env : EnvObjects) (root : Identifier) (steps : List Step)
    (modifier : Option ModifierDef) : Except Exn Substituted := do
  let obj ← follow C env root steps
  let value ← obj.value
  match modifier with
  | none => return value
  | some m => modified handlers m value

def Expression.value (C : Codec) (handlers : ImageHandlers) (env : EnvObjects) (e : Expression) :
    Except Exn Substituted :=
  valueAt C handlers env e.root (e.step :: e.steps) e.modifier

/-! ## What the grammar reads -/

def readIdentifier : Bytes → Option (Identifier × Bytes)
  | b :: rest =>
    if first : identifierFirst b = true then
      some (⟨b :: rest.takeWhile identifierOther, by simp [isIdentifier, first]⟩, rest.dropWhile identifierOther)
    else none
  | [] => none

def readDigits : Bytes → Option (Digits × Bytes)
  | b :: rest =>
    if first : isDigit b = true then
      some (⟨b :: rest.takeWhile isDigit, by simp [first]⟩, rest.dropWhile isDigit)
    else none
  | [] => none

def readProperty : Bytes → Option (Identifier × Bytes)
  | b :: rest => if b == 0x2e then readIdentifier rest else none
  | [] => none

def readIndex : Bytes → Option (Digits × Bytes)
  | b :: rest =>
    if b == 0x5b then
      match readDigits rest with
      | some (digits, b :: rest) => if b == 0x5d then some (digits, rest) else none
      | _ => none
    else none
  | [] => none

def readStep : Bytes → Option (Step × Bytes) := scanEither Step.property Step.index readProperty readIndex

def readParams : Bytes → Option (Digits × Bytes)
  | b :: rest => if b == 0x2c then readDigits rest else none
  | [] => none

def readModifier : Bytes → Option (ModifierDef × Bytes)
  | b :: rest =>
    if b == 0x7c then
      (readIdentifier rest).map fun (name, rest) => (⟨name, (scanOpt readParams rest).1⟩, (scanOpt readParams rest).2)
    else none
  | [] => none

/-- The path at the front of a text. -/
structure Path where
  root : Identifier
  steps : List Step
  modifier : Option ModifierDef
  rest : Bytes

/-- Without a step there is no modifier. -/
def readPath (text : Bytes) : Option Path :=
  (readIdentifier text).map fun (root, rest) =>
    match scanThen (scanPlus readStep) (scanOpt readModifier) rest with
    | none => ⟨root, [], none, rest⟩
    | some ((steps, modifier), rest) => ⟨root, steps, modifier, rest⟩

def scanIdentifier (input : Bytes) : Option Bytes :=
  (scanOne identifierFirst input).bind fun rest => some (rest.dropWhile identifierOther)

def scanDigits (input : Bytes) : Option Bytes := (scanOne isDigit input).bind fun rest => some (rest.dropWhile isDigit)

theorem name_eq : name = silent scanIdentifier := by
  rw [name, one_eq, star_of_one, seq_silent]
  rfl

theorem digits_eq : plus digit = silent scanDigits := by
  rw [plus, digit, star_of_one, one_eq, seq_silent]
  rfl

theorem scanIdentifier_eq (input : Bytes) : scanIdentifier input = (readIdentifier input).map Prod.snd := by
  cases input with
  | nil => rfl
  | cons b rest => by_cases first : identifierFirst b = true <;> simp [scanIdentifier, scanOne, readIdentifier, first]

theorem scanDigits_eq (input : Bytes) : scanDigits input = (readDigits input).map Prod.snd := by
  cases input with
  | nil => rfl
  | cons b rest => by_cases first : isDigit b = true <;> simp [scanDigits, scanOne, readDigits, first]

theorem readIdentifier_text {input rest : Bytes} {x : Identifier} (found : readIdentifier input = some (x, rest)) :
    input = x.val ++ rest := by
  cases input with
  | nil => cases found
  | cons b input =>
    simp only [readIdentifier] at found
    split at found
    · cases found
      simp
    · cases found

theorem readDigits_text {input rest : Bytes} {x : Digits} (found : readDigits input = some (x, rest)) :
    input = x.val ++ rest := by
  cases input with
  | nil => cases found
  | cons b input =>
    simp only [readDigits] at found
    split at found
    · cases found
      simp
    · cases found

theorem identifier_eq : identifier = acting readIdentifier fun x => EvalState.start x.val := by
  rw [identifier, name_eq]
  exact act_silent_of Subtype.val scanIdentifier_eq (fun _ _ _ => readIdentifier_text) _

theorem property_eq (C : Codec) : property C = acting readProperty fun x => EvalState.next C x.val := by
  rw [property, dot, name_eq, one_eq, seq_silent]
  refine act_silent_of (fun x : Identifier => 0x2e :: x.val) (fun input => ?_) (fun input x rest found => ?_) _
  · cases input with
    | nil => rfl
    | cons b rest =>
      by_cases byte : b = 0x2e <;> simp [scanOne, readProperty, byte, scanIdentifier_eq]
  · cases input with
    | nil => cases found
    | cons b input =>
      by_cases byte : b = 0x2e
      · simp only [readProperty, byte, beq_self_eq_true, if_true] at found
        rw [byte, readIdentifier_text found, List.cons_append]
      · simp [readProperty, byte] at found

theorem index_eq : index = acting readIndex fun digits => EvalState.nextIndex digits.val := by
  have text (digits : Digits) : (0x5b :: digits.val ++ [0x5d]).tail.dropLast = digits.val := by simp
  have same : (acting readIndex fun digits => EvalState.nextIndex digits.val : EvalRule) =
      acting readIndex fun digits => EvalState.nextIndex (0x5b :: digits.val ++ [0x5d]).tail.dropLast := by simp only [text]
  rw [index, lbracket, rbracket, digits_eq, one_eq, one_eq, seq_silent, seq_silent, same]
  refine act_silent_of (fun x : Digits => 0x5b :: x.val ++ [0x5d]) (fun input => ?_) (fun input x rest found => ?_)
    fun p => EvalState.nextIndex p.tail.dropLast
  · cases input with
    | nil => rfl
    | cons b rest =>
      by_cases byte : b = 0x5b
      · simp only [scanOne, readIndex, byte, beq_self_eq_true, if_true, Option.bind_some, scanDigits_eq]
        rcases readDigits rest with _ | ⟨digits, _ | ⟨b', rest'⟩⟩
        · rfl
        · rfl
        · by_cases closes : b' = 0x5d <;> simp [scanOne, closes]
      · simp [scanOne, readIndex, byte]
  · cases input with
    | nil => cases found
    | cons b input =>
      by_cases byte : b = 0x5b
      · simp only [readIndex, byte, beq_self_eq_true, if_true] at found
        split at found
        case h_1 digits b' rest' read =>
          by_cases closes : b' = 0x5d
          · simp only [closes, beq_self_eq_true, if_true] at found
            cases found
            simp [byte, readDigits_text read, closes]
          · simp [closes] at found
        case h_2 => cases found
      · simp [readIndex, byte] at found

theorem scanParams_eq (input : Bytes) :
    (scanOne (· == 0x2c) input).bind scanDigits = (readParams input).map Prod.snd := by
  cases input with
  | nil => rfl
  | cons b rest => by_cases byte : b = 0x2c <;> simp [scanOne, readParams, byte, scanDigits_eq]

theorem readParams_text {input rest : Bytes} {x : Digits} (found : readParams input = some (x, rest)) :
    input = 0x2c :: x.val ++ rest := by
  cases input with
  | nil => cases found
  | cons b input =>
    by_cases byte : b = 0x2c
    · simp only [readParams, byte, beq_self_eq_true, if_true] at found
      rw [byte, readDigits_text found, List.cons_append]
    · simp [readParams, byte] at found

theorem modifier_eq (handlers : ImageHandlers) :
    modifier handlers = acting readModifier fun m => EvalState.modify handlers m.text := by
  rw [modifier, pipe, comma, name_eq, digits_eq, one_eq, one_eq, seq_silent, opt_silent, seq_silent, seq_silent]
  refine act_silent_of (fun m : ModifierDef => 0x7c :: m.text) (fun input => ?_) (fun input m rest found => ?_) _
  · cases input with
    | nil => rfl
    | cons b rest =>
      by_cases byte : b = 0x7c
      · have first : scanOne (· == 0x7c) (b :: rest) = some rest := by simp [scanOne, byte]
        rw [first, Option.bind_some, scanIdentifier_eq]
        simp only [readModifier, byte, beq_self_eq_true, if_true]
        rcases readIdentifier rest with _ | ⟨name, rest⟩
        · rfl
        · simp only [Option.map_some, Option.bind_some, scanParams_eq, scanOpt]
          rcases readParams rest with _ | ⟨digits, rest⟩ <;> rfl
      · simp [scanOne, readModifier, byte]
  · cases input with
    | nil => cases found
    | cons b input =>
      by_cases byte : b = 0x7c
      · simp only [readModifier, byte, beq_self_eq_true, if_true] at found
        obtain ⟨⟨name, rest'⟩, read, same⟩ := Option.map_eq_some_iff.mp found
        cases same
        rw [byte, readIdentifier_text read]
        simp only [scanOpt, ModifierDef.text]
        cases params : readParams rest' with
        | none => simp
        | some digits => simp [readParams_text params]
      · simp [readModifier, byte] at found

/-- The state after a step, the environment aside. -/
def applyStep (C : Codec) : Step → EvalState → Except Exn Unit × EvalState
  | .property key => EvalState.next C key.val
  | .index digits => EvalState.nextIndex digits.val

/-- All behind the identifier, as a reading with the actions for what was read. -/
theorem path_eq (C : Codec) (handlers : ImageHandlers) :
    seq (plus (sor (property C) index)) (opt (modifier handlers)) =
      acting (scanThen (scanPlus readStep) (scanOpt readModifier))
        (both (forEach (applyStep C)) (ifAny fun m => EvalState.modify handlers m.text)) := by
  have step : sor (property C) index = acting readStep (applyStep C) := by
    rw [property_eq, index_eq]
    exact sor_acting Step.property Step.index readProperty readIndex (applyStep C)
  rw [step, plus_acting, modifier_eq, opt_acting, seq_acting]

/-- A step throws what it throws on the object, or leads where it leads from there. -/
theorem applyStep_take (C : Codec) (step : Step) {s : EvalState} {obj : ObjectProxy} (here : s.obj = some obj) :
    (∃ e, step.take C obj = .error e ∧ (applyStep C step s).1 = .error e) ∨
      ∃ obj' env, step.take C obj = .ok obj' ∧ applyStep C step s = (.ok (), { s with env, obj := some obj' }) := by
  cases step with
  | property key =>
    simp only [Step.take, applyStep, EvalState.next, here]
    rcases obj.next C key.val with ⟨e | obj', left⟩
    · exact .inl ⟨e, rfl, rfl⟩
    · exact .inr ⟨obj', s.written left, rfl, rfl⟩
  | index digits =>
    simp only [Step.take, applyStep, EvalState.nextIndex, here]
    rcases stoi digits.val with e | ix
    · exact .inl ⟨e, rfl, rfl⟩
    · simp only [Except.bind]
      rcases obj.nextIndex ix with e | obj'
      · exact .inl ⟨e, rfl, rfl⟩
      · exact .inr ⟨obj', s.env, rfl, rfl⟩

/-- All the steps, one after another. -/
theorem forEach_take (C : Codec) (steps : List Step) :
    ∀ {s : EvalState} {obj : ObjectProxy}, s.obj = some obj →
      (∃ e, steps.foldlM (Step.take C) obj = .error e ∧ (forEach (applyStep C) steps s).1 = .error e) ∨
        ∃ obj' env, steps.foldlM (Step.take C) obj = .ok obj' ∧
          forEach (applyStep C) steps s = (.ok (), { s with env, obj := some obj' }) := by
  induction steps with
  | nil =>
    intro s obj here
    refine .inr ⟨obj, s.env, rfl, ?_⟩
    rw [forEach, ← here]
  | cons step steps ih =>
    intro s obj here
    rcases applyStep_take C step here with ⟨e, thrown, result⟩ | ⟨obj', env, took, result⟩
    · refine .inl ⟨e, ?_, ?_⟩
      · rw [List.foldlM_cons, thrown]
        rfl
      · rw [forEach]
        rcases applied : applyStep C step s with ⟨e' | ⟨⟩, s'⟩
        · rw [applied] at result
          exact result
        · rw [applied] at result
          cases result
    · rw [List.foldlM_cons, took, forEach, result]
      exact ih rfl

/-- What comes of a state, unless something has been thrown. -/
def valueOf : Except Exn Unit × EvalState → Except Exn Substituted
  | (.ok (), s) => s.getValue
  | (.error e, _) => .error e

theorem valueOf_ifAny (handlers : ImageHandlers) (modifier : Option ModifierDef) {s : EvalState} {obj : ObjectProxy}
    (here : s.obj = some obj) (unset : s.value = []) :
    valueOf (ifAny (fun m : ModifierDef => EvalState.modify handlers m.text) modifier s) =
      obj.value.bind fun value => match modifier with
        | none => .ok value
        | some m => modified handlers m value := by
  cases modifier with
  | none =>
    simp only [ifAny, valueOf, EvalState.getValue, unset, EvalState.objValue, here, List.length_nil, Nat.lt_irrefl, if_false]
    cases obj.value <;> rfl
  | some m =>
    simp only [ifAny, EvalState.modify, EvalState.objValue, here]
    rcases valued : obj.value with e | value
    · rfl
    · cases value with
      | span data =>
        simp only [Except.bind, modified]
        rcases modifierOf handlers m.text with e | _ | modify
        · rfl
        · rfl
        · dsimp only
          rcases modify data with e | result
          · simp [valueOf, EvalState.getValue, unset, EvalState.objValue, here, valued]
          · simp only [valueOf, EvalState.getValue, EvalState.objValue, valued]
            split <;> rfl
      | boolean | double | long | string | json | uchars => rfl

/-- The steps, the modifier and the value, from an object on. -/
theorem valueOf_both (C : Codec) (handlers : ImageHandlers) (steps : List Step) (modifier : Option ModifierDef)
    {s : EvalState} {obj : ObjectProxy} (here : s.obj = some obj) (unset : s.value = []) :
    valueOf (both (forEach (applyStep C)) (ifAny fun m => EvalState.modify handlers m.text) (steps, modifier) s) =
      (steps.foldlM (Step.take C) obj).bind fun obj => obj.value.bind fun value => match modifier with
        | none => .ok value
        | some m => modified handlers m value := by
  rw [both]
  rcases forEach_take C steps here with ⟨e, thrown, result⟩ | ⟨obj', env, took, result⟩
  · rw [thrown]
    rcases applied : forEach (applyStep C) steps s with ⟨e' | ⟨⟩, s'⟩
    · rw [applied] at result
      exact congrArg Except.error (Except.error.inj result)
    · rw [applied] at result
      cases result
  · rw [took, result]
    exact valueOf_ifAny handlers modifier rfl unset

/-- The value of a text is that of the path at its front. -/
theorem evaluate_eq (C : Codec) (handlers : ImageHandlers) (env : EnvObjects) (text : Bytes) :
    (SubsEngine.evaluate C handlers env text).1 =
      match readPath text with
      | none => .error ObjectProxy.noValue
      | some path => valueAt C handlers env path.root path.steps path.modifier := by
  rw [SubsEngine.evaluate, expression, identifier_eq, path_eq]
  simp only [seq, acting, readPath]
  rcases readIdentifier text with _ | ⟨root, rest⟩
  · rfl
  simp only [Option.map_some, EvalState.start]
  rcases found : ObjectProxy.mapAt env (SubsEngine.shown root.val) with e | object
  · rcases scanThen (scanPlus readStep) (scanOpt readModifier) rest with _ | ⟨⟨steps, modifier⟩, rest'⟩
    all_goals
      simp only [valueAt, follow, found]
      rfl
  dsimp only
  rcases scanThen (scanPlus readStep) (scanOpt readModifier) rest with _ | ⟨⟨steps, modifier⟩, rest'⟩
  · simp only [valueAt, follow, found]
    exact valueOf_ifAny handlers none (s := { env, root := SubsEngine.shown root.val, obj := some (.ofObject object) })
      rfl rfl
  · have valued := valueOf_both C handlers steps modifier
      (s := { env, root := SubsEngine.shown root.val, obj := some (.ofObject object) }) rfl rfl
    simp only [valueAt, follow, found]
    refine Eq.trans ?_ valued
    generalize both (forEach (applyStep C)) (ifAny fun m => EvalState.modify handlers m.text) (steps, modifier) _ = result
    rcases result with ⟨e | ⟨⟩, s'⟩ <;> rfl

/-! ## Reading an expression back -/

/-- The text does not begin with such a byte. -/
def Apart (p : UInt8 → Bool) (text : Bytes) : Prop := ∀ b ∈ text.head?, p b = false

theorem span_append {p : UInt8 → Bool} {xs rest : Bytes} (all : ∀ b ∈ xs, p b = true) (apart : Apart p rest) :
    (xs ++ rest).takeWhile p = xs ∧ (xs ++ rest).dropWhile p = rest := by
  have none_ : rest.takeWhile p = [] ∧ rest.dropWhile p = rest := by
    cases rest with
    | nil => exact ⟨rfl, rfl⟩
    | cons b rest =>
      have other := apart b rfl
      simp [other]
  rw [List.takeWhile_append_of_pos all, List.dropWhile_append_of_pos all, none_.1, none_.2, List.append_nil]
  exact ⟨rfl, rfl⟩

theorem readIdentifier_append (x : Identifier) {rest : Bytes} (apart : Apart identifierOther rest) :
    readIdentifier (x.val ++ rest) = some (x, rest) := by
  obtain ⟨_ | ⟨b, xs⟩, valid⟩ := x
  · cases valid
  · obtain ⟨first, others⟩ := (Bool.and_eq_true _ _).mp valid
    obtain ⟨took, dropped⟩ := span_append (List.all_eq_true.mp others) apart
    simp [readIdentifier, first, took, dropped]

theorem readDigits_append (x : Digits) {rest : Bytes} (apart : Apart isDigit rest) :
    readDigits (x.val ++ rest) = some (x, rest) := by
  obtain ⟨_ | ⟨b, xs⟩, nonempty, valid⟩ := x
  · exact absurd rfl nonempty
  · rw [List.all_cons, Bool.and_eq_true] at valid
    obtain ⟨took, dropped⟩ := span_append (List.all_eq_true.mp valid.2) apart
    simp [readDigits, valid.1, took, dropped]

theorem readStep_append (step : Step) {rest : Bytes} (apart : Apart identifierOther rest) :
    readStep (step.text ++ rest) = some (step, rest) := by
  cases step with
  | property key =>
    have read := readIdentifier_append key apart
    simp [readStep, scanEither, readProperty, Step.text, read]
  | index digits =>
    have closed : Apart isDigit (0x5d :: rest) := by simp [Apart, isDigit]
    have read := readDigits_append digits closed
    simp [readStep, scanEither, readProperty, readIndex, Step.text, read]

/-- What stands behind a step begins with no byte of an identifier. -/
theorem apart_steps (steps : List Step) {rest : Bytes} (apart : Apart identifierOther rest) :
    Apart identifierOther (steps.flatMap Step.text ++ rest) := by
  cases steps with
  | nil => exact apart
  | cons step steps => cases step <;> simp [Apart, Step.text, identifierOther, identifierFirst, isDigit]

theorem apart_modifier (modifier : Option ModifierDef) : Apart identifierOther (modifierText modifier) := by
  cases modifier <;> simp [Apart, modifierText, identifierOther, identifierFirst, isDigit]

theorem readStep_modifier (modifier : Option ModifierDef) : readStep (modifierText modifier) = none := by
  cases modifier <;> simp [readStep, scanEither, readProperty, readIndex, modifierText]

theorem scanAll_steps (modifier : Option ModifierDef) (steps : List Step) :
    ∀ n, steps.length ≤ n →
      scanAll readStep n (steps.flatMap Step.text ++ modifierText modifier) = (steps, modifierText modifier) := by
  induction steps with
  | nil =>
    intro n _
    cases n with
    | zero => rfl
    | succ n => simp [scanAll, readStep_modifier]
  | cons step steps ih =>
    intro n enough
    cases n with
    | zero => cases enough
    | succ n =>
      have read := readStep_append step (apart_steps steps (apart_modifier modifier))
      rw [List.flatMap_cons, List.append_assoc, scanAll, read]
      simp only [ih n (Nat.le_of_succ_le_succ enough)]

theorem scanOpt_modifier (modifier : Option ModifierDef) :
    scanOpt readModifier (modifierText modifier) = (modifier, []) := by
  cases modifier with
  | none => rfl
  | some m =>
    obtain ⟨name, params⟩ := m
    have ended (p : UInt8 → Bool) : Apart p [] := by simp [Apart]
    cases params with
    | none =>
      have read := readIdentifier_append name (ended identifierOther)
      rw [List.append_nil] at read
      simp [scanOpt, modifierText, ModifierDef.text, readModifier, read, readParams]
    | some digits =>
      have behind : Apart identifierOther (0x2c :: digits.val) := by
        simp [Apart, identifierOther, identifierFirst, isDigit]
      have read := readIdentifier_append name behind
      have params := readDigits_append digits (ended isDigit)
      rw [List.append_nil] at params
      simp [scanOpt, modifierText, ModifierDef.text, readModifier, read, readParams, params]

theorem text_length (steps : List Step) (rest : Bytes) : steps.length ≤ (steps.flatMap Step.text ++ rest).length := by
  induction steps with
  | nil => exact Nat.zero_le _
  | cons step steps ih =>
    have pos : 0 < step.text.length := by cases step <;> simp [Step.text]
    rw [List.flatMap_cons, List.append_assoc, List.length_append, List.length_cons]
    omega

/-- The path of an expression is the expression, and nothing is left. -/
theorem readPath_text (e : Expression) : readPath e.text = some ⟨e.root, e.step :: e.steps, e.modifier, []⟩ := by
  have apart := apart_steps (e.step :: e.steps) (apart_modifier e.modifier)
  have root := readIdentifier_append e.root apart
  have first := readStep_append e.step (apart_steps e.steps (apart_modifier e.modifier))
  have steps := scanAll_steps e.modifier e.steps _ (text_length e.steps (modifierText e.modifier))
  rw [Expression.text, List.append_assoc, readPath, root]
  simp only [List.flatMap_cons, List.append_assoc, scanThen, scanPlus, first, Option.map_some, steps, scanOpt_modifier]

/-- The value of an expression. -/
theorem evaluate_text (C : Codec) (handlers : ImageHandlers) (env : EnvObjects) (e : Expression) :
    (SubsEngine.evaluate C handlers env e.text).1 = e.value C handlers env := by
  rw [evaluate_eq, readPath_text]
  rfl

end Grammar

end M2eBridge
