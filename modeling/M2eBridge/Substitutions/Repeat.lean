import M2eBridge.Lib.Fuel
import M2eBridge.Substitutions.Environment
import M2eBridge.Substitutions.Paths

/-!
# Values that stay

The first step from an object leads where it led before, whatever has been evaluated in
between, and an object that comes to a text comes to the same. So where a placeholder is a
text, it is the same text wherever it is evaluated in the course of a template, and the
template comes to what these texts make of it.
-/

namespace M2eBridge

/-- The text of a value that can stand in another text. -/
def SubsEngine.string? : Except Exn Substituted → Option Bytes
  | .ok (.string s) => some s
  | _ => none

open SubsEngine (string?)

@[simp] theorem SubsEngine.string?_string (s : Bytes) : string? (.ok (.string s)) = some s := rfl

/-- The paths from the object lead where they led, to a text at least. -/
structure EnvObject.Looks (C : Codec) (o o' : EnvObject) : Prop where
  text : string? (ObjectProxy.ofObject o').value = string? (ObjectProxy.ofObject o).value
  step : ∀ step : Grammar.Step, step.take C (.ofObject o') = step.take C (.ofObject o)

namespace EnvObject

variable {C : Codec}

/-- A step reads the topic, and the payload in the format that the message has. -/
theorem take_message {m m' : Message} (format : m'.format = m.format) (topic : m'.msgTopic = m.msgTopic)
    (json : m.format = .json → (m'.getJson C).1 = (m.getJson C).1)
    (cbor : m.format = .cbor → (m'.getCbor C).1 = (m.getCbor C).1) (step : Grammar.Step) :
    step.take C (.message m') = step.take C (.message m) := by
  cases step with
  | index => rfl
  | property key =>
    simp only [Grammar.Step.take, ObjectProxy.next, Message.getTopicLevels, topic, format]
    split
    · cases form : m.format with
      | json => simp only [json form]
      | cbor => simp only [cbor form]
      | unkn | raw => rfl
    · split
      · rfl
      · split <;> rfl

theorem string?_extra (e : MessageExtra) : string? (ObjectProxy.extra e).value = none := by
  simp only [ObjectProxy.value]
  cases ObjectProxy.mapAt e.extras e.key <;> rfl

theorem looks_kept (C : Codec) : EnvObject.Kept C (Looks C) where
  json := fun _ m format looks => by
    refine ⟨looks.text, fun step => Eq.trans ?_ (looks.step step)⟩
    have format' := (m.getJson_format C format).trans format.symm
    exact take_message format' (m.getJson_origin C).topic (fun _ => m.getJson_again C)
      (fun other => by cases format.symm.trans other) step
  cbor := fun _ m format looks => by
    refine ⟨looks.text, fun step => Eq.trans ?_ (looks.step step)⟩
    exact take_message (m.getCbor_format C) (m.getCbor_origin C).topic
      (fun other => by cases format.symm.trans other) (fun _ => m.getCbor_again C) step
  extra := fun _ e key looks => by
    refine ⟨(string?_extra { e with key }).trans ((string?_extra e).symm.trans looks.text), fun step => ?_⟩
    refine Eq.trans ?_ (looks.step step)
    cases step <;> rfl

end EnvObject

theorem becomes_refl (C : Codec) (env : EnvObjects) : Becomes (EnvObject.Looks C) env env := by
  intro name
  cases env.lookup name with
  | none => exact .none
  | some o => exact .some ⟨rfl, fun _ => rfl⟩

namespace Grammar

/-- No text comes of a modifier. -/
theorem string?_valueAt {C : Codec} {handlers : ImageHandlers} {env : EnvObjects} {root : Identifier} {steps : List Step}
    {modifier : Option ModifierDef} :
    string? (valueAt C handlers env root steps modifier) =
      if modifier = none then string? (follow C env root steps >>= ObjectProxy.value) else none := by
  rw [valueAt]
  cases follow C env root steps with
  | error e => exact (ite_self _).symm
  | ok obj =>
    change string? (obj.value >>= _) = if _ then string? obj.value else none
    cases obj.value with
    | error e => exact (ite_self _).symm
    | ok v =>
      cases modifier with
      | none => rfl
      | some m =>
        change string? (modified handlers m v) = none
        unfold modified
        split
        · split
          · rfl
          · rfl
          · split
            · split <;> rfl
            · rfl
        · rfl

/-- What is a text is the text that it was. -/
theorem string_becomes {C : Codec} {before env : EnvObjects} (env_ : Becomes (EnvObject.Looks C) before env)
    (handlers : ImageHandlers) (text : Bytes) :
    string? (SubsEngine.evaluate C handlers env text).1 = string? (SubsEngine.evaluate C handlers before text).1 := by
  rw [evaluate_eq, evaluate_eq]
  cases readPath text with
  | none => rfl
  | some path =>
    have now := env_ (SubsEngine.shown path.root.val)
    simp only [string?_valueAt, follow, ObjectProxy.mapAt]
    generalize before.lookup (SubsEngine.shown path.root.val) = o at now ⊢
    generalize env.lookup (SubsEngine.shown path.root.val) = o' at now ⊢
    cases now with
    | none => rfl
    | some looks =>
      congr 1
      cases path.steps with
      | nil => exact looks.text
      | cons step steps =>
        exact congrArg (fun next => string? (next >>= steps.foldlM (Step.take C) >>= ObjectProxy.value)) (looks.step step)

end Grammar

/-! ## Templates -/

namespace SubsEngine

/-- What comes of a template whose placeholders have these texts; `none` is an exception. -/
def filled (pieces : List (Bytes × Bytes)) (last : Bytes) (value : Bytes → Option Bytes) : Option Substituted :=
  (pieces.mapM fun piece => value piece.2).map fun values => .string (fill pieces values last)

section Constant

variable {ω : Type} {evaluate : ω → Bytes → Except Exn Substituted × ω} {template : Bytes} {inv : ω → Prop}
  {value : Bytes → Option Bytes}

theorem loop_steady (fuel : Nat) :
    ∀ (result : Bytes) (pos : Nat) (world : ω) (out : Outcome ω), loop evaluate template fuel result pos world = some out →
      loop evaluate template (fuel + 1) result pos world = some out := by
  induction fuel with
  | zero => intro _ _ _ _ ran; cases ran
  | succ fuel ih =>
    intro result pos world out ran
    rw [loop] at ran ⊢
    split at ran
    · exact ran
    · next found _ =>
      dsimp only at ran ⊢
      split
      · next whole => rwa [if_pos whole] at ran
      · next part =>
        rw [if_neg part] at ran
        split at ran
        · obtain ⟨rest, later, rfl⟩ := Option.map_eq_some_iff.mp ran
          simp only [ih _ _ _ rest later, Option.map_some]
        · exact ran
        · exact ran

theorem substitute_steady (world : ω) : Lib.Fuel.Steady fun fuel => substitute evaluate fuel template world :=
  fun fuel out ran => loop_steady fuel _ _ _ out ran

/-- A template in which every placeholder has the same text throughout, or none. -/
theorem loop_fills (several : ∀ expression, ¬ Single template expression) {s : Bytes} {pieces : List (Bytes × Bytes)}
    {last : Bytes} (split : pattern.Split s pieces last)
    (constant : ∀ piece ∈ pieces, ∀ world, inv world → string? (evaluate world piece.2).1 = value piece.2)
    (keeps : ∀ world expression, inv world → inv (evaluate world expression).2) :
    ∀ (done : Bytes) (world : ω), inv world →
      (∀ k < pieces.length, done.length + ((outputs pieces (pieces.map fun piece =>
        (value piece.2).getD [])).take k).flatten.length < UInt32.size) →
      ∃ out, loop evaluate template (pieces.length + 1) (done ++ s) done.length world = some out ∧
        out.result.toOption = (pieces.mapM fun piece => value piece.2).map fun values =>
          .string (done ++ fill pieces values last) := by
  induction split with
  | last none_ =>
    intro done world _ _
    simp [loop, Lib.Delimiters.find_eq_none.mpr none_, fill, outputs, Except.toOption]
  | @piece s found pieces last leftmost _ ih =>
    intro done world kept fits
    have here : done.length % UInt32.size = done.length := Nat.mod_eq_of_lt (by simpa using fits 0 (Nat.succ_pos _))
    have first := constant _ List.mem_cons_self world kept
    have behind := keeps world found.content kept
    rw [List.length_cons, loop, List.drop_left, Lib.Delimiters.find_eq_some.mpr leftmost]
    simp only [if_neg (around_ne_template several leftmost), here, List.mapM_cons]
    dsimp only at first
    generalize evaluate world found.content = evaluated at first behind ⊢
    obtain ⟨result, world'⟩ := evaluated
    cases result with
    | error e => rw [← first]; exact ⟨_, rfl, rfl⟩
    | ok v =>
      cases v with
      | string written =>
        replace first : some written = value found.content := first
        have size : done.length + found.before.length + written.length = (done ++ (found.before ++ written)).length := by
          simp only [List.length_append]
          omega
        obtain ⟨out, ran, came⟩ := ih (fun piece member => constant piece (List.mem_cons_of_mem _ member))
          (done ++ (found.before ++ written)) world' behind fun k inside => by
            have bound := fits (k + 1) (Nat.succ_lt_succ inside)
            simp only [outputs, List.map_cons, List.zipWith_cons_cons, List.take_succ_cons, List.flatten_cons,
              List.length_append, ← first, Option.getD_some] at bound ⊢
            omega
        simp only [replace_found leftmost, size, ran]
        refine ⟨_, rfl, came.trans ?_⟩
        simp only [← first, Option.bind_eq_bind, Option.bind_some]
        cases pieces.mapM fun piece => value piece.2 with
        | none => rfl
        | some values => simp [fill, outputs]
      | boolean | double | long | json | span | uchars => rw [← first]; exact ⟨_, rfl, rfl⟩

/-- What a template comes to that is not one placeholder. -/
theorem substitute_fills (several : ∀ expression, ¬ Single template expression) {pieces : List (Bytes × Bytes)}
    {last : Bytes} (split : pattern.Split template pieces last)
    (constant : ∀ piece ∈ pieces, ∀ world, inv world → string? (evaluate world piece.2).1 = value piece.2)
    (keeps : ∀ world expression, inv world → inv (evaluate world expression).2)
    (fits : Fits pieces (pieces.map fun piece => (value piece.2).getD [])) {world : ω} (start : inv world) :
    Lib.Fuel.Ends (fun fuel => (substitute evaluate fuel template world).map fun out => out.result.toOption)
      (filled pieces last value) := by
  obtain ⟨out, ran, came⟩ := loop_fills several split constant keeps [] world start fun k inside => by
    simpa using fits k inside
  exact ⟨pieces.length + 1, (congrArg (Option.map _) ran).trans (congrArg some came)⟩

end Constant

end SubsEngine

end M2eBridge
