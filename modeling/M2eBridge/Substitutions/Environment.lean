import M2eBridge.Substitutions.Expression

/-!
# The environment of an evaluation

An evaluation writes to the objects of its environment: the message keeps what it decodes,
and the extras keep the key. Whatever it does to a message is done by `get_json` on a JSON
payload and `get_cbor` on a CBOR one, so what these two and the key keep of an object is kept by
every evaluation, of any text, and by the substitution of a whole template.
-/

namespace M2eBridge

/-- What the steps keep, `becomes` leading from what an object was at first to what it is now. -/
structure EnvObject.Kept (C : Codec) (becomes : EnvObject → EnvObject → Prop) : Prop where
  json : ∀ (o : EnvObject) (m : Message), m.format = .json → becomes o (.message m) → becomes o (.message (m.getJson C).2)
  cbor : ∀ (o : EnvObject) (m : Message), m.format = .cbor → becomes o (.message m) → becomes o (.message (m.getCbor C).2)
  extra : ∀ (o : EnvObject) (e : MessageExtra) (key : String), becomes o (.extra e) → becomes o (.extra { e with key })

/-- Every object has become what it is, under its name. -/
def Becomes (becomes : EnvObject → EnvObject → Prop) (before env : EnvObjects) : Prop :=
  ∀ name, Option.Rel becomes (before.lookup name) (env.lookup name)

/-- The object is no message and no extras other than `holds` has it. -/
def ObjectProxy.Inner (holds : EnvObject → Prop) (obj : ObjectProxy) : Prop :=
  (∀ m, obj = .message m → holds (.message m)) ∧ ∀ e, obj = .extra e → holds (.extra e)

namespace EvalState

variable {C : Codec} {handlers : ImageHandlers} {becomes : EnvObject → EnvObject → Prop} {before : EnvObjects}

/-- What the object under the name may be. -/
def Under (becomes : EnvObject → EnvObject → Prop) (before : EnvObjects) (name : String) (v : EnvObject) : Prop :=
  ∀ o, before.lookup name = some o → becomes o v

/-- The objects have become what they are, also the one that the evaluation stands at. -/
structure Sound (becomes : EnvObject → EnvObject → Prop) (before : EnvObjects) (s : EvalState) : Prop where
  env : Becomes becomes before s.env
  object : ∀ obj, s.obj = some obj → obj.Inner (Under becomes before s.root)

theorem mapAt_ok {α : Type} {m : List (String × α)} {key : String} {v : α} :
    ObjectProxy.mapAt m key = .ok v ↔ m.lookup key = some v := by
  unfold ObjectProxy.mapAt
  split <;> simp [*]

/-- What is written under a name is found under it, and nothing else is changed. -/
theorem lookup_write (env : EnvObjects) (root key : String) (v : EnvObject) :
    (env.map fun entry => (entry.1, if entry.1 = root then v else entry.2)).lookup key =
      (env.lookup key).map fun w => if key = root then v else w := by
  induction env with
  | nil => rfl
  | cons entry rest ih =>
    rw [List.map_cons, List.lookup_cons, List.lookup_cons]
    by_cases here : key = entry.1
    · simp [here]
    · rw [beq_eq_false_iff_ne.mpr here]
      exact ih

theorem becomes_write {env : EnvObjects} {root : String} {v : EnvObject} (env_ : Becomes becomes before env)
    (written : Under becomes before root v) :
    Becomes becomes before (env.map fun entry => (entry.1, if entry.1 = root then v else entry.2)) := by
  intro name
  have now := env_ name
  rw [lookup_write]
  cases found : before.lookup name with
  | none =>
    rw [found] at now
    generalize env.lookup name = entry at now
    cases now
    exact .none
  | some o =>
    rw [found] at now
    generalize env.lookup name = entry at now
    cases now with
    | some become =>
      refine .some ?_
      dsimp only
      by_cases here : name = root
      · rw [if_pos here]; exact written o (here ▸ found)
      · rw [if_neg here]; exact become

/-- What a step leaves of the object is written back. -/
theorem written_eq (s : EvalState) (obj : ObjectProxy) :
    s.written obj = s.env ∨ ∃ v, s.written obj = s.env.map (fun entry => (entry.1, if entry.1 = s.root then v else entry.2)) ∧
      ((∃ m, obj = .message m ∧ v = .message m) ∨ ∃ e, obj = .extra e ∧ v = .extra e) := by
  have same (v : EnvObject) : (fun entry : String × EnvObject => if entry.1 = s.root then (entry.1, v) else (entry.1, entry.2)) =
      fun entry => (entry.1, if entry.1 = s.root then v else entry.2) := by
    funext entry
    split <;> rfl
  cases obj with
  | message m => exact .inr ⟨.message m, congrArg (s.env.map ·) (same _), .inl ⟨m, rfl, rfl⟩⟩
  | extra e => exact .inr ⟨.extra e, congrArg (s.env.map ·) (same _), .inr ⟨e, rfl, rfl⟩⟩
  | json | strings | string | stringMap | cbor => exact .inl rfl

theorem becomes_written {s : EvalState} {obj : ObjectProxy} (env : Becomes becomes before s.env)
    (inner : obj.Inner (Under becomes before s.root)) : Becomes becomes before (s.written obj) := by
  rcases written_eq s obj with same | ⟨v, written, ⟨m, rfl, rfl⟩ | ⟨e, rfl, rfl⟩⟩
  · rw [same]; exact env
  · rw [written]; exact becomes_write env (inner.1 m rfl)
  · rw [written]; exact becomes_write env (inner.2 e rfl)

/-! ## The steps -/

/-- What a reading comes to, put into a proxy that is neither a message nor extras. -/
theorem map_inner {α : Type} {holds : EnvObject → Prop} {read : Except Exn α} {wrap : α → ObjectProxy}
    (inner : ∀ a, (wrap a).Inner holds) (next : ObjectProxy) (reached : read.map wrap = .ok next) : next.Inner holds := by
  cases read with
  | error e => cases reached
  | ok a => cases reached; exact inner a

/-- Neither what a step leads to nor what it leaves is other than it may be. -/
theorem next_inner (kept : EnvObject.Kept C becomes) {root : String} {obj : ObjectProxy}
    (inner : obj.Inner (Under becomes before root)) (key : Bytes) :
    (obj.next C key).2.Inner (Under becomes before root) ∧
      ∀ next, (obj.next C key).1 = .ok next → next.Inner (Under becomes before root) := by
  cases obj with
  | message msg =>
    have here := inner.1 msg rfl
    have left (m : Message) (good : Under becomes before root (.message m)) :
        (ObjectProxy.message m).Inner (Under becomes before root) :=
      ⟨fun _ same => ObjectProxy.message.inj same ▸ good, nofun⟩
    simp only [ObjectProxy.next]
    split
    · split
      · next format =>
        exact ⟨left _ fun o found => kept.json o msg format (here o found), map_inner fun _ => ⟨nofun, nofun⟩⟩
      · next format =>
        exact ⟨left _ fun o found => kept.cbor o msg format (here o found), map_inner fun _ => ⟨nofun, nofun⟩⟩
      · exact ⟨inner, nofun⟩
    · split
      · exact ⟨inner, fun next reached => by cases reached; exact ⟨nofun, nofun⟩⟩
      · split
        · exact ⟨inner, fun next reached => by cases reached; exact ⟨nofun, nofun⟩⟩
        · exact ⟨inner, nofun⟩
  | json j => exact ⟨inner, map_inner fun _ => ⟨nofun, nofun⟩⟩
  | stringMap m => exact ⟨inner, map_inner fun _ => ⟨nofun, nofun⟩⟩
  | cbor item =>
    cases item with
    | none => exact ⟨inner, nofun⟩
    | some item =>
      simp only [ObjectProxy.next]
      split
      · exact ⟨inner, fun next reached => by cases reached; exact ⟨nofun, nofun⟩⟩
      · exact ⟨inner, nofun⟩
  | extra e =>
    have left : (ObjectProxy.extra { e with key := SubsEngine.shown key }).Inner (Under becomes before root) :=
      ⟨nofun, fun _ same => ObjectProxy.extra.inj same ▸ fun o found => kept.extra o e _ (inner.2 e rfl o found)⟩
    exact ⟨left, fun next reached => by cases reached; exact left⟩
  | strings | string => exact ⟨inner, nofun⟩

theorem nextIndex_inner {holds : EnvObject → Prop} {obj next : ObjectProxy} {ix : Nat}
    (reached : obj.nextIndex ix = .ok next) : next.Inner holds := by
  cases obj with
  | strings v =>
    simp only [ObjectProxy.nextIndex] at reached
    split at reached <;> cases reached
    exact ⟨nofun, nofun⟩
  | json j =>
    refine map_inner ?_ next reached
    exact fun _ => ⟨nofun, nofun⟩
  | message | string | stringMap | cbor | extra => cases reached

theorem Sound.start {s : EvalState} (sound : Sound becomes before s) (name : Bytes) :
    Sound becomes before (s.start name).2 := by
  unfold EvalState.start
  split
  · next v found =>
    have here : Under becomes before (SubsEngine.shown name) v := by
      intro o was
      have now := sound.env (SubsEngine.shown name)
      rw [was, mapAt_ok.mp found] at now
      cases now with
      | some become => exact become
    refine ⟨sound.env, ?_⟩
    rintro _ ⟨⟩
    cases v with
    | message m => exact ⟨fun _ same => ObjectProxy.message.inj same ▸ here, nofun⟩
    | extra e => exact ⟨nofun, fun _ same => ObjectProxy.extra.inj same ▸ here⟩
    | json | stringMap => exact ⟨nofun, nofun⟩
  · exact sound

theorem Sound.next (kept : EnvObject.Kept C becomes) {s : EvalState} (sound : Sound becomes before s) (key : Bytes) :
    Sound becomes before (s.next C key).2 := by
  unfold EvalState.next
  split
  · exact sound
  · next obj here =>
    have inner := next_inner kept (sound.object obj here) key
    split
    · next obj' left stepped =>
      rw [stepped] at inner
      refine ⟨becomes_written sound.env inner.1, ?_⟩
      rintro _ ⟨⟩
      exact inner.2 obj' rfl
    · next e left stepped =>
      rw [stepped] at inner
      exact ⟨becomes_written sound.env inner.1, sound.object⟩

theorem Sound.nextIndex {s : EvalState} (sound : Sound becomes before s) (digits : Bytes) :
    Sound becomes before (s.nextIndex digits).2 := by
  unfold EvalState.nextIndex
  split
  · exact sound
  · exact sound
  · split
    · next reached =>
      refine ⟨sound.env, ?_⟩
      rintro _ ⟨⟩
      exact nextIndex_inner reached
    · exact sound

theorem Sound.modify {s : EvalState} (sound : Sound becomes before s) (modifierDef : Bytes) :
    Sound becomes before (s.modify handlers modifierDef).2 := by
  unfold EvalState.modify
  split
  · exact sound
  · split
    · exact sound
    · exact ⟨sound.env, sound.object⟩
    · split
      · exact ⟨sound.env, sound.object⟩
      · exact sound
  · exact sound

end EvalState

namespace SubsEngine

open Lib.Rule EvalState

variable {C : Codec} {handlers : ImageHandlers} {becomes : EnvObject → EnvObject → Prop} {before : EnvObjects}

theorem keeps_name : (Grammar.name).Keeps (Sound becomes before) := (keeps_one _).seq (keeps_one _).star

theorem keeps_expression (handlers : ImageHandlers) (kept : EnvObject.Kept C becomes) :
    (Grammar.expression C handlers).Keeps (Sound becomes before) := by
  have identifier : Grammar.identifier.Keeps (Sound becomes before) :=
    keeps_name.act fun text _ sound => sound.start text
  have property : (Grammar.property C).Keeps (Sound becomes before) :=
    ((keeps_one _).seq keeps_name).act fun text _ sound => sound.next kept text.tail
  have index : Grammar.index.Keeps (Sound becomes before) :=
    ((keeps_one _).seq ((keeps_one _).plus.seq (keeps_one _))).act fun text _ sound => sound.nextIndex _
  have modifier : (Grammar.modifier handlers).Keeps (Sound becomes before) :=
    ((keeps_one _).seq (keeps_name.seq ((keeps_one _).seq (keeps_one _).plus).opt)).act fun text _ sound => sound.modify _
  exact identifier.seq ((property.sor index).plus.seq modifier.opt)

/-- What the steps keep, the evaluation of any text keeps. -/
theorem evaluate_becomes (handlers : ImageHandlers) (kept : EnvObject.Kept C becomes) {env : EnvObjects}
    (env_ : Becomes becomes before env)
    (expression : Bytes) : Becomes becomes before (evaluate C handlers env expression).2 := by
  have sound := keeps_expression handlers kept expression { env } ⟨env_, fun _ none_ => by cases none_⟩
  unfold evaluate
  split
  · next evaluated => rw [evaluated] at sound; exact sound.env
  · next evaluated => rw [evaluated] at sound; exact sound.env

variable {ω : Type} {run : ω → Bytes → Except Exn Substituted × ω} {inv : ω → Prop}

/-- The substitution of a template keeps what every evaluation does. -/
theorem loop_keeps (keeps : ∀ world expression, inv world → inv (run world expression).2) (template : Bytes) (fuel : Nat) :
    ∀ {result : Bytes} {pos : Nat} {world : ω} {out : Outcome ω}, loop run template fuel result pos world = some out →
      inv world → inv out.world := by
  induction fuel with
  | zero => intro _ _ _ _ ran; cases ran
  | succ fuel ih =>
    intro result pos world out ran kept
    rw [loop] at ran
    split at ran
    · cases ran; exact kept
    · next found _ =>
      have behind := keeps world found.content kept
      dsimp only at ran
      split at ran
      · split at ran
        · next evaluated => cases ran; rw [evaluated] at behind; exact behind
        · next evaluated => cases ran; rw [evaluated] at behind; exact behind
      · split at ran
        · next evaluated =>
          obtain ⟨rest, later, rfl⟩ := Option.map_eq_some_iff.mp ran
          rw [evaluated] at behind
          have later := ih later behind
          exact later
        · next evaluated => cases ran; rw [evaluated] at behind; exact behind
        · next evaluated => cases ran; rw [evaluated] at behind; exact behind

end SubsEngine

/-! ## The message -/

/-- What decoding the payload keeps. -/
structure Message.Kept (C : Codec) (holds : Message → Prop) : Prop where
  json : ∀ m : Message, m.format = .json → holds m → holds (m.getJson C).2
  cbor : ∀ m : Message, m.format = .cbor → holds m → holds (m.getCbor C).2

/-- The environment has a message that is so. -/
def Binds (holds : Message → Prop) (env : EnvObjects) : Prop :=
  ∃ m, ObjectProxy.mapAt env "MSG" = .ok (.message m) ∧ holds m

/-- The evaluation of any text keeps the message so. -/
theorem SubsEngine.evaluate_binds {C : Codec} {handlers : ImageHandlers} {holds : Message → Prop}
    (kept : Message.Kept C holds) {env : EnvObjects} (binds : Binds holds env) (expression : Bytes) :
    Binds holds (evaluate C handlers env expression).2 := by
  let becomes : EnvObject → EnvObject → Prop := fun o o' =>
    ∀ m, o = .message m → holds m → ∃ m', o' = .message m' ∧ holds m'
  have kept' : EnvObject.Kept C becomes :=
    { json := fun o m format become m₀ was good => by
        obtain ⟨_, ⟨⟩, now⟩ := become m₀ was good
        exact ⟨_, rfl, kept.json m format now⟩
      cbor := fun o m format become m₀ was good => by
        obtain ⟨_, ⟨⟩, now⟩ := become m₀ was good
        exact ⟨_, rfl, kept.cbor m format now⟩
      extra := fun o e key become m₀ was good => by
        obtain ⟨_, ⟨⟩, _⟩ := become m₀ was good }
  have start : Becomes becomes env env := fun name => by
    cases env.lookup name with
    | none => exact .none
    | some o => exact .some fun m same good => ⟨m, same, good⟩
  obtain ⟨m, bound, good⟩ := binds
  have now := evaluate_becomes handlers kept' start expression "MSG"
  rw [EvalState.mapAt_ok.mp bound] at now
  generalize found : (evaluate C handlers env expression).2.lookup "MSG" = entry at now
  cases now with
  | some become =>
    obtain ⟨m', rfl, good'⟩ := become m rfl good
    exact ⟨m', EvalState.mapAt_ok.mpr found, good'⟩

end M2eBridge
