import M2eBridge.Substitutions.Repeat

/-!
# Values and the environment

What an evaluation writes to its environment changes the value of one kind of expression only: extras
have no value of their own, and an expression that names them and no key has that of the last key that was
looked up. So a template that succeeds comes to the same value behind any others that have succeeded,
unless it is one such placeholder, and succeeds then too (`substitute_firm`).
-/

namespace M2eBridge

open SubsEngine (string?)

/-- The paths from the object lead where they led, and the object has the value that it had, unless it is
extras. -/
structure EnvObject.Stays (C : Codec) (o o' : EnvObject) : Prop extends EnvObject.Looks C o o' where
  extras : (∃ e, o' = .extra e) ↔ ∃ e, o = .extra e
  value : (∀ e, o ≠ .extra e) → (ObjectProxy.ofObject o').value = (ObjectProxy.ofObject o).value

theorem EnvObject.stays_kept (C : Codec) : EnvObject.Kept C (Stays C) := by
  have message {o : EnvObject} {m : Message} (m' : Message) (stays : Stays C o (.message m)) :
      (∃ e, EnvObject.message m' = .extra e) ↔ ∃ e, o = .extra e :=
    ⟨nofun, fun extras => nomatch (stays.extras.mpr extras).choose_spec⟩
  exact
    { json := fun o m format stays =>
        ⟨(looks_kept C).json o m format stays.toLooks, message _ stays, fun other => stays.value other⟩
      cbor := fun o m format stays =>
        ⟨(looks_kept C).cbor o m format stays.toLooks, message _ stays, fun other => stays.value other⟩
      extra := fun o e key stays =>
        ⟨(looks_kept C).extra o e key stays.toLooks, ⟨fun _ => stays.extras.mp ⟨e, rfl⟩, fun _ => ⟨_, rfl⟩⟩,
          fun other => by
            obtain ⟨e', rfl⟩ := stays.extras.mp ⟨e, rfl⟩
            exact absurd rfl (other e')⟩ }

theorem becomes_stays (C : Codec) (env : EnvObjects) : Becomes (EnvObject.Stays C) env env := by
  intro name
  cases env.lookup name with
  | none => exact .none
  | some o => exact .some ⟨⟨rfl, fun _ => rfl⟩, Iff.rfl, fun _ => rfl⟩

theorem becomes_looks {C : Codec} {before env : EnvObjects} (stays : Becomes (EnvObject.Stays C) before env) :
    Becomes (EnvObject.Looks C) before env := by
  intro name
  have now := stays name
  generalize before.lookup name = o at now ⊢
  generalize env.lookup name = o' at now ⊢
  cases now with
  | none => exact .none
  | some stays => exact .some stays.toLooks

/-! ## The last key -/

namespace EvalState

theorem written_extra (s : EvalState) (e : MessageExtra) (name : String) :
    (s.written (.extra e)).lookup name = (s.env.lookup name).map fun w => if name = s.root then .extra e else w := by
  rw [← lookup_write, written]
  congr 2
  funext entry
  by_cases here : entry.1 = s.root <;> simp [here]

theorem written_message (s : EvalState) (m : Message) (name : String) :
    (s.written (.message m)).lookup name = (s.env.lookup name).map fun w => if name = s.root then .message m else w := by
  rw [← lookup_write, written]
  congr 2
  funext entry
  by_cases here : entry.1 = s.root <;> simp [here]

/-- A step on anything but extras leaves a message, or nothing to be written back. -/
theorem next_left (C : Codec) (key : Bytes) {obj : ObjectProxy} (other : ∀ e, obj ≠ .extra e) :
    (∃ m, (obj.next C key).2 = .message m) ∨ ∀ s : EvalState, s.written (obj.next C key).2 = s.env := by
  cases obj with
  | message m =>
    refine .inl ?_
    simp only [ObjectProxy.next]
    split
    · split <;> exact ⟨_, rfl⟩
    · split
      · exact ⟨_, rfl⟩
      · split <;> exact ⟨_, rfl⟩
  | cbor item =>
    refine .inr fun s => ?_
    cases item with
    | none => rfl
    | some item => simp only [ObjectProxy.next]; split <;> rfl
  | extra e => exact absurd rfl (other e)
  | json | strings | string | stringMap => exact .inr fun _ => rfl

/-- Extras in the environment behind such a step were there before it. -/
theorem written_left {C : Codec} {s : EvalState} {key : Bytes} {obj : ObjectProxy} (other : ∀ e, obj ≠ .extra e)
    {name : String} {e : MessageExtra} (found : (s.written (obj.next C key).2).lookup name = some (.extra e)) :
    s.env.lookup name = some (.extra e) := by
  rcases next_left C key other with ⟨m, left⟩ | unwritten
  · rw [left, written_message] at found
    obtain ⟨w, was, now⟩ := Option.map_eq_some_iff.mp found
    by_cases root : name = s.root
    · rw [if_pos root] at now
      cases now
    · rw [if_neg root] at now
      exact now ▸ was
  · rwa [unwritten] at found

/-- Extras are as they were, unless the evaluation stands at them. -/
def Leaves (env : EnvObjects) (s : EvalState) : Prop :=
  ∀ name e, s.env.lookup name = some (.extra e) →
    env.lookup name = some (.extra e) ∨ name = s.root ∧ s.obj = some (.extra e)

theorem Leaves.next {C : Codec} {env : EnvObjects} {s t : EvalState} {key : Bytes} (leaves : Leaves env s)
    (stepped : s.next C key = (.ok (), t)) : Leaves env t ∧ t.value = s.value := by
  unfold EvalState.next at stepped
  split at stepped
  · cases stepped
  · next obj here =>
    split at stepped
    · next obj' left moved =>
      cases stepped
      refine ⟨fun name e found => ?_, rfl⟩
      by_cases extras : ∃ e₀, obj = .extra e₀
      · obtain ⟨e₀, rfl⟩ := extras
        cases moved
        rw [written_extra] at found
        obtain ⟨w, was, now⟩ := Option.map_eq_some_iff.mp found
        by_cases root : name = s.root
        · rw [if_pos root] at now
          exact .inr ⟨root, congrArg some (by cases now; rfl)⟩
        · rw [if_neg root] at now
          subst now
          exact (leaves name e was).imp_right fun stands => absurd stands.1 root
      · have unmoved : ∀ e', s.obj ≠ some (.extra e') := by
          rintro e' stands
          exact extras ⟨e', Option.some.inj (here.symm.trans stands)⟩
        have was : s.env.lookup name = some (.extra e) := by
          have behind : (s.written (obj.next C key).2).lookup name = some (.extra e) := by rwa [moved]
          exact written_left (fun e₀ same => extras ⟨e₀, same⟩) behind
        exact (leaves name e was).imp_right fun stands => absurd stands.2 (unmoved e)
    · cases stepped

theorem Leaves.nextIndex {env : EnvObjects} {s t : EvalState} {digits : Bytes} (leaves : Leaves env s)
    (stepped : s.nextIndex digits = (.ok (), t)) : Leaves env t ∧ t.value = s.value := by
  unfold EvalState.nextIndex at stepped
  split at stepped
  · cases stepped
  · cases stepped
  · next obj _ here =>
    split at stepped
    · next obj' reached =>
      cases stepped
      refine ⟨fun name e found => (leaves name e found).imp_right fun stands => ?_, rfl⟩
      cases here.symm.trans stands.2
      cases reached
    · cases stepped

end EvalState

namespace Grammar

open Lib.Rule EvalState

theorem leaves_forEach {C : Codec} {env : EnvObjects} (steps : List Step) :
    ∀ {s t : EvalState}, Leaves env s → forEach (applyStep C) steps s = (.ok (), t) → Leaves env t ∧ t.value = s.value := by
  induction steps with
  | nil => intro s t leaves stepped; cases stepped; exact ⟨leaves, rfl⟩
  | cons step steps ih =>
    intro s t leaves stepped
    rw [forEach] at stepped
    split at stepped
    · next s' first =>
      obtain ⟨here, value⟩ : Leaves env s' ∧ s'.value = s.value := by
        cases step with
        | property key => exact leaves.next first
        | index digits => exact leaves.nextIndex first
      obtain ⟨behind, value'⟩ := ih here stepped
      exact ⟨behind, value'.trans value⟩
    · next other => exact absurd stepped (other t)

/-- A modifier looks at the value, and leaves the object and the environment. -/
theorem modify_value {handlers : ImageHandlers} {s t : EvalState} {modifierDef : Bytes}
    (modified : s.modify handlers modifierDef = (.ok (), t)) :
    t.env = s.env ∧ ∃ v, s.objValue = .ok v := by
  unfold EvalState.modify at modified
  split at modified
  · cases modified
  · next value valued =>
    split at modified
    · cases modified
    · cases modified
    · split at modified <;> cases modified <;> exact ⟨rfl, _, valued⟩
  · cases modified

/-- Steps and a modifier that come to a value leave extras as they were, or at extras that have a value. -/
theorem leaves_both {C : Codec} {handlers : ImageHandlers} {env : EnvObjects} {path : List Step × Option ModifierDef}
    {s t : EvalState} {v : Substituted} (leaves : Leaves env s) (unset : s.value = [])
    (walked : both (forEach (applyStep C)) (ifAny fun m => EvalState.modify handlers m.text) path s = (.ok (), t))
    (value : t.getValue = .ok v) {name : String} {e : MessageExtra} (found : t.env.lookup name = some (.extra e)) :
    env.lookup name = some (.extra e) ∨ ∃ v', (ObjectProxy.extra e).value = .ok v' := by
  obtain ⟨steps, modifier⟩ := path
  simp only [both] at walked
  split at walked
  · next s' stepped =>
    obtain ⟨leaves, same⟩ := leaves_forEach steps leaves stepped
    have valued (value : ∃ v', s'.objValue = .ok v') (found : s'.env.lookup name = some (.extra e)) :
        env.lookup name = some (.extra e) ∨ ∃ v', (ObjectProxy.extra e).value = .ok v' := by
      refine (leaves name e found).imp_right fun stands => ?_
      simpa only [EvalState.objValue, stands.2] using value
    cases modifier with
    | none =>
      cases walked
      refine valued ⟨v, ?_⟩ found
      simpa only [EvalState.getValue, same, unset, List.length_nil, Nat.lt_irrefl, if_false] using value
    | some m =>
      obtain ⟨kept, valued'⟩ := modify_value walked
      exact valued valued' (kept ▸ found)
  · next other => exact absurd walked (other t)

/-- After an evaluation that succeeds extras are as they were, or have a value. -/
theorem evaluate_leaves {C : Codec} {handlers : ImageHandlers} {env env' : EnvObjects} {text : Bytes} {v : Substituted}
    (evaluated : SubsEngine.evaluate C handlers env text = (.ok v, env')) {name : String} {e : MessageExtra}
    (found : env'.lookup name = some (.extra e)) :
    env.lookup name = some (.extra e) ∨ ∃ v', (ObjectProxy.extra e).value = .ok v' := by
  rw [SubsEngine.evaluate, expression, identifier_eq, path_eq] at evaluated
  simp only [seq, acting] at evaluated
  generalize readIdentifier text = read at evaluated
  rcases read with _ | ⟨root, rest⟩
  · cases evaluated
  simp only [EvalState.start] at evaluated
  rcases bound : ObjectProxy.mapAt env (SubsEngine.shown root.val) with e' | object
  · rw [bound] at evaluated
    cases evaluated
  rw [bound] at evaluated
  dsimp only at evaluated
  generalize scanThen (scanPlus readStep) (scanOpt readModifier) rest = path at evaluated
  rcases path with _ | ⟨⟨steps, modifier⟩, rest'⟩
  · obtain ⟨-, rfl⟩ := Prod.mk.inj evaluated
    exact .inl found
  · have start : Leaves env { env, root := SubsEngine.shown root.val, obj := some (.ofObject object) } :=
      fun _ _ found => .inl found
    simp only at evaluated
    generalize walked : both (forEach (applyStep C)) (ifAny fun m => EvalState.modify handlers m.text) (steps, modifier)
      { env, root := SubsEngine.shown root.val, obj := some (.ofObject object) } = result at evaluated
    rcases result with ⟨e' | ⟨⟩, t⟩
    · cases evaluated
    · obtain ⟨value, rfl⟩ := Prod.mk.inj evaluated
      exact leaves_both start rfl walked value found

end Grammar

/-! ## Values that stay -/

/-- The expression names extras and no key of them. -/
def Grammar.BareExtras (env : EnvObjects) (expression : Bytes) : Prop :=
  ∃ path e, readPath expression = some path ∧ path.steps = [] ∧
    env.lookup (SubsEngine.shown path.root.val) = some (.extra e)

namespace Grammar

/-- Without a step there is no modifier. -/
theorem readPath_bare {text : Bytes} {path : Path} (read : readPath text = some path) (bare : path.steps = []) :
    path.modifier = none := by
  obtain ⟨⟨root, rest⟩, -, rfl⟩ := Option.map_eq_some_iff.mp read
  dsimp only at bare ⊢
  cases first : readStep rest with
  | none => simp [Lib.Rule.scanThen, Lib.Rule.scanPlus, first]
  | some step => simp [Lib.Rule.scanThen, Lib.Rule.scanPlus, first] at bare

/-- Its value is that of the extras. -/
theorem bare_value {C : Codec} {handlers : ImageHandlers} {env : EnvObjects} {expression : Bytes} {path : Path}
    {e : MessageExtra} (read : readPath expression = some path) (bare : path.steps = [])
    (found : env.lookup (SubsEngine.shown path.root.val) = some (.extra e)) :
    (SubsEngine.evaluate C handlers env expression).1 = (ObjectProxy.extra e).value := by
  rw [evaluate_eq, read]
  simp only [valueAt, follow, ObjectProxy.mapAt, bare, readPath_bare read bare, found]
  change (ObjectProxy.extra e).value >>= pure = _
  exact bind_pure _

/-- The value of any other expression is the value that it had. -/
theorem value_becomes {C : Codec} {before env : EnvObjects} (stays : Becomes (EnvObject.Stays C) before env)
    (handlers : ImageHandlers) {expression : Bytes} (keyed : ¬ BareExtras before expression) :
    (SubsEngine.evaluate C handlers env expression).1 = (SubsEngine.evaluate C handlers before expression).1 := by
  rw [evaluate_eq, evaluate_eq]
  cases read : readPath expression with
  | none => rfl
  | some path =>
    have now := stays (SubsEngine.shown path.root.val)
    have other : path.steps = [] → ∀ e, before.lookup (SubsEngine.shown path.root.val) ≠ some (.extra e) :=
      fun none_ e found => keyed ⟨path, e, read, none_, found⟩
    simp only [valueAt, follow, ObjectProxy.mapAt]
    generalize before.lookup (SubsEngine.shown path.root.val) = o at now other ⊢
    generalize env.lookup (SubsEngine.shown path.root.val) = o' at now ⊢
    cases now with
    | none => rfl
    | @some o o' stays =>
      cases steps : path.steps with
      | nil =>
        have value := stays.value fun e same => other steps e (congrArg some same)
        change (ObjectProxy.ofObject o').value >>= _ = (ObjectProxy.ofObject o).value >>= _
        rw [value]
      | cons step rest =>
        change (step.take C (.ofObject o') >>= _) >>= _ = (step.take C (.ofObject o) >>= _) >>= _
        rw [stays.step step]

end Grammar

namespace SubsEngine

variable {C : Codec} {handlers : ImageHandlers} {before env : EnvObjects}

theorem string?_eq_some {result : Except Exn Substituted} {s : Bytes} :
    string? result = some s ↔ result = .ok (.string s) := by
  constructor
  · intro text
    cases result with
    | error e => cases text
    | ok v =>
      cases v with
      | string s' => cases text; rfl
      | boolean | double | long | json | span | uchars => cases text
  · rintro rfl
    rfl

/-- What evaluations that succeed leave of an environment: extras that had a value have one. -/
structure Firm (C : Codec) (before env : EnvObjects) : Prop where
  stays : Becomes (EnvObject.Stays C) before env
  valued : ∀ name e e' v, before.lookup name = some (.extra e) → (ObjectProxy.extra e).value = .ok v →
    env.lookup name = some (.extra e') → ∃ v', (ObjectProxy.extra e').value = .ok v'

theorem Firm.start (C : Codec) (env : EnvObjects) : Firm C env env where
  stays := becomes_stays C env
  valued := fun _ _ _ v bound value found => by
    cases bound.symm.trans found
    exact ⟨v, value⟩

theorem Firm.evaluate (firm : Firm C before env) {env' : EnvObjects} {text : Bytes} {v : Substituted}
    (evaluated : SubsEngine.evaluate C handlers env text = (.ok v, env')) : Firm C before env' where
  stays := by
    have stays := evaluate_becomes handlers (EnvObject.stays_kept C) firm.stays text
    rwa [evaluated] at stays
  valued := fun name e e' v bound value found => by
    rcases Grammar.evaluate_leaves evaluated found with was | value'
    · exact firm.valued name e e' v bound value was
    · exact value'

/-- A template that succeeds has only evaluated what succeeds. -/
theorem Firm.loop {template : Bytes} (fuel : Nat) :
    ∀ {result : Bytes} {pos : Nat} {env : EnvObjects} {out : Outcome EnvObjects} {value : Substituted},
      SubsEngine.loop (SubsEngine.evaluate C handlers) template fuel result pos env = some out → out.result = .ok value →
      Firm C before env → Firm C before out.world := by
  induction fuel with
  | zero => intro _ _ _ _ _ ran; cases ran
  | succ fuel ih =>
    intro result pos env out value ran returned firm
    rw [SubsEngine.loop] at ran
    split at ran
    · cases ran; exact firm
    · dsimp only at ran
      split at ran
      · split at ran
        · next evaluated => cases ran; exact firm.evaluate evaluated
        · cases ran; cases returned
      · split at ran
        · next evaluated =>
          obtain ⟨rest, later, rfl⟩ := Option.map_eq_some_iff.mp ran
          have later := ih later returned (firm.evaluate evaluated)
          exact later
        · cases ran; cases returned
        · cases ran; cases returned

/-- A template of several pieces that succeeds comes to the same text. -/
theorem loop_same {template : Bytes} (several : ∀ expression, ¬ Single template expression) (fuel : Nat) :
    ∀ (result : Bytes) (pos : Nat) (env env' : EnvObjects) (out : Outcome EnvObjects) (value : Substituted),
      Becomes (EnvObject.Looks C) before env → Becomes (EnvObject.Looks C) before env' →
      loop (evaluate C handlers) template fuel result pos env = some out → out.result = .ok value →
      ∃ out', loop (evaluate C handlers) template fuel result pos env' = some out' ∧ out'.result = .ok value := by
  induction fuel with
  | zero => intro _ _ _ _ _ _ _ _ ran; cases ran
  | succ fuel ih =>
    intro result pos env env' out value looks looks' ran returned
    rw [loop] at ran ⊢
    split at ran
    · cases ran
      exact ⟨_, rfl, returned⟩
    · next found leftmost =>
      have part := around_ne_template several (Lib.Delimiters.find_eq_some.mp leftmost)
      have behind := evaluate_becomes handlers (EnvObject.looks_kept C) looks found.content
      have behind' := evaluate_becomes handlers (EnvObject.looks_kept C) looks' found.content
      have same := (Grammar.string_becomes looks' handlers found.content).trans
        (Grammar.string_becomes looks handlers found.content).symm
      dsimp only at ran ⊢
      rw [if_neg part] at ran ⊢
      generalize evaluate C handlers env found.content = here at ran same behind
      generalize evaluate C handlers env' found.content = there at same behind' ⊢
      obtain ⟨here, world⟩ := here
      obtain ⟨there, world'⟩ := there
      cases text : string? here with
      | some vvalue =>
        obtain rfl : here = .ok (.string vvalue) := string?_eq_some.mp text
        obtain rfl : there = .ok (.string vvalue) := string?_eq_some.mp (same.trans text)
        obtain ⟨rest, later, rfl⟩ := Option.map_eq_some_iff.mp ran
        obtain ⟨rest', later', returned'⟩ := ih _ _ world world' rest value behind behind' later returned
        exact ⟨_, congrArg (Option.map _) later', returned'⟩
      | none =>
        split at ran
        · next written =>
          rw [(Prod.mk.inj written).1] at text
          cases text
        · cases ran; cases returned
        · cases ran; cases returned

/-- An expression that succeeds still does, with the same value unless it names extras and no key. -/
theorem Firm.value (firm : Firm C before env) {expression : Bytes} {v : Substituted}
    (valued : (SubsEngine.evaluate C handlers before expression).1 = .ok v) :
    ∃ v', (SubsEngine.evaluate C handlers env expression).1 = .ok v' ∧
      (¬ Grammar.BareExtras before expression → v' = v) := by
  by_cases bare : Grammar.BareExtras before expression
  · refine (?_ : ∃ v', _ = Except.ok v').imp fun v' evaluated => ⟨evaluated, fun keyed => absurd bare keyed⟩
    obtain ⟨path, e, read, none_, bound⟩ := bare
    have now := firm.stays (SubsEngine.shown path.root.val)
    rw [bound] at now
    generalize found : env.lookup (SubsEngine.shown path.root.val) = o at now
    cases now with
    | some stays =>
      obtain ⟨e', rfl⟩ := stays.extras.mpr ⟨e, rfl⟩
      rw [Grammar.bare_value read none_ found]
      exact firm.valued _ e e' v bound ((Grammar.bare_value read none_ bound).symm.trans valued) found
  · exact ⟨v, (Grammar.value_becomes firm.stays handlers bare).trans valued, fun _ => rfl⟩

/-- A template that succeeds still does behind others that have, with the same value unless it is one placeholder
for extras without a key. -/
theorem substitute_firm {template : Bytes} {fuel : Nat} {out : Outcome EnvObjects} {value : Substituted}
    (firm : Firm C before env) (ran : substitute (evaluate C handlers) fuel template before = some out)
    (returned : out.result = .ok value) :
    ∃ out' value', substitute (evaluate C handlers) fuel template env = some out' ∧ out'.result = .ok value' ∧
      Firm C before out'.world ∧
      ((∀ expression, Single template expression → ¬ Grammar.BareExtras before expression) → value' = value) := by
  by_cases single : ∃ expression, Single template expression
  · obtain ⟨expression, single⟩ := single
    cases fuel with
    | zero => cases ran
    | succ fuel =>
      have one (world : EnvObjects) := (substitute_steady world).le (Nat.succ_le_succ (Nat.zero_le fuel))
        (@loop_single _ (evaluate C handlers) _ _ single world)
      rw [one before] at ran
      cases ran
      have valued : (evaluate C handlers before expression).1 = .ok value := by
        cases result : (evaluate C handlers before expression).1 with
        | error e => rw [result] at returned; cases returned
        | ok v => rw [result] at returned; exact returned
      obtain ⟨value', valued', same⟩ := firm.value valued
      refine ⟨_, value', one env, ?_, firm.evaluate (Prod.ext valued' rfl), fun keyed => same (keyed expression single)⟩
      rw [valued']
      rfl
  · obtain ⟨out', ran', returned'⟩ := loop_same (not_exists.mp single) fuel template 0 before env out value
      (becomes_refl C before) (becomes_looks firm.stays) ran returned
    exact ⟨out', value, ran', returned', firm.loop fuel ran' returned', fun _ => rfl⟩

end SubsEngine

end M2eBridge
