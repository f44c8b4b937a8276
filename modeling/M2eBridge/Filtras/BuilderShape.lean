import M2eBridge.Filtras.Builder
import M2eBridge.Substitutions.Steady

/-!
# The shape of what is built

The document that a builder makes of a template is the template with other documents in the places
of its strings, one for each, in the order in which they stand (`Filled`): each is what the engine makes
of that string when its turn comes (`Calls`), and no string of it is looked at again. An engine writes to
its environment, and what it writes changes the value of one kind of string only, which names the extras
and no key of them (`build_fills`).
-/

namespace M2eBridge

/-- A document without parts that is no string. -/
def Json.isLeaf : Json → Bool
  | .string _ | .array _ | .object _ => false
  | _ => true

namespace BuilderFT

mutual

/-- The strings of a document, in the order in which they are substituted. -/
def strings : Json → List String
  | .string s => [s]
  | .array items => itemStrings items
  | .object entries => memberStrings entries
  | _ => []

def itemStrings : List Json → List String
  | [] => []
  | j :: rest => strings j ++ itemStrings rest

def memberStrings : List (String × Json) → List String
  | [] => []
  | (_, j) :: rest => strings j ++ memberStrings rest

end

mutual

/-- The second document is the first with the documents of the list in the places of the strings. -/
inductive Filled : Json → List (String × Json) → Json → Prop where
  | string (s : String) (j : Json) : Filled (.string s) [(s, j)] j
  | leaf {j : Json} (leaf : j.isLeaf = true) : Filled j [] j
  | array {items items' : List Json} {puts : List (String × Json)} (filled : FilledItems items puts items') :
      Filled (.array items) puts (.array items')
  | object {entries entries' : List (String × Json)} {puts : List (String × Json)}
      (filled : FilledMembers entries puts entries') : Filled (.object entries) puts (.object entries')

inductive FilledItems : List Json → List (String × Json) → List Json → Prop where
  | nil : FilledItems [] [] []
  | cons {j j' : Json} {rest rest' : List Json} {puts later : List (String × Json)} (first : Filled j puts j')
      (behind : FilledItems rest later rest') : FilledItems (j :: rest) (puts ++ later) (j' :: rest')

/-- The keys are the same. -/
inductive FilledMembers : List (String × Json) → List (String × Json) → List (String × Json) → Prop where
  | nil : FilledMembers [] [] []
  | cons {key : String} {j j' : Json} {rest rest' : List (String × Json)} {puts later : List (String × Json)}
      (first : Filled j puts j') (behind : FilledMembers rest later rest') :
      FilledMembers ((key, j) :: rest) (puts ++ later) ((key, j') :: rest')

end

section Threaded

variable (run : Bytes → EnvObjects → Option (SubsEngine.Outcome EnvObjects))

/-- The engine comes to the value for the string. -/
def Yields (env : EnvObjects) (s : String) (value : Substituted) (env' : EnvObjects) : Prop :=
  ∃ out, run (bytesOf s) env = some out ∧ out.result = .ok value ∧ out.world = env'

/-- One after another the strings are given to the engine, and succeed. -/
def Succeeds : List String → EnvObjects → Prop
  | [], _ => True
  | s :: rest, env => ∃ value env', Yields run env s value env' ∧ Succeeds rest env'

/-- One after another the strings are given to the engine, and what it comes to is put in their places. -/
inductive Calls : EnvObjects → List (String × Json) → EnvObjects → Prop where
  | nil (env : EnvObjects) : Calls env [] env
  | cons {env env' env'' : EnvObjects} {s : String} {value : Substituted} {later : List (String × Json)}
      (yields : Yields run env s value env') (behind : Calls env' later env'') :
      Calls env ((s, value.toJson) :: later) env''

variable {run}

theorem Calls.append {env env' env'' : EnvObjects} {puts later : List (String × Json)} (calls : Calls run env puts env')
    (behind : Calls run env' later env'') : Calls run env (puts ++ later) env'' := by
  induction calls with
  | nil => exact behind
  | cons yields _ ih => exact .cons yields (ih behind)

mutual

/-- The strings of a document are substituted, and those behind it are left. -/
theorem element_fills : ∀ (j : Json) (later : List String) (env : EnvObjects), Succeeds run (strings j ++ later) env →
    ∃ j' puts env', element run j env = some (.ok j', env') ∧ Filled j puts j' ∧ Calls run env puts env' ∧
      Succeeds run later env'
  | .string s, later, env, ⟨value, env', yields, behind⟩ => by
    obtain ⟨out, ran, returned, rfl⟩ := yields
    refine ⟨value.toJson, _, out.world, ?_, .string s _, .cons ⟨out, ran, returned, rfl⟩ (.nil _), behind⟩
    rw [element, ran, Option.map_some, returned]
    rfl
  | .array items, later, env, succeeds => by
    obtain ⟨items', puts, env', built, filled, calls, behind⟩ := elements_fill items later env succeeds
    refine ⟨.array items', puts, env', ?_, .array filled, calls, behind⟩
    rw [element, built]
    rfl
  | .object entries, later, env, succeeds => by
    obtain ⟨entries', puts, env', built, filled, calls, behind⟩ := members_fill entries later env succeeds
    refine ⟨.object entries', puts, env', ?_, .object filled, calls, behind⟩
    rw [element, built]
    rfl
  | .null, _, env, behind | .boolean _, _, env, behind | .integer _, _, env, behind | .float _, _, env, behind
  | .binary _, _, env, behind => ⟨_, [], env, rfl, .leaf rfl, .nil env, behind⟩

theorem elements_fill : ∀ (items : List Json) (later : List String) (env : EnvObjects),
    Succeeds run (itemStrings items ++ later) env →
    ∃ items' puts env', elements run items env = some (.ok items', env') ∧ FilledItems items puts items' ∧
      Calls run env puts env' ∧ Succeeds run later env'
  | [], _, env, behind => ⟨[], [], env, rfl, .nil, .nil env, behind⟩
  | j :: rest, later, env, succeeds => by
    rw [itemStrings, List.append_assoc] at succeeds
    obtain ⟨j', puts, env', first, filled, calls, succeeds⟩ := element_fills j _ env succeeds
    obtain ⟨rest', puts', env'', built, filled', calls', behind⟩ := elements_fill rest later env' succeeds
    refine ⟨j' :: rest', puts ++ puts', env'', ?_, .cons filled filled', calls.append calls', behind⟩
    simp only [elements, first, built]
    rfl

theorem members_fill : ∀ (entries : List (String × Json)) (later : List String) (env : EnvObjects),
    Succeeds run (memberStrings entries ++ later) env →
    ∃ entries' puts env', members run entries env = some (.ok entries', env') ∧ FilledMembers entries puts entries' ∧
      Calls run env puts env' ∧ Succeeds run later env'
  | [], _, env, behind => ⟨[], [], env, rfl, .nil, .nil env, behind⟩
  | (key, j) :: rest, later, env, succeeds => by
    rw [memberStrings, List.append_assoc] at succeeds
    obtain ⟨j', puts, env', first, filled, calls, succeeds⟩ := element_fills j _ env succeeds
    obtain ⟨rest', puts', env'', built, filled', calls', behind⟩ := members_fill rest later env' succeeds
    refine ⟨(key, j') :: rest', puts ++ puts', env'', ?_, .cons filled filled', calls.append calls', behind⟩
    simp only [members, first, built]
    rfl

end

mutual

/-- Each string of the template is put a document for, and no other. -/
theorem Filled.keys : ∀ {j j' : Json} {puts : List (String × Json)}, Filled j puts j' → puts.map Prod.fst = strings j
  | _, _, _, .string _ _ => rfl
  | .null, _, _, .leaf _ | .boolean _, _, _, .leaf _ | .integer _, _, _, .leaf _ | .float _, _, _, .leaf _
  | .binary _, _, _, .leaf _ => rfl
  | _, _, _, .array filled => filled.keys
  | _, _, _, .object filled => filled.keys

theorem FilledItems.keys : ∀ {items items' : List Json} {puts : List (String × Json)},
    FilledItems items puts items' → puts.map Prod.fst = itemStrings items
  | _, _, _, .nil => rfl
  | _, _, _, .cons first behind => by rw [List.map_append, first.keys, behind.keys]; rfl

theorem FilledMembers.keys : ∀ {entries entries' : List (String × Json)} {puts : List (String × Json)},
    FilledMembers entries puts entries' → puts.map Prod.fst = memberStrings entries
  | _, _, _, .nil => rfl
  | _, _, _, .cons first behind => by rw [List.map_append, first.keys, behind.keys]; rfl

end

end Threaded

/-! ## The engine -/

open SubsEngine (Firm Single pattern)

variable {C : Codec} {handlers : ImageHandlers} {fuel : Nat} {env now : EnvObjects}

/-- What an engine makes of a string of a document. -/
def engine (C : Codec) (handlers : ImageHandlers) (fuel : Nat) (template : Bytes) (env : EnvObjects) :
    Option (SubsEngine.Outcome EnvObjects) :=
  SubsEngine.substitute (SubsEngine.evaluate C handlers) fuel template env

/-- The string is one placeholder, for extras without a key. -/
def NamesExtras (env : EnvObjects) (s : String) : Prop :=
  ∃ expression, Single (bytesOf s) expression ∧ Grammar.BareExtras env expression

theorem Yields.unique {run : Bytes → EnvObjects → Option (SubsEngine.Outcome EnvObjects)} {s : String}
    {value value' : Substituted} {env' env'' : EnvObjects} (yields : Yields run env s value env')
    (yields' : Yields run env s value' env'') : value = value' ∧ env' = env'' := by
  obtain ⟨out, ran, returned, rfl⟩ := yields
  obtain ⟨out', ran', returned', rfl⟩ := yields'
  cases ran.symm.trans ran'
  cases returned.symm.trans returned'
  exact ⟨rfl, rfl⟩

/-- A string without a placeholder is what it was. -/
theorem Yields.plain {s : String} {value : Substituted} {env' : EnvObjects}
    (yields : Yields (engine C handlers fuel) env s value env')
    (none_ : pattern.find (bytesOf s) = none) : value.toJson = .string s := by
  obtain ⟨out, ran, returned, rfl⟩ := yields
  cases fuel with
  | zero => cases ran
  | succ fuel =>
    simp only [engine, SubsEngine.substitute, SubsEngine.loop, List.drop_zero, none_] at ran
    cases ran
    cases returned
    simp only [Substituted.toJson, stringOf, textOf_bytesOf, Option.getD_some]

/-- What has succeeded leaves the environment so that others do. -/
theorem Yields.firm {s : String} {value : Substituted} {env' : EnvObjects} (firm : Firm C env now)
    (yields : Yields (engine C handlers fuel) now s value env') : Firm C env env' := by
  obtain ⟨out, ran, returned, rfl⟩ := yields
  exact firm.loop fuel ran returned

/-- A string for which the engine succeeds at first, it succeeds for later. -/
theorem Yields.later {s : String} {value : Substituted} {env' : EnvObjects} (firm : Firm C env now)
    (yields : Yields (engine C handlers fuel) env s value env') :
    ∃ value' now', Yields (engine C handlers fuel) now s value' now' ∧ (¬ NamesExtras env s → value' = value) := by
  obtain ⟨out, ran, returned, rfl⟩ := yields
  obtain ⟨out', value', ran', returned', -, same⟩ := SubsEngine.substitute_firm firm ran returned
  exact ⟨value', out'.world, ⟨out', ran', returned', rfl⟩, fun keyed =>
    same fun expression single bare => keyed ⟨expression, single, bare⟩⟩

theorem succeeds_firm (l : List String) : ∀ {now : EnvObjects}, Firm C env now →
    (∀ s ∈ l, ∃ value env', Yields (engine C handlers fuel) env s value env') →
      Succeeds (engine C handlers fuel) l now := by
  induction l with
  | nil => exact fun _ _ => trivial
  | cons s rest ih =>
    intro now firm each
    obtain ⟨⟨value, env', yields⟩, others⟩ := List.forall_mem_cons.mp each
    obtain ⟨value', now', yields', -⟩ := yields.later firm
    exact ⟨value', now', yields', ih (yields'.firm firm) others⟩

/-- What is put in the place of a string. -/
theorem Calls.puts {puts : List (String × Json)} {now' : EnvObjects} (calls : Calls (engine C handlers fuel) now puts now') :
    Firm C env now → ∀ put ∈ puts, (pattern.find (bytesOf put.1) = none → put.2 = .string put.1) ∧
      (¬ NamesExtras env put.1 → ∀ value env', Yields (engine C handlers fuel) env put.1 value env' →
        put.2 = value.toJson) := by
  induction calls with
  | nil => exact fun _ _ none_ => (List.not_mem_nil none_).elim
  | cons yields _ ih =>
    intro firm
    refine List.forall_mem_cons.mpr ⟨⟨yields.plain, fun keyed value env' first => ?_⟩, ih (yields.firm firm)⟩
    obtain ⟨value', now', later, same⟩ := first.later firm
    rw [(yields.unique later).1, same keyed]

/-- Where the engine succeeds for each string of an object, in this environment or when its turn comes, the object
is built: in its shape, each string put what the engine comes to when its turn comes. A string without a placeholder is
what it was, and any other that does not name extras alone is what the engine comes to in this environment. -/
theorem build_fills (C : Codec) (handlers : ImageHandlers) (fuel : Nat) (entries : List (String × Json)) (env : EnvObjects)
    (succeeds : (∀ s ∈ strings (.object entries), ∃ value env', Yields (engine C handlers fuel) env s value env') ∨
      Succeeds (engine C handlers fuel) (strings (.object entries)) env) :
    ∃ j puts env', build (engine C handlers fuel) (.object entries) env = some (.ok j, env') ∧
      Filled (.object entries) puts j ∧ puts.map Prod.fst = strings (.object entries) ∧
      Calls (engine C handlers fuel) env puts env' ∧
      ∀ put ∈ puts, (pattern.find (bytesOf put.1) = none → put.2 = .string put.1) ∧
        (¬ NamesExtras env put.1 → ∀ value env'', Yields (engine C handlers fuel) env put.1 value env'' →
          put.2 = value.toJson) := by
  have turns : Succeeds (engine C handlers fuel) (strings (.object entries) ++ []) env := by
    rw [List.append_nil]
    exact succeeds.elim (succeeds_firm _ (.start C env)) id
  obtain ⟨j, puts, env', built, filled, calls, -⟩ := element_fills _ _ env turns
  exact ⟨j, puts, env', built, filled, filled.keys, calls, calls.puts (.start C env)⟩

/-- A placeholder whose value is a text with a placeholder, a number, and a text. -/
def nestedEntries : List (String × Json) :=
  [("a", .array [.string "\x7b\x7bMETA.x\x7d\x7d", .integer 3]), ("b", .object [("c", .string "plain")])]

def nestedEnv : EnvObjects := [("META", .json (.object [("x", .string "\x7b\x7bMETA.y\x7d\x7d")]))]

theorem nested_succeeds : ∀ s ∈ strings (.object nestedEntries), ∃ value env',
    Yields (engine Message.literalCodec none 3) nestedEnv s value env' :=
  List.forall_mem_cons.mpr ⟨⟨_, _, _, rfl, rfl, rfl⟩, List.forall_mem_singleton.mpr ⟨_, _, _, rfl, rfl, rfl⟩⟩

/-- The value is put in its place as it is. -/
theorem build_fills_nested :
    (∃ j puts env', build (engine Message.literalCodec none 3) (.object nestedEntries) nestedEnv = some (.ok j, env') ∧
      Filled (.object nestedEntries) puts j ∧ puts.map Prod.fst = strings (.object nestedEntries) ∧
      Calls (engine Message.literalCodec none 3) nestedEnv puts env' ∧
      ∀ put ∈ puts, (pattern.find (bytesOf put.1) = none → put.2 = .string put.1) ∧
        (¬ NamesExtras nestedEnv put.1 → ∀ value env'',
          Yields (engine Message.literalCodec none 3) nestedEnv put.1 value env'' → put.2 = value.toJson)) ∧
      (build (engine Message.literalCodec none 3) (.object nestedEntries) nestedEnv).map (fun out => out.1.toOption) =
        some (some (.object
          [("a", .array [.string "\x7b\x7bMETA.y\x7d\x7d", .integer 3]), ("b", .object [("c", .string "plain")])])) :=
  ⟨build_fills Message.literalCodec none 3 nestedEntries nestedEnv (.inl nested_succeeds), by decide⟩

end BuilderFT

end M2eBridge
