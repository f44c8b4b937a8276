import M2eBridge.Filtras.Factory
import M2eBridge.Pipeline.Managed

/-!
# The constructor on a configuration

`Pipeline::Pipeline` on any JSON value, down to the constructors of the connectors and the
filtras. What they throw is caught and makes the pipeline malformed; what is thrown by the
look at `enabled` is not, and an `operator[]` on a constant document looks for a key that may
not be there. `prepares_iff` says on which configurations the constructor comes to a pipeline
that is alive or malformed.
-/

namespace M2eBridge

open Reading (index checked)

/-- A connector as it is constructed. -/
structure ConnectorObject where
  mode : ConnectorMode
  config : Json
  deriving DecidableEq

/-- What a `Pipeline` has when its constructor returns. -/
structure Prepared where
  state : PipelineState := .unkn
  lastError : String := ""
  isEnabled : Bool := false
  connectorIn : Option ConnectorObject := none
  connectorOut : Option ConnectorObject := none
  filtras : List FiltraObject := []

namespace Prepared

variable (b : Build)

/-- `ConnectorFactory::create` -/
def connector (mode : ConnectorMode) (config : Json) : Reading ConnectorObject := do
  ExceptT.mk (ConnectorFactory.create b mode config)
  return { mode, config }

/-- A `try` block of `construct`. -/
def attempt {α : Type} (read : Reading α) (p : Prepared) (next : α → Option (Bool × Prepared)) :
    Option (Bool × Prepared) :=
  match read.run with
  | none => none
  | some (.error e) => some (false, { p with lastError := e.what })
  | some (.ok a) => next a

def createFiltras (next : Prepared → Option (Bool × Prepared)) : List Json → Prepared → Option (Bool × Prepared)
  | [], p => next p
  | entry :: rest, p =>
    attempt (FiltraFactory.create b entry) p fun filtra =>
      createFiltras next rest { p with filtras := p.filtras ++ [filtra] }

/-- `Pipeline::construct` -/
def construct (pjson : Json) : Option (Except Exn (Bool × Prepared)) :=
  match pjson.value Json.getBoolean "enabled" false with
  | .error e => some (.error e)
  | .ok isEnabled =>
    let p : Prepared := { isEnabled }
    (attempt ((checked <| pjson.at' "connector_in") >>= connector b .input) p fun connectorIn =>
      createFiltras b (fun p =>
        attempt (index pjson "connector_out" >>= connector b .output) p fun connectorOut =>
          some (true, { p with connectorOut := some connectorOut }))
        (Managed.entries pjson) { p with connectorIn := some connectorIn }).map .ok

def freeResources (p : Prepared) : Prepared := { p with connectorIn := none, connectorOut := none, filtras := [] }

/-- `Pipeline::prepare`, in the constructor -/
def prepare (pjson : Json) : Option (Except Exn Prepared) :=
  (construct b pjson).map fun result => result.map fun (success, p) =>
    if success then { p with state := .stopped } else { p with state := .malformed }.freeResources

/-- The pipeline can be started, with one filtra for each entry. -/
structure Alive (config : Json) (p : Prepared) : Prop where
  state : p.state = .stopped
  connectorIn : p.connectorIn.isSome = true
  connectorOut : p.connectorOut.isSome = true
  filtras : p.filtras.map (fun f => f.config) = Managed.entries config

structure Malformed (p : Prepared) : Prop where
  state : p.state = .malformed
  lastError : p.lastError ≠ ""
  connectorIn : p.connectorIn = none
  connectorOut : p.connectorOut = none
  filtras : p.filtras = []

/-- The constructor returns, without an access that is not defined. -/
def Prepares (config : Json) : Prop := ∃ p, prepare b config = some (.ok p) ∧ (Alive config p ∨ Malformed p)

/-! ## Which configurations these are -/

/-- What the constructor of a generator looks up is there. -/
structure GeneratorComplete (config : Json) : Prop where
  payload : config.find? "type" = some (.string "generator") → (∃ format, connectorFormat config = .ok format) →
    config.contains "payload" = true
  period : config.find? "type" = some (.string "generator") → (∃ format, connectorFormat config = .ok format) →
    ∀ payload, config.find? "payload" = some (.string payload) → config.contains "period" = true

/-- The filtra can be constructed. -/
def Creates (entry : Json) : Prop := ∃ filtra, (FiltraFactory.create b entry).Gives filtra

/-- The first connector can be constructed. -/
def Connects (config : Json) : Prop :=
  ∃ connector, config.find? "connector_in" = some connector ∧
    ConnectorFactory.create b .input connector = some (.ok ())

/-- All is there that the filtras look up, up to the first that can not be constructed. -/
def Reached (entries : List Json) : Prop :=
  ∀ front entry rest, entries = front ++ entry :: rest → (∀ e ∈ front, Creates b e) → FiltraFactory.Complete entry

/-- An object whose `enabled` is a boolean, and in which all is there that is looked up, as
far as the construction comes. -/
structure Regular (config : Json) : Prop where
  enabled : ∃ members, config = .object members ∧ ∀ v, config.find? "enabled" = some v → ∃ x, v = .boolean x
  connectorIn : ∀ connector, config.find? "connector_in" = some connector → GeneratorComplete connector
  filtras : Connects b config → Reached b (Managed.entries config)
  connectorOut : Connects b config → (∀ e ∈ Managed.entries config, Creates b e) →
    config.contains "connector_out" = true

/-! ## The connectors -/

variable {b}

/-- A document that has a member: what is looked up there. -/
theorem index_cases {config v : Json} {name : String} (found : config.find? name = some v) (key : String) :
    config.index key = none ∧ config.contains key = false ∨
      ∃ w, config.index key = some (.ok w) ∧ config.find? key = some w ∧ config.contains key = true := by
  cases config with
  | object members =>
    cases there : members.lookup key with
    | none => exact .inl (by simp [Json.index, Json.contains, Json.find?, there])
    | some w => exact .inr ⟨w, by simp [Json.index, Json.contains, Json.find?, there]⟩
  | null | boolean | integer | float | string | binary | array => cases found

theorem generator_defined_iff {mode : ConnectorMode} {config : Json}
    (generator : config.find? "type" = some (.string "generator")) :
    GeneratorConnector.construct mode config ≠ none ↔ (mode = .input → GeneratorComplete config) := by
  unfold GeneratorConnector.construct
  cases format : connectorFormat config with
  | error e => exact iff_of_true nofun fun _ => ⟨fun _ ⟨f, ok⟩ => (by cases format.symm.trans ok),
      fun _ ⟨f, ok⟩ => (by cases format.symm.trans ok)⟩
  | ok f =>
    cases mode with
    | output => exact iff_of_true nofun nofun
    | input =>
      simp only [reduceCtorEq, if_false, forall_const]
      rcases index_cases generator "payload" with ⟨none_, missing⟩ | ⟨payload, there, found, contains⟩
      · rw [none_]
        refine iff_of_false (fun defined => defined rfl) fun complete => ?_
        rw [complete.payload generator ⟨f, format⟩] at missing
        cases missing
      · simp only [there, bind, Except.bind]
        cases string : payload.getString with
        | error e =>
          refine iff_of_true nofun ⟨fun _ _ => contains, fun _ _ s same => ?_⟩
          cases found.symm.trans same
          cases string
        | ok s =>
          cases Json.getString_eq_ok.mp string
          rcases index_cases generator "period" with ⟨none_, missing⟩ | ⟨period, there, -, period_⟩
          · refine iff_of_false (fun defined => defined (by rw [none_]; rfl)) fun complete => ?_
            rw [complete.period generator ⟨f, format⟩ s found] at missing
            cases missing
          · exact iff_of_true (by simp [there]) ⟨fun _ _ => contains, fun _ _ _ _ => period_⟩

/-- Only a generator that is to receive looks for what may not be there. -/
theorem create_defined_iff {mode : ConnectorMode} {config : Json} :
    ConnectorFactory.create b mode config ≠ none ↔ (mode = .input → GeneratorComplete config) := by
  rcases Json.string_cases config "type" with ⟨type, found, read⟩ | ⟨other, what, thrown⟩
  · have different (other : type ≠ "generator") : GeneratorComplete config :=
      ⟨fun same => absurd (Json.string.inj (Option.some.inj (found.symm.trans same))) other,
        fun same => absurd (Json.string.inj (Option.some.inj (found.symm.trans same))) other⟩
    simp only [ConnectorFactory.create, constructorOf, read]
    by_cases queue : type = "queue"
    · rw [if_pos queue]
      exact iff_of_true (Option.some_ne_none _) fun _ => different (by rw [queue]; decide)
    · rw [if_neg queue]
      by_cases generator : type = "generator"
      · rw [if_pos generator]
        exact generator_defined_iff (generator ▸ found)
      · rw [if_neg generator]
        refine iff_of_true ?_ fun _ => different generator
        cases added : b.added ConnectorFactory.types type with
        | none => exact Option.some_ne_none _
        | some construct =>
          obtain ⟨connector, -, rfl⟩ := Option.map_eq_some_iff.mp added
          exact Option.some_ne_none _
  · simp only [ConnectorFactory.create, thrown]
    exact iff_of_true (Option.some_ne_none _) fun _ => ⟨fun same => absurd same (other _), fun same => absurd same (other _)⟩

/-- What the factory throws says something. -/
theorem create_speaks {mode : ConnectorMode} {config : Json} {e : Exn}
    (thrown : ConnectorFactory.create b mode config = some (.error e)) : e.what ≠ "" := by
  unfold ConnectorFactory.create at thrown
  split at thrown
  · next refused =>
    cases thrown
    exact (Json.bind_told refused (fun _ => Json.at_told) fun _ _ => Json.getString_told).1
  · next type read =>
    split at thrown
    · cases thrown
      intro empty
      have := congrArg String.toList empty
      simp [String.toList_append] at this
    · next known => exact (constructorOf_told known thrown).1

theorem connector_run (mode : ConnectorMode) (config : Json) :
    (connector b mode config).run =
      (ConnectorFactory.create b mode config).map fun made => made.map fun _ => { mode, config } := by
  rw [connector, Reading.bind_run]
  rcases created : ConnectorFactory.create b mode config with _ | (e | ⟨⟩) <;> simp [ExceptT.run, ExceptT.mk] <;> rfl

theorem connector_defined_iff {mode : ConnectorMode} {config : Json} :
    (connector b mode config).Defined ↔ (mode = .input → GeneratorComplete config) := by
  rw [Reading.Defined, connector_run, ← create_defined_iff (b := b)]
  cases ConnectorFactory.create b mode config <;> simp

theorem connector_raises (mode : ConnectorMode) (config : Json) : (connector b mode config).Raises (·.what ≠ "") := by
  intro e raised
  rw [connector_run] at raised
  rcases created : ConnectorFactory.create b mode config with _ | (other | ⟨⟩) <;> rw [created] at raised <;> cases raised
  exact create_speaks created

theorem connector_gives {mode : ConnectorMode} {config : Json} :
    (∃ c, (connector b mode config).Gives c) ↔ ConnectorFactory.create b mode config = some (.ok ()) := by
  simp only [Reading.Gives, connector_run]
  rcases ConnectorFactory.create b mode config with _ | (e | ⟨⟩) <;> simp [Except.map]

/-! ## The ends of the construction -/

/-- What a construction has come to makes a pipeline that is alive, or one that says why not. -/
def EndsWell (config : Json) (result : Option (Bool × Prepared)) : Prop :=
  ∃ success p, result = some (success, p) ∧ if success then Alive config { p with state := .stopped } else p.lastError ≠ ""

/-- A `try` block ends well when all is there that it looks up and what stands behind it ends well. -/
theorem attempt_endsWell {α : Type} {read : Reading α} (speaks : read.Raises (·.what ≠ "")) {config : Json} {p : Prepared}
    {next : α → Option (Bool × Prepared)} :
    EndsWell config (attempt read p next) ↔ read.Defined ∧ ∀ a, read.Gives a → EndsWell config (next a) := by
  unfold attempt Reading.Defined Reading.Gives
  rcases ran : read.run with _ | (e | a)
  · exact iff_of_false (fun ⟨_, _, same, _⟩ => nomatch same) fun both => both.1 rfl
  · exact iff_of_true ⟨false, _, rfl, speaks e ran⟩ ⟨nofun, nofun⟩
  · simp

/-- The filtra is the one of the entry. -/
def Makes (b : Build) (entry : Json) (filtra : FiltraObject) : Prop := (FiltraFactory.create b entry).Gives filtra

theorem reached_cons {entry : Json} {rest : List Json} :
    Reached b (entry :: rest) ↔ FiltraFactory.Complete entry ∧ (Creates b entry → Reached b rest) := by
  constructor
  · refine fun reached => ⟨reached [] entry rest rfl (by simp), fun created front e behind split before => ?_⟩
    exact reached (entry :: front) e behind (by rw [split]; rfl) (List.forall_mem_cons.mpr ⟨created, before⟩)
  · rintro ⟨complete, behind⟩ front e rest' split before
    cases front with
    | nil => cases split; exact complete
    | cons e' front =>
      cases split
      exact behind (before _ List.mem_cons_self) front e rest' rfl fun e member =>
        before e (List.mem_cons_of_mem _ member)

/-- The loop over the entries ends well when all is there that it looks up, and what stands
behind it ends well with the filtras of the entries. -/
theorem createFiltras_endsWell {config : Json} {next : Prepared → Option (Bool × Prepared)} {entries : List Json} :
    ∀ {p : Prepared}, EndsWell config (createFiltras b next entries p) ↔
      Reached b entries ∧ ∀ filtras, List.Forall₂ (Makes b) entries filtras →
        EndsWell config (next { p with filtras := p.filtras ++ filtras }) := by
  induction entries with
  | nil =>
    intro p
    have reached : Reached b [] := fun front entry rest none_ => by simp at none_
    simp [createFiltras, reached]
  | cons entry rest ih =>
    intro p
    have speaks : (FiltraFactory.create b entry).Raises (·.what ≠ "") :=
      fun e raised => (FiltraFactory.create_tells b entry e raised).1
    rw [createFiltras, attempt_endsWell speaks, FiltraFactory.create_defined_iff, reached_cons]
    simp only [ih, List.append_assoc, List.singleton_append]
    constructor
    · rintro ⟨complete, behind⟩
      refine ⟨⟨complete, fun ⟨filtra, made⟩ => (behind filtra made).1⟩, ?_⟩
      rintro _ (_ | ⟨made, others⟩)
      exact (behind _ made).2 _ others
    · rintro ⟨⟨complete, reached⟩, ends⟩
      exact ⟨complete, fun filtra made => ⟨reached ⟨filtra, made⟩, fun others rest => ends _ (.cons made rest)⟩⟩

theorem creates_iff {entries : List Json} :
    (∀ e ∈ entries, Creates b e) ↔ ∃ filtras, List.Forall₂ (Makes b) entries filtras := by
  induction entries with
  | nil => simp
  | cons entry rest ih =>
    rw [List.forall_mem_cons, ih]
    constructor
    · rintro ⟨⟨filtra, made⟩, filtras, others⟩
      exact ⟨filtra :: filtras, .cons made others⟩
    · rintro ⟨_, _ | ⟨made, others⟩⟩
      exact ⟨⟨_, made⟩, _, others⟩

theorem configs_of_made {entries : List Json} {filtras : List FiltraObject} (made : List.Forall₂ (Makes b) entries filtras) :
    filtras.map (fun f => f.config) = entries := by
  induction made with
  | nil => rfl
  | cons first _ ih => rw [List.map_cons, ih, FiltraFactory.create_config first]

/-- `enabled` can be read. -/
theorem enabled_iff {config : Json} :
    (∃ isEnabled, config.value Json.getBoolean "enabled" false = .ok isEnabled) ↔
      ∃ members, config = .object members ∧ ∀ v, config.find? "enabled" = some v → ∃ x, v = .boolean x := by
  cases config with
  | object members =>
    simp only [Json.value, Json.find?, Json.object.injEq, exists_eq_left']
    cases members.lookup "enabled" with
    | none => simp
    | some v => cases v <;> simp [Json.getBoolean]
  | null | boolean | integer | float | string | binary | array => simp [Json.value]

/-- The look at the first connector. -/
def readIn (b : Build) (config : Json) : Reading ConnectorObject :=
  (checked <| config.at' "connector_in") >>= connector b .input

def readOut (b : Build) (config : Json) : Reading ConnectorObject :=
  index config "connector_out" >>= connector b .output

theorem readIn_defined_iff {config : Json} : (readIn b config).Defined ↔
    ∀ connector, config.find? "connector_in" = some connector → GeneratorComplete connector := by
  simp [readIn, Reading.defined_bind, connector_defined_iff, Json.at_eq_ok]

theorem readIn_gives_iff {config : Json} : (∃ c, (readIn b config).Gives c) ↔ Connects b config := by
  simp only [readIn, Reading.gives_bind, Reading.checked_gives, Json.at_eq_ok, Connects, ← connector_gives]
  constructor
  · rintro ⟨c, j, found, gives⟩
    exact ⟨j, found, c, gives⟩
  · rintro ⟨j, found, c, gives⟩
    exact ⟨c, j, found, gives⟩

theorem readIn_raises (config : Json) : (readIn b config).Raises (·.what ≠ "") :=
  Reading.raises_bind (Reading.raises_checked fun _ thrown => (Json.at_told thrown).1) fun _ => connector_raises _ _

theorem readOut_defined_iff {members : List (String × Json)} :
    (readOut b (.object members)).Defined ↔ (Json.object members).contains "connector_out" = true := by
  simp [readOut, Reading.defined_bind, connector_defined_iff]

theorem readOut_raises (config : Json) : (readOut b config).Raises (·.what ≠ "") :=
  Reading.raises_bind (fun e raised => (Reading.tells_index _ _ e raised).1) fun _ => connector_raises _ _

/-- `prepare` returns a pipeline that is alive or malformed when the construction ends well. -/
theorem prepares_of_construct {config : Json} {result : Option (Bool × Prepared)}
    (constructed : construct b config = result.map .ok) : Prepares b config ↔ EndsWell config result := by
  rw [Prepares, prepare, constructed]
  constructor
  · rintro ⟨p, prepared, alive⟩
    rcases result with _ | ⟨success, q⟩
    · cases prepared
    · refine ⟨success, q, rfl, ?_⟩
      cases success with
      | true =>
        cases prepared
        rcases alive with alive | malformed
        · exact alive
        · cases malformed.state
      | false =>
        cases prepared
        rcases alive with alive | malformed
        · cases alive.state
        · exact malformed.lastError
  · rintro ⟨success, q, rfl, ends⟩
    cases success with
    | true => exact ⟨_, rfl, .inl ends⟩
    | false => exact ⟨_, rfl, .inr ⟨rfl, ends, rfl, rfl, rfl⟩⟩

/-- **The constructor.** It comes to a pipeline that can be started, with both connectors and
one filtra for each entry, or to a malformed one that says why and holds nothing, exactly
when `enabled` can be read and, as far as it comes, all is there that it looks up. -/
theorem prepares_iff (b : Build) (config : Json) : Prepares b config ↔ Regular b config := by
  by_cases enabled : ∃ isEnabled, config.value Json.getBoolean "enabled" false = .ok isEnabled
  · obtain ⟨members, object, boolean⟩ := enabled_iff.mp enabled
    obtain ⟨isEnabled, read⟩ := enabled
    have constructed : construct b config =
        (attempt (readIn b config) { isEnabled } fun connectorIn =>
          createFiltras b (fun p => attempt (readOut b config) p fun connectorOut =>
              some (true, { p with connectorOut := some connectorOut }))
            (Managed.entries config) { isEnabled, connectorIn := some connectorIn }).map .ok := by
      rw [construct, read]
      rfl
    have regular : Regular b config ↔
        (readIn b config).Defined ∧ (Connects b config → Reached b (Managed.entries config)) ∧
          (Connects b config → (∀ e ∈ Managed.entries config, Creates b e) → (readOut b config).Defined) := by
      rw [readIn_defined_iff, object, readOut_defined_iff, ← object]
      exact ⟨fun r => ⟨r.connectorIn, r.filtras, r.connectorOut⟩,
        fun ⟨connectorIn, filtras, connectorOut⟩ => ⟨⟨members, object, boolean⟩, connectorIn, filtras, connectorOut⟩⟩
    rw [regular, prepares_of_construct constructed, attempt_endsWell (readIn_raises config), ← readIn_gives_iff, creates_iff]
    simp only [createFiltras_endsWell, attempt_endsWell (readOut_raises config)]
    constructor
    · rintro ⟨defined, behind⟩
      exact ⟨defined, fun ⟨connectorIn, gives⟩ => (behind connectorIn gives).1,
        fun ⟨connectorIn, gives⟩ ⟨filtras, made⟩ => ((behind connectorIn gives).2 filtras made).1⟩
    · rintro ⟨defined, reached, out⟩
      refine ⟨defined, fun connectorIn gives => ⟨reached ⟨_, gives⟩, fun filtras made => ⟨out ⟨_, gives⟩ ⟨_, made⟩, ?_⟩⟩⟩
      exact fun connectorOut _ => ⟨true, _, rfl, rfl, rfl, rfl, configs_of_made made⟩
  · refine iff_of_false ?_ fun regular => enabled (enabled_iff.mpr regular.enabled)
    rintro ⟨p, prepared, -⟩
    cases read : config.value Json.getBoolean "enabled" false with
    | ok isEnabled => exact enabled ⟨isEnabled, read⟩
    | error e =>
      simp [prepare, construct, read, Except.map] at prepared

/-- A configuration with one connector only: `connector_out` is looked up where it is not. -/
theorem connector_out_missing : ¬ ∀ (b : Build) (config : Json), Prepares b config := by
  intro all
  obtain ⟨p, prepared, -⟩ := all plainBuild
    (.object [("connector_in", .object [("name", .string "q"), ("type", .string "queue")])])
  cases prepared

end Prepared

end M2eBridge
