import M2eBridge.Message

/-!
# The validator

`validate_pipeline` constructs the two connectors of a config to see whether they can be. It
takes a `runtime_error` for none of its business, and has no `return` behind a constructor
that succeeds, where its behaviour is not defined; what is neither a runtime error, nor an
`out_of_range`, nor of the JSON library leaves it. `validates_iff` says which configs it
comes to an end on. The connectors that a build adds are a parameter.
-/

namespace M2eBridge

inductive ConnectorMode where
  | input
  | output
  deriving DecidableEq, Repr

/-- What a constructor comes to; `none` where its behaviour is not defined. -/
abbrev Construction := Option (Except Exn Unit)

/-- The constructors of the connectors, by type. -/
abbrev Constructors := String → Option (ConnectorMode → Json → Construction)

namespace Json

/-- `operator[]` on a constant document, which is not defined for a key that is not there. -/
def index (j : Json) (key : String) : Option (Except Exn Json) :=
  match j with
  | .object members => (members.lookup key).map .ok
  | j => some (.error ⟨.jsonException,
      "[json.exception.type_error.305] cannot use operator[] with a string argument with " ++ j.typeName⟩)

/-- The conversion to `int`, of which only the type is looked at here. -/
def checkNumber : Json → Except Exn Unit
  | .boolean _ | .integer _ | .float _ => .ok ()
  | j => .error (typeError302 "number" j)

/-- The conversion to one of the number types that the library stores, `unsigned long` and `double`
among them, which take no boolean. -/
def checkArithmetic : Json → Except Exn Unit
  | .integer _ | .float _ => .ok ()
  | j => .error (typeError302 "number" j)

end Json

/-- `MessageFormat::from_string` -/
def MessageFormat.ofName (str : String) : Except Exn MessageFormat :=
  match str.toLower with
  | "unkn" => .ok .unkn
  | "raw" => .ok .raw
  | "json" => .ok .json
  | "cbor" => .ok .cbor
  | other => .error ⟨.invalidArgument, "Unknown format: " ++ other⟩

/-- The constructor of `Connector`, which catches what the JSON library throws. -/
def connectorFormat (config : Json) : Except Exn MessageFormat :=
  match config.at' "msg_format" >>= Json.getString with
  | .ok name => MessageFormat.ofName name
  | .error _ => .ok .unkn

/-- `InternalConnector::InternalConnector`. -/
def InternalConnector.construct (_mode : ConnectorMode) (config : Json) : Construction := some do
  let _ ← connectorFormat config
  let _ ← (← config.at' "name").getString
  if config.contains "buffer_size" then (← config.at' "buffer_size").checkNumber

/-- `GeneratorConnector::GeneratorConnector`. -/
def GeneratorConnector.construct (mode : ConnectorMode) (config : Json) : Construction :=
  match connectorFormat config with
  | .error e => some (.error e)
  | .ok _ =>
    if mode = .output then some (.error ⟨.configurationError, "GeneratorConnector does not support OUT mode!"⟩)
    else
      match config.index "payload" with
      | none => none
      | some payload =>
        match payload >>= Json.getString with
        | .error e => some (.error e)
        | .ok _ => (config.index "period").map fun period => period >>= Json.checkArithmetic

/-- The constructors of a build: the two that are always there, and those that it adds. -/
def constructorOf (others : Constructors) (type : String) : Option (ConnectorMode → Json → Construction) :=
  if type = "queue" then some InternalConnector.construct
  else if type = "generator" then some GeneratorConnector.construct
  else others type

/-! ## `validate_pipeline` -/

/-- The classes below `std::runtime_error`. -/
def ExnKind.isRuntimeError : ExnKind → Bool
  | .runtimeError | .underflowError | .overflowError | .duplicateError => true
  | _ => false

inductive Verdict where
  | accepted
  | rejected (why : String)
  | thrown (e : Exn)
  | undefined
  deriving DecidableEq, Repr

/-- The handlers of `validate_connector`. -/
def verdictOf (e : Exn) : Verdict :=
  if e.kind = .outOfRange ∨ e.kind = .jsonException then .rejected e.what
  else if e.kind.isRuntimeError then .accepted
  else .thrown e

def validateConnector (others : Constructors) (mode : ConnectorMode) (config : Json) : Verdict :=
  match config.at' "type" >>= Json.getString with
  | .error e => verdictOf e
  | .ok type =>
    match constructorOf others type with
    | none => .rejected ("Unknown connector type: " ++ type ++ "!")
    | some construct =>
      match construct mode config with
      | some (.error e) => verdictOf e
      -- no value is returned for a connector that can be constructed
      | _ => .undefined

def validatePipeline (others : Constructors) (config : Json) : Verdict :=
  match config.find? "connector_in", config.find? "connector_out" with
  | none, _ => .rejected "Missing connector_in"
  | some _, none => .rejected "Missing connector_out"
  | some connectorIn, some connectorOut =>
    match validateConnector others .input connectorIn with
    | .accepted => validateConnector others .output connectorOut
    | verdict => verdict

/-- The validator has come to an end: it returned. -/
def Verdict.Returned (v : Verdict) : Prop := v = .accepted ∨ ∃ why, v = .rejected why

/-- A constructor that the validator runs throws something that meets the condition. -/
def Throws (others : Constructors) (mode : ConnectorMode) (config : Json) (meets : ExnKind → Prop) : Prop :=
  ∀ type construct, config.find? "type" = some (.string type) → constructorOf others type = some construct →
    ∃ e, construct mode config = some (.error e) ∧ meets e.kind

/-- What the validator catches. -/
def Caught (kind : ExnKind) : Prop := kind = .outOfRange ∨ kind = .jsonException ∨ kind.isRuntimeError = true

/-- The connector is of a type of the build, and what its constructor throws is let pass. -/
structure Passes (others : Constructors) (mode : ConnectorMode) (config : Json) : Prop where
  known : ∃ type construct, config.find? "type" = some (.string type) ∧ constructorOf others type = some construct
  throws : Throws others mode config fun kind => kind.isRuntimeError = true

/-- No connector that is tried can be constructed, and the exceptions are ones that are caught. -/
def Validates (others : Constructors) (config : Json) : Prop :=
  ∀ connectorIn connectorOut, config.find? "connector_in" = some connectorIn →
    config.find? "connector_out" = some connectorOut →
      Throws others .input connectorIn Caught ∧
        (Passes others .input connectorIn → Throws others .output connectorOut Caught)

/-- Both connectors are let pass. -/
def Accepts (others : Constructors) (config : Json) : Prop :=
  ∃ connectorIn connectorOut, config.find? "connector_in" = some connectorIn ∧
    config.find? "connector_out" = some connectorOut ∧ Passes others .input connectorIn ∧
      Passes others .output connectorOut

theorem verdictOf_returned_iff {e : Exn} : (verdictOf e).Returned ↔ Caught e.kind := by
  unfold verdictOf Verdict.Returned Caught
  by_cases rejected : e.kind = .outOfRange ∨ e.kind = .jsonException
  · rw [if_pos rejected]
    exact iff_of_true (.inr ⟨_, rfl⟩) (or_assoc.mp (.inl rejected))
  · by_cases runtime : e.kind.isRuntimeError
    · rw [if_neg rejected, if_pos runtime]
      exact iff_of_true (.inl rfl) (.inr (.inr runtime))
    · rw [if_neg rejected, if_neg runtime, ← or_assoc]
      simp [rejected, runtime]

theorem verdictOf_accepted_iff {e : Exn} : verdictOf e = .accepted ↔ e.kind.isRuntimeError = true := by
  unfold verdictOf
  by_cases rejected : e.kind = .outOfRange ∨ e.kind = .jsonException
  · rw [if_pos rejected]
    rcases rejected with kind | kind <;> simp [kind, ExnKind.isRuntimeError]
  · rw [if_neg rejected]
    split <;> simp_all

/-- The ends of a look at the type: there is no such type, or its constructor decides. -/
theorem validateConnector_cases (others : Constructors) (mode : ConnectorMode) (config : Json) :
    ((∃ why, validateConnector others mode config = .rejected why) ∧
        ∀ type construct, config.find? "type" = some (.string type) → constructorOf others type ≠ some construct) ∨
      ∃ type construct, config.find? "type" = some (.string type) ∧ constructorOf others type = some construct ∧
        ((∃ e, construct mode config = some (.error e) ∧ validateConnector others mode config = verdictOf e) ∨
          (∀ e, construct mode config ≠ some (.error e)) ∧ validateConnector others mode config = .undefined) := by
  unfold validateConnector
  rcases Json.string_cases config "type" with ⟨type, found, read⟩ | ⟨other, what, thrown⟩
  · rw [read]
    cases known : constructorOf others type with
    | none =>
      refine .inl ⟨⟨_, by simp only [known]; rfl⟩, fun type' construct found' => ?_⟩
      cases found.symm.trans found'
      simp [known]
    | some construct =>
      refine .inr ⟨type, construct, found, known, ?_⟩
      simp only [known]
      split
      · next e constructed => exact .inl ⟨e, constructed, rfl⟩
      · next none_thrown => exact .inr ⟨none_thrown, rfl⟩
  · rw [thrown]
    exact .inl ⟨⟨what, rfl⟩, fun type construct found => absurd found (other type)⟩

/-- A connector of a known type, whose constructor throws. -/
theorem throws_iff {others : Constructors} {mode : ConnectorMode} {config : Json} {type : String}
    {construct : ConnectorMode → Json → Construction} (found : config.find? "type" = some (.string type))
    (known : constructorOf others type = some construct) {meets : ExnKind → Prop} :
    Throws others mode config meets ↔ ∃ e, construct mode config = some (.error e) ∧ meets e.kind := by
  constructor
  · exact fun throws => throws type construct found known
  · rintro ⟨e, thrown, met⟩ type' construct' found' known'
    cases found.symm.trans found'
    cases known.symm.trans known'
    exact ⟨e, thrown, met⟩

theorem validateConnector_returned_iff {others : Constructors} {mode : ConnectorMode} {config : Json} :
    (validateConnector others mode config).Returned ↔ Throws others mode config Caught := by
  rcases validateConnector_cases others mode config with
    ⟨⟨why, rejected⟩, unknown⟩ | ⟨type, construct, found, known, ⟨e, thrown, verdict⟩ | ⟨silent, verdict⟩⟩
  · exact iff_of_true (.inr ⟨why, rejected⟩) fun type construct found known =>
      absurd known (unknown type construct found)
  · rw [verdict, verdictOf_returned_iff, throws_iff found known]
    simp [thrown]
  · rw [verdict, throws_iff found known]
    exact iff_of_false (by simp [Verdict.Returned]) fun ⟨e, thrown, _⟩ => silent e thrown

theorem validateConnector_accepted_iff {others : Constructors} {mode : ConnectorMode} {config : Json} :
    validateConnector others mode config = .accepted ↔ Passes others mode config := by
  rcases validateConnector_cases others mode config with
    ⟨⟨why, rejected⟩, unknown⟩ | ⟨type, construct, found, known, ⟨e, thrown, verdict⟩ | ⟨silent, verdict⟩⟩
  · rw [rejected]
    refine iff_of_false nofun fun passes => ?_
    obtain ⟨type, construct, found, known⟩ := passes.known
    exact unknown type construct found known
  · rw [verdict, verdictOf_accepted_iff]
    constructor
    · exact fun runtime => ⟨⟨type, construct, found, known⟩, (throws_iff found known).mpr ⟨e, thrown, runtime⟩⟩
    · intro passes
      obtain ⟨e', thrown', runtime⟩ := (throws_iff found known).mp passes.throws
      cases thrown.symm.trans thrown'
      exact runtime
  · rw [verdict]
    refine iff_of_false nofun fun passes => ?_
    obtain ⟨e, thrown, -⟩ := (throws_iff found known).mp passes.throws
    exact silent e thrown

theorem validates_iff {others : Constructors} {config : Json} :
    (validatePipeline others config).Returned ↔ Validates others config := by
  unfold validatePipeline Validates
  cases config.find? "connector_in" with
  | none => exact iff_of_true (.inr ⟨_, rfl⟩) (by simp)
  | some connectorIn =>
    cases config.find? "connector_out" with
    | none => exact iff_of_true (.inr ⟨_, rfl⟩) (by simp)
    | some connectorOut =>
      simp only [Option.some.injEq, ← validateConnector_returned_iff, ← validateConnector_accepted_iff]
      cases judged : validateConnector others .input connectorIn <;> simp [Verdict.Returned, judged]

theorem accepts_iff {others : Constructors} {config : Json} :
    validatePipeline others config = .accepted ↔ Accepts others config := by
  unfold validatePipeline Accepts
  cases config.find? "connector_in" with
  | none => simp
  | some connectorIn =>
    cases config.find? "connector_out" with
    | none => simp
    | some connectorOut =>
      simp only [Option.some.injEq, exists_and_left, exists_eq_left', ← validateConnector_accepted_iff]
      cases validateConnector others .input connectorIn <;> simp

end M2eBridge
