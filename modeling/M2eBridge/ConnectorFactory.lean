import M2eBridge.Validator

/-!
# The connector factory

`ConnectorFactory::create` and `validate_connector` choose the class of a connector by the
same `type`, each from a table of its own. The tables differ: the cloud storage connector goes
by `gcp_cloud_storage` in one and by `gcp_bucket` in the other, and the validator knows no
database. `validator_agrees_iff` says for which configs the validator comes to an end and
calls a type unknown as the factory does.
-/

namespace M2eBridge

/-- The connector classes that a build has by its options, `WITH_MQTT_CONNECTOR` and so on. -/
inductive AddedConnector where
  | mqtt
  | email
  | pubSub
  | cloudStorage
  | s3
  | http
  | serviceBus
  | slack
  | modbus
  | postgreSQL
  | sqLite
  deriving DecidableEq, Repr

/-- The report of an unknown type, of the validator or of the factory. -/
def Reports (what : String) : Prop :=
  ∃ type, what = "Unknown connector type: " ++ type ++ "!" ∨ what = "Unknown Connector type [ " ++ type ++ " ]"

/-- An exception that says something, and reports no unknown type. -/
def Exn.Told (e : Exn) : Prop := e.what ≠ "" ∧ ¬ Reports e.what

/-- A build: its options, `WITH_LUA` and `WITH_IMAGE_HANDLERS` among them, and what the
constructors come to that it adds. They look at the config with checked accesses only, and
each exception says something of its own. -/
structure Build where
  options : AddedConnector → Bool
  lua : Bool := false
  imageHandlers : Bool := false
  construct : AddedConnector → ConnectorMode → Json → Except Exn Unit
  told : ∀ {connector mode config e}, construct connector mode config = .error e → e.Told

/-- The types in `ConnectorFactory::create`. -/
def ConnectorFactory.types : List (String × AddedConnector) :=
  [("mqtt", .mqtt), ("gcp_pubsub", .pubSub), ("gcp_cloud_storage", .cloudStorage), ("email", .email),
    ("aws_s3", .s3), ("http", .http), ("azure_sbc", .serviceBus), ("slack", .slack), ("modbus", .modbus),
    ("postgresql", .postgreSQL), ("sqlite", .sqLite)]

/-- The types in `validate_connector`. -/
def validatorTypes : List (String × AddedConnector) :=
  [("mqtt", .mqtt), ("email", .email), ("gcp_pubsub", .pubSub), ("gcp_bucket", .cloudStorage),
    ("aws_s3", .s3), ("http", .http), ("azure_sbc", .serviceBus), ("slack", .slack), ("modbus", .modbus)]

namespace Build

/-- The constructors that a table gives in the build. -/
def added (b : Build) (types : List (String × AddedConnector)) : Constructors := fun type =>
  ((types.filter fun entry => b.options entry.2).lookup type).map fun connector mode config =>
    some (b.construct connector mode config)

/-- The type is one that a table of the build has, or one of the two that are always there. -/
def Knows (b : Build) (types : List (String × AddedConnector)) (type : String) : Prop :=
  (constructorOf (b.added types) type).isSome

/-- `validate_connector` -/
def validate (b : Build) (mode : ConnectorMode) (config : Json) : Verdict :=
  validateConnector (b.added validatorTypes) mode config

end Build

/-- `ConnectorFactory::create` -/
def ConnectorFactory.create (b : Build) (mode : ConnectorMode) (config : Json) : Construction :=
  match config.at' "type" >>= Json.getString with
  | .error e => some (.error e)
  | .ok type =>
    match constructorOf (b.added types) type with
    | none => some (.error ⟨.invalidArgument, "Unknown Connector type [ " ++ type ++ " ]"⟩)
    | some construct => construct mode config

/-! ## What the constructors throw -/

/-- The reports begin alike. -/
theorem Reports.begins {what : String} (reports : Reports what) :
    what.toList.take 9 = "Unknown c".toList ∨ what.toList.take 9 = "Unknown C".toList := by
  obtain ⟨type, rfl | rfl⟩ := reports
  · exact .inl (by simp [String.toList_append])
  · exact .inr (by simp [String.toList_append])

theorem Exn.told_of_begins {e : Exn} (start : List Char) (begins : e.what.toList.take 9 = start)
    (some_ : start ≠ []) (small : start ≠ "Unknown c".toList) (capital : start ≠ "Unknown C".toList) : e.Told := by
  refine ⟨fun empty => some_ ?_, fun reports => ?_⟩
  · rw [← begins, empty]
    rfl
  · rcases reports.begins with same | same
    · exact small (begins.symm.trans same)
    · exact capital (begins.symm.trans same)

/-- What the JSON library throws. -/
theorem Exn.told_of_library {kind : ExnKind} {what : String} (begins : what.toList.take 9 = "[json.exc".toList) :
    Exn.Told ⟨kind, what⟩ :=
  told_of_begins _ begins (by decide) (by decide) (by decide)

namespace Json

theorem typeError302_told (expected : String) (j : Json) : (typeError302 expected j).Told :=
  Exn.told_of_library (by simp [String.toList_append])

theorem getString_told {j : Json} {e : Exn} (thrown : j.getString = .error e) : e.Told := by
  cases j <;> simp only [getString, Except.error.injEq, reduceCtorEq] at thrown <;> exact thrown ▸ typeError302_told _ _

theorem checkNumber_told {j : Json} {e : Exn} (thrown : j.checkNumber = .error e) : e.Told := by
  cases j <;> simp only [checkNumber, Except.error.injEq, reduceCtorEq] at thrown <;>
    exact thrown ▸ typeError302_told _ _

theorem checkArithmetic_told {j : Json} {e : Exn} (thrown : j.checkArithmetic = .error e) : e.Told := by
  cases j <;> simp only [checkArithmetic, Except.error.injEq, reduceCtorEq] at thrown <;>
    exact thrown ▸ typeError302_told _ _

theorem at_told {j : Json} {key : String} {e : Exn} (thrown : j.at' key = .error e) : e.Told := by
  cases j with
  | object members =>
    simp only [at'] at thrown
    split at thrown <;> cases thrown
    exact Exn.told_of_library (by simp [String.toList_append])
  | _ => cases thrown; exact Exn.told_of_library (by simp [String.toList_append])

theorem index_told {j : Json} {key : String} {e : Exn} (thrown : j.index key = some (.error e)) : e.Told := by
  cases j with
  | object members => simp [index] at thrown
  | _ => cases thrown; exact Exn.told_of_library (by simp [String.toList_append])

/-- A read and what is made of it. -/
theorem bind_told {α β : Type} {read : Except Exn α} {get : α → Except Exn β} {e : Exn}
    (thrown : read >>= get = .error e) (reads : ∀ e, read = .error e → e.Told)
    (gets : ∀ a e, get a = .error e → e.Told) : e.Told := by
  cases read with
  | error other => cases thrown; exact reads _ rfl
  | ok a => exact gets a e thrown

end Json

theorem MessageFormat.ofName_told {str : String} {e : Exn} (thrown : MessageFormat.ofName str = .error e) : e.Told := by
  unfold MessageFormat.ofName at thrown
  split at thrown <;> cases thrown
  exact Exn.told_of_begins "Unknown f".toList (by simp [String.toList_append]) (by decide) (by decide) (by decide)

theorem connectorFormat_told {config : Json} {e : Exn} (thrown : connectorFormat config = .error e) : e.Told := by
  unfold connectorFormat at thrown
  split at thrown
  · exact MessageFormat.ofName_told thrown
  · cases thrown

theorem InternalConnector.construct_told {mode : ConnectorMode} {config : Json} {e : Exn}
    (thrown : InternalConnector.construct mode config = some (.error e)) : e.Told := by
  refine Json.bind_told (Option.some.inj thrown) (fun _ => connectorFormat_told) fun _ e thrown => ?_
  refine Json.bind_told thrown (fun _ => Json.at_told) fun _ e thrown => ?_
  refine Json.bind_told thrown (fun _ => Json.getString_told) fun _ e thrown => ?_
  split at thrown
  · exact Json.bind_told thrown (fun _ => Json.at_told) fun _ _ => Json.checkNumber_told
  · cases thrown

theorem GeneratorConnector.construct_told {mode : ConnectorMode} {config : Json} {e : Exn}
    (thrown : GeneratorConnector.construct mode config = some (.error e)) : e.Told := by
  unfold GeneratorConnector.construct at thrown
  split at thrown
  · next format => cases thrown; exact connectorFormat_told format
  · split at thrown
    · cases thrown
      exact Exn.told_of_begins "Generator".toList (by decide) (by decide) (by decide) (by decide)
    · split at thrown
      · cases thrown
      · next payload found =>
        split at thrown
        · next e' refused =>
          cases thrown
          refine Json.bind_told refused (fun _ error => Json.index_told (found.trans (congrArg some error))) fun _ _ =>
            Json.getString_told
        · cases found : config.index "period" with
          | none => rw [found] at thrown; cases thrown
          | some period =>
            rw [found] at thrown
            exact Json.bind_told (Option.some.inj thrown)
              (fun _ error => Json.index_told (found.trans (congrArg some error))) fun _ _ => Json.checkArithmetic_told

/-- No constructor of a build reports an unknown type. -/
theorem constructorOf_told {b : Build} {types : List (String × AddedConnector)} {type : String}
    {construct : ConnectorMode → Json → Construction} (known : constructorOf (b.added types) type = some construct)
    {mode : ConnectorMode} {config : Json} {e : Exn} (thrown : construct mode config = some (.error e)) : e.Told := by
  unfold constructorOf at known
  split at known
  · cases known; exact InternalConnector.construct_told thrown
  · split at known
    · cases known; exact GeneratorConnector.construct_told thrown
    · simp only [Build.added, Option.map_eq_some_iff] at known
      obtain ⟨connector, -, rfl⟩ := known
      exact b.told (Option.some.inj thrown)

/-! ## The two tables -/

/-- The validator comes to an end, and reports an unknown type when the factory does. -/
structure Agrees (b : Build) (mode : ConnectorMode) (config : Json) : Prop where
  returned : (b.validate mode config).Returned
  unknown : (∃ type, b.validate mode config = .rejected ("Unknown connector type: " ++ type ++ "!")) ↔
    ∃ type, ConnectorFactory.create b mode config =
      some (.error ⟨.invalidArgument, "Unknown Connector type [ " ++ type ++ " ]"⟩)

/-- A type that is in both tables or in none, with a constructor that throws what is caught. -/
def Checked (b : Build) (mode : ConnectorMode) (config : Json) : Prop :=
  ∀ type, config.find? "type" = some (.string type) →
    (b.Knows validatorTypes type ↔ b.Knows ConnectorFactory.types type) ∧
      ∀ construct, constructorOf (b.added ConnectorFactory.types) type = some construct →
        ∃ e, construct mode config = some (.error e) ∧ Caught e.kind

theorem entry_of_lookup {types : List (String × AddedConnector)} {kept : String × AddedConnector → Bool} {type : String}
    {connector : AddedConnector} (found : (types.filter kept).lookup type = some connector) :
    (type, connector) ∈ types := by
  obtain ⟨front, behind, split, -⟩ := List.lookup_eq_some_iff.mp found
  exact (List.mem_filter.mp (split ▸ List.mem_append_right front List.mem_cons_self)).1

/-- A type that both tables have is of one class. -/
theorem constructorOf_same {b : Build} {type : String} {construct other : ConnectorMode → Json → Construction}
    (validator : constructorOf (b.added validatorTypes) type = some construct)
    (factory : constructorOf (b.added ConnectorFactory.types) type = some other) : construct = other := by
  unfold constructorOf at validator factory
  split at validator
  · next queue => rw [if_pos queue] at factory; exact Option.some.inj (validator.symm.trans factory)
  · next queue =>
    rw [if_neg queue] at factory
    split at validator
    · next generator => rw [if_pos generator] at factory; exact Option.some.inj (validator.symm.trans factory)
    · next generator =>
      rw [if_neg generator] at factory
      simp only [Build.added, Option.map_eq_some_iff] at validator factory
      obtain ⟨connector, inValidator, rfl⟩ := validator
      obtain ⟨connector', inFactory, rfl⟩ := factory
      have tables : ∀ entry ∈ validatorTypes, ∀ entry' ∈ ConnectorFactory.types, entry.1 = entry'.1 →
          entry.2 = entry'.2 := by decide
      have same : connector = connector' :=
        tables _ (entry_of_lookup inValidator) _ (entry_of_lookup inFactory) rfl
      rw [same]

/-- What a verdict on an exception says is what the exception does. -/
theorem verdictOf_not_report {e : Exn} (told : e.Told) (type : String) :
    verdictOf e ≠ .rejected ("Unknown connector type: " ++ type ++ "!") := by
  unfold verdictOf
  split
  · rintro same
    exact told.2 ⟨type, .inl (Verdict.rejected.inj same)⟩
  · split <;> simp

/-- The validator reports the types that its table has not. -/
theorem Build.validate_unknown_iff (b : Build) (mode : ConnectorMode) {config : Json} {type : String}
    (found : config.find? "type" = some (.string type)) :
    (∃ reported, b.validate mode config = .rejected ("Unknown connector type: " ++ reported ++ "!")) ↔
      ¬ b.Knows validatorTypes type := by
  have read : config.at' "type" >>= Json.getString = .ok type := by rw [Json.at_eq_ok.mpr found]; rfl
  cases known : constructorOf (b.added validatorTypes) type with
  | none =>
    refine iff_of_true ⟨type, ?_⟩ (by simp [Knows, known])
    simp only [validate, validateConnector, read, known]
  | some construct =>
    refine iff_of_false ?_ (by simp [Knows, known])
    rintro ⟨reported, rejected⟩
    simp only [validate, validateConnector, read, known] at rejected
    split at rejected
    · next thrown => exact verdictOf_not_report (constructorOf_told known thrown) reported rejected
    · cases rejected

/-- The factory throws for the types that its table has not. -/
theorem ConnectorFactory.create_unknown_iff (b : Build) (mode : ConnectorMode) {config : Json} {type : String}
    (found : config.find? "type" = some (.string type)) :
    (∃ reported, create b mode config =
        some (.error ⟨.invalidArgument, "Unknown Connector type [ " ++ reported ++ " ]"⟩)) ↔ ¬ b.Knows types type := by
  have read : config.at' "type" >>= Json.getString = .ok type := by rw [Json.at_eq_ok.mpr found]; rfl
  cases known : constructorOf (b.added types) type with
  | none =>
    refine iff_of_true ⟨type, ?_⟩ (by simp [Build.Knows, known])
    simp only [create, read, known]
  | some construct =>
    refine iff_of_false ?_ (by simp [Build.Knows, known])
    rintro ⟨reported, created⟩
    simp only [create, read, known] at created
    exact (constructorOf_told known created).2 ⟨reported, .inr rfl⟩

/-- **The two tables.** The validator comes to an end, and calls a type unknown exactly for
the configs for which the factory does, when the type is in both tables or in none, and a
constructor that there is throws something that the validator catches. -/
theorem validator_agrees_iff (b : Build) (mode : ConnectorMode) (config : Json) :
    Agrees b mode config ↔ Checked b mode config := by
  rcases Json.string_cases config "type" with ⟨type, found, read⟩ | ⟨other, what, thrown⟩
  · have agrees : Agrees b mode config ↔ (b.Knows validatorTypes type ↔ b.Knows ConnectorFactory.types type) ∧
        (b.validate mode config).Returned := by
      rw [← @not_iff_not (b.Knows validatorTypes type), ← b.validate_unknown_iff mode found,
        ← ConnectorFactory.create_unknown_iff b mode found]
      exact ⟨fun agrees => ⟨agrees.unknown, agrees.returned⟩, fun both => ⟨both.2, both.1⟩⟩
    have checked : Checked b mode config ↔ (b.Knows validatorTypes type ↔ b.Knows ConnectorFactory.types type) ∧
        ∀ construct, constructorOf (b.added ConnectorFactory.types) type = some construct →
          ∃ e, construct mode config = some (.error e) ∧ Caught e.kind := by
      refine ⟨fun checked => checked type found, fun both type' found' => ?_⟩
      cases found.symm.trans found'
      exact both
    rw [agrees, checked]
    apply and_congr_right
    intro same
    cases inFactory : constructorOf (b.added ConnectorFactory.types) type with
    | none =>
      have unknown : ¬ b.Knows validatorTypes type := by rw [same]; simp [Build.Knows, inFactory]
      obtain ⟨reported, rejected⟩ := (b.validate_unknown_iff mode found).mpr unknown
      refine iff_of_true (.inr ⟨_, rejected⟩) fun construct known => ?_
      cases known
    | some construct =>
      have known : b.Knows validatorTypes type := same.mpr (by simp [Build.Knows, inFactory])
      obtain ⟨other, inValidator⟩ := Option.isSome_iff_exists.mp known
      cases constructorOf_same inValidator inFactory
      simp only [Option.some.injEq, forall_eq']
      exact validateConnector_returned_iff.trans (throws_iff found inValidator)
  · have told : Exn.Told ⟨.jsonException, what⟩ :=
      Json.bind_told thrown (fun _ => Json.at_told) fun _ _ => Json.getString_told
    refine iff_of_true ⟨?_, iff_of_false ?_ ?_⟩ fun type found => absurd found (other type)
    · simp only [Build.validate, validateConnector, thrown]
      exact .inr ⟨what, rfl⟩
    · rintro ⟨type, rejected⟩
      simp only [Build.validate, validateConnector, thrown] at rejected
      exact verdictOf_not_report told type rejected
    · rintro ⟨type, created⟩
      simp [ConnectorFactory.create, thrown] at created

/-- A build with no options. -/
def plainBuild : Build where
  options := fun _ => false
  construct := fun _ _ _ => .ok ()
  told := nofun

/-- A queue connector that can be constructed: `validate_connector` runs off its end. -/
theorem validator_runs_off : ¬ ∀ (b : Build) (mode : ConnectorMode) (config : Json), Agrees b mode config := by
  intro all
  rcases (all plainBuild .input (.object [("name", .string "q"), ("type", .string "queue")])).returned with
    accepted | ⟨why, rejected⟩
  · revert accepted; decide
  · cases rejected

end M2eBridge
