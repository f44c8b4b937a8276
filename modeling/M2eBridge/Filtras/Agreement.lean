import M2eBridge.Filtras.Factory
import M2eBridge.JsonMerge

/-!
# Configurations that agree but for some keys

The constructor of a class reads no member that the base class reads as well. So two
configurations that agree but for members of the base class make filtras of one kind, and
what differs between them are the members of `Base` that are read from these.
-/

namespace M2eBridge

/-- Two objects that have the same members, those under some keys apart. -/
structure Json.AgreesBut (keys : List String) (j j' : Json) : Prop where
  left : ∃ members, j = .object members
  right : ∃ members, j' = .object members
  find : ∀ key, key ∉ keys → j.find? key = j'.find? key

namespace Json.AgreesBut

variable {keys : List String} {j j' : Json}

theorem index (agrees : AgreesBut keys j j') {key : String} (kept : key ∉ keys) :
    Reading.index j key = Reading.index j' key := by
  obtain ⟨⟨members, rfl⟩, ⟨members', rfl⟩, find⟩ := agrees
  have same : members.lookup key = members'.lookup key := find key kept
  simp only [Reading.index, Json.index, same]

theorem at_eq (agrees : AgreesBut keys j j') {key : String} (kept : key ∉ keys) : j.at' key = j'.at' key := by
  obtain ⟨⟨members, rfl⟩, ⟨members', rfl⟩, find⟩ := agrees
  have same : members.lookup key = members'.lookup key := find key kept
  simp only [at', same]

theorem value_eq {α : Type} (agrees : AgreesBut keys j j') {key : String} (kept : key ∉ keys)
    (get : Json → Except Exn α) (default : α) : j.value get key default = j'.value get key default := by
  obtain ⟨⟨members, rfl⟩, ⟨members', rfl⟩, find⟩ := agrees
  have same : members.lookup key = members'.lookup key := find key kept
  simp only [value, same]

/-- A member that is set differs at its key. -/
theorem set (key : String) (v v' : Json) (members : List (String × Json)) :
    AgreesBut [key] (.object (setMember key v members)) (.object (setMember key v' members)) where
  left := ⟨_, rfl⟩
  right := ⟨_, rfl⟩
  find := by
    intro other different
    have other : other ≠ key := fun same => different (List.mem_singleton.mpr same)
    simp only [find?, lookup_setMember_other other]

end Json.AgreesBut

namespace Filtra

def formatOf (msgFormat : String) : MessageFormat :=
  if msgFormat = "json" then .json else if msgFormat = "raw" then .raw else .unkn

def queuesIn (config : Json) : Except Exn (List String) :=
  match config.find? "queues" with
  | some queues => queues.elements.mapM Json.getString
  | none => .ok []

/-- What the constructor of the base class reads, member by member. -/
structure Base.Reads (config : Json) (base : Base) : Prop where
  name : config.value Json.getString "name" "" = .ok base.name
  msgFormat : (config.value Json.getString "msg_format" "raw").map formatOf = .ok base.msgFormat
  logicalNegation : config.value Json.getBoolean "logical_negation" false = .ok base.logicalNegation
  queueIds : queuesIn config = .ok base.queueIds
  metadata : base.metadata = (config.find? "metadata").getD .null
  hops : ∃ gotoHop, config.value Json.getString "goto" "" = .ok gotoHop ∧
    config.value Json.getString "goto_passed" gotoHop = .ok base.hops.1 ∧
      config.value Json.getString "goto_rejected" gotoHop = .ok base.hops.2

theorem Base.ofConfig_eq (config : Json) : ofConfig config = (do
    let name ← config.value Json.getString "name" ""
    let msgFormat ← config.value Json.getString "msg_format" "raw"
    let logicalNegation ← config.value Json.getBoolean "logical_negation" false
    let queueIds ← queuesIn config
    let gotoHop ← config.value Json.getString "goto" ""
    let first ← config.value Json.getString "goto_passed" gotoHop
    let second ← config.value Json.getString "goto_rejected" gotoHop
    return { name, msgFormat := formatOf msgFormat, logicalNegation, queueIds
             metadata := (config.find? "metadata").getD .null, hops := (first, second) }) := by
  unfold ofConfig queuesIn
  cases config.find? "queues" <;> rfl

theorem Base.ofConfig_ok_iff {config : Json} {base : Base} : ofConfig config = .ok base ↔ Reads config base := by
  rw [ofConfig_eq]
  simp only [bind_eq_ok]
  constructor
  · rintro ⟨name, named, format, formatted, negation, negated, queueIds, queued, gotoHop, going, first, passed, second,
      rejected, built⟩
    cases built
    exact ⟨named, by rw [formatted]; rfl, negated, queued, rfl, gotoHop, going, passed, rejected⟩
  · rintro ⟨named, formatted, negated, queued, metadata, gotoHop, going, passed, rejected⟩
    obtain ⟨format, formatted, same⟩ : ∃ format, config.value Json.getString "msg_format" "raw" = .ok format ∧
        formatOf format = base.msgFormat := by
      cases read : config.value Json.getString "msg_format" "raw" with
      | error e => rw [read] at formatted; cases formatted
      | ok format => rw [read] at formatted; exact ⟨format, rfl, Except.ok.inj formatted⟩
    refine ⟨_, named, format, formatted, _, negated, _, queued, gotoHop, going, _, passed, _, rejected, ?_⟩
    rw [← metadata]
    obtain ⟨_, _, _, _, _, _⟩ := base
    cases same
    rfl

end Filtra

namespace FiltraKind

/-- The `type` of a configuration. -/
def typeName : FiltraKind → String
  | .comparator _ => "comparator"
  | .finder _ => "finder"
  | .eraser _ => "eraser"
  | .builder _ => "builder"
  | .splitter _ => "splitter"
  | .limiter _ => "limiter"
  | .nop => "nop"
  | .throttle _ => "throttle"
  | .luaConverter _ => "converter_lua"
  | .image _ => "image"

end FiltraKind

namespace FiltraFactory

open Reading (index checked)

/-- The members that the constructors read beside those of the base class. -/
def ownKeys : List String :=
  ["operator", "value_key", "comparand", "text", "keys", "payload", "extra", "chunk_size", "size", "rate", "converter_id",
    "operation"]

/-- What is read of a configuration does not depend on other members, and is of the class of its type. -/
structure ReadsOwn (type : String) (read : Json → Reading FiltraKind) : Prop where
  agrees : ∀ {keys : List String} {config config' : Json}, config.AgreesBut keys config' → (∀ key ∈ ownKeys, key ∉ keys) →
    read config = read config'
  kind : ∀ {config : Json} {kind : FiltraKind}, (read config).Gives kind → kind.typeName = type

theorem readsOwn_map {α : Type} {type : String} {read : Json → Reading α} {make : α → FiltraKind}
    (agrees : ∀ {keys : List String} {config config' : Json}, config.AgreesBut keys config' →
      (∀ key ∈ ownKeys, key ∉ keys) → read config = read config')
    (kind : ∀ a, (make a).typeName = type) : ReadsOwn type fun config => do return make (← read config) where
  agrees := fun agree own => by rw [agrees agree own]
  kind := by
    intro config k given
    obtain ⟨a, -, given⟩ := Reading.gives_bind.mp given
    cases given
    exact kind a

theorem readsOwn {b : Build} {type : String} {read : Json → Reading FiltraKind}
    (known : (readers b).lookup type = some read) : ReadsOwn type read := by
  refine readers_ind ?comparator ?finder ?eraser ?builder ?splitter ?limiter ?nop ?throttle ?lua ?image known
  case nop => exact ⟨fun _ _ => rfl, fun given => by cases given; rfl⟩
  all_goals refine readsOwn_map (fun agree own => ?_) fun _ => rfl
  case comparator =>
    simp only [ComparatorFT.ofConfig, agree.index (own "operator" (by decide)), agree.index (own "value_key" (by decide)),
      agree.at_eq (own "comparand" (by decide))]
  case finder =>
    simp only [FinderFT.ofConfig, FinderFT.member, agree.value_eq (own "operator" (by decide)),
      agree.find _ (own "text" (by decide)), agree.find _ (own "keys" (by decide)),
      agree.find _ (own "value_key" (by decide))]
  case eraser => simp only [EraserFT.ofConfig, agree.index (own "keys" (by decide))]
  case builder =>
    simp only [BuilderFT.ofConfig, agree.find _ (own "payload" (by decide)), agree.find _ (own "extra" (by decide))]
  case splitter => simp only [agree.at_eq (own "chunk_size" (by decide))]
  case limiter => simp only [LimiterFT.ofConfig, agree.at_eq (own "size" (by decide))]
  case throttle => simp only [ThrottleFT.ofConfig, agree.index (own "rate" (by decide))]
  case lua => simp only [LuaConverterFT.ofConfig, agree.at_eq (own "converter_id" (by decide))]
  case image =>
    simp only [ImageFT.ofConfig, agree.at_eq (own "operation" (by decide)), agree.value_eq (own "extra" (by decide))]

/-- What the factory makes of a configuration. -/
theorem create_gives_iff {b : Build} {config : Json} {f : FiltraObject} :
    (create b config).Gives f ↔ ∃ read, config.find? "type" = some (.string f.kind.typeName) ∧
      (readers b).lookup f.kind.typeName = some read ∧ f.config = config ∧ (read config).Gives f.kind := by
  constructor
  · intro made
    obtain ⟨type, found, made⟩ := Reading.gives_bind.mp made
    split at made
    · next read known =>
      obtain ⟨described, ofConfig, made⟩ := Reading.gives_bind.mp made
      obtain ⟨kind, given, made⟩ := Reading.gives_bind.mp made
      cases made
      obtain ⟨name, rfl, known⟩ := chosen_iff.mp known
      obtain rfl := (readsOwn known).kind given
      exact ⟨read, Reading.index_gives.mp found, known,
        Filtra.Described.ofConfig_ok (Reading.checked_gives.mp ofConfig), given⟩
    · cases made
  · rintro ⟨read, found, known, rfl, given⟩
    obtain ⟨⟨config, base, built⟩, kind⟩ := f
    obtain ⟨⟨config', base', built'⟩, ofConfig⟩ := Filtra.Described.ofConfig_returns.mpr ⟨base, built⟩
    obtain rfl : config' = config := Filtra.Described.ofConfig_ok ofConfig
    cases built.symm.trans built'
    refine Reading.gives_bind.mpr ⟨_, Reading.index_gives.mpr found, ?_⟩
    simp only [chosen_iff.mpr ⟨kind.typeName, rfl, known⟩]
    refine Reading.gives_bind.mpr ⟨_, Reading.checked_gives.mpr ofConfig, ?_⟩
    exact Reading.gives_bind.mpr ⟨kind, given, rfl⟩

/-- A filtra is one of a configuration that agrees, but for what the base class reads. -/
theorem create_agrees {b : Build} {keys : List String} {f : FiltraObject} {config : Json}
    (made : (create b f.config).Gives f) (agrees : f.config.AgreesBut keys config) (own : ∀ key ∈ ownKeys, key ∉ keys)
    (type : "type" ∉ keys) {base : Filtra.Base} (built : Filtra.Base.ofConfig config = .ok base) :
    (create b config).Gives { config, base, built, kind := f.kind } := by
  obtain ⟨read, found, known, -, given⟩ := create_gives_iff.mp made
  refine create_gives_iff.mpr ⟨read, agrees.find _ type ▸ found, known, rfl, ?_⟩
  rw [← (readsOwn known).agrees agrees own]
  exact given

end FiltraFactory

end M2eBridge
