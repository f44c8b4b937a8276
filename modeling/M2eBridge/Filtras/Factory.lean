import M2eBridge.Filtras.Builder
import M2eBridge.Filtras.Filters

/-!
# The filtra factory

`FiltraFactory::create` chooses the class of a filtra by its `type`, and the constructor reads
the members of the base class and its own. Of the accesses that are not checked, `create_defined_iff`
says which configurations meet the precondition.
-/

namespace M2eBridge

open Reading (index checked)

structure EraserFT where
  keys : List String
  deriving DecidableEq, Repr

def EraserFT.ofConfig (config : Json) : Reading EraserFT := do
  let keys ← index config "keys"
  let keys ← checked (keys.elements.mapM Json.getString)
  return { keys }

structure LuaConverterFT where
  converterId : String
  deriving DecidableEq, Repr

def LuaConverterFT.ofConfig (config : Json) : Reading LuaConverterFT := do
  let converterId ← checked <| config.at' "converter_id" >>= Json.getString
  return { converterId }

inductive ImageFTOperation where
  | unkn
  | resize
  deriving DecidableEq, Repr

/-- `ImageFTOperation::from_string` -/
def ImageFTOperation.ofName (str : String) : Except Exn ImageFTOperation :=
  match str.toLower with
  | "unkn" => .ok .unkn
  | "resize" => .ok .resize
  | other => .error ⟨.invalidArgument, "Unknown format: " ++ other⟩

structure ImageFT where
  operation : ImageFTOperation
  extra : String
  deriving DecidableEq, Repr

def ImageFT.ofConfig (config : Json) : Reading ImageFT := do
  let operation ← checked <| config.at' "operation" >>= Json.getString
  let operation ← checked (ImageFTOperation.ofName operation)
  let extra ← checked (config.value Json.getString "extra" "")
  return { operation, extra }

/-- A filtra by its class, with the members that it has of its own. -/
inductive FiltraKind where
  | comparator (c : ComparatorFT)
  | finder (f : FinderFT)
  | eraser (e : EraserFT)
  | builder (b : BuilderFT)
  | splitter (chunkSize : UInt64)
  | limiter (l : LimiterFT)
  | nop
  | throttle (t : ThrottleFT)
  | luaConverter (l : LuaConverterFT)
  | image (i : ImageFT)

/-- A filtra as it is constructed. -/
structure FiltraObject extends Filtra.Described where
  kind : FiltraKind

namespace FiltraFactory

/-- The constructors, by type. -/
def readers (b : Build) : List (String × (Json → Reading FiltraKind)) :=
  [("comparator", fun config => do return .comparator (← ComparatorFT.ofConfig config)),
    ("finder", fun config => do return .finder (← FinderFT.ofConfig config)),
    ("eraser", fun config => do return .eraser (← EraserFT.ofConfig config)),
    ("builder", fun config => do return .builder (← BuilderFT.ofConfig config)),
    ("splitter", fun config => do return .splitter (← checked <| config.at' "chunk_size" >>= Json.getUnsigned)),
    ("limiter", fun config => do return .limiter (← LimiterFT.ofConfig config)),
    ("nop", fun _ => pure .nop),
    ("throttle", fun config => do return .throttle (← ThrottleFT.ofConfig config))] ++
  (if b.lua then [("converter_lua", fun config => do return .luaConverter (← LuaConverterFT.ofConfig config))] else []) ++
  if b.imageHandlers then [("image", fun config => do return .image (← ImageFT.ofConfig config))] else []

/-- `FiltraFactory::create` -/
def create (b : Build) (config : Json) : Reading FiltraObject := do
  let type ← index config "type"
  match type.getString.toOption.bind fun type => (readers b).lookup type with
  | some read =>
    let described ← checked (Filtra.Described.ofConfig config)
    let kind ← read config
    return { described with kind }
  | none => checked (.error ⟨.invalidArgument, "Unknown filtra"⟩)

/-- The constructor is found under a type that is a string. -/
theorem chosen_iff {b : Build} {type : Json} {read : Json → Reading FiltraKind} :
    (type.getString.toOption.bind fun type => (readers b).lookup type) = some read ↔
      ∃ name, type = .string name ∧ (readers b).lookup name = some read := by
  cases type <;> simp [Json.getString, Except.toOption]

/-- What holds of the constructor of every class holds of the one that is found. -/
@[elab_as_elim]
theorem readers_ind {b : Build} {motive : String → (Json → Reading FiltraKind) → Prop}
    (comparator : motive "comparator" fun config => do return .comparator (← ComparatorFT.ofConfig config))
    (finder : motive "finder" fun config => do return .finder (← FinderFT.ofConfig config))
    (eraser : motive "eraser" fun config => do return .eraser (← EraserFT.ofConfig config))
    (builder : motive "builder" fun config => do return .builder (← BuilderFT.ofConfig config))
    (splitter : motive "splitter" fun config => do
      return .splitter (← checked <| config.at' "chunk_size" >>= Json.getUnsigned))
    (limiter : motive "limiter" fun config => do return .limiter (← LimiterFT.ofConfig config))
    (nop : motive "nop" fun _ => pure .nop)
    (throttle : motive "throttle" fun config => do return .throttle (← ThrottleFT.ofConfig config))
    (luaConverter : motive "converter_lua" fun config => do return .luaConverter (← LuaConverterFT.ofConfig config))
    (image : motive "image" fun config => do return .image (← ImageFT.ofConfig config))
    {type : String} {read : Json → Reading FiltraKind} (known : (readers b).lookup type = some read) :
    motive type read := by
  obtain ⟨front, behind, split, -⟩ := List.lookup_eq_some_iff.mp known
  have member : (type, read) ∈ readers b := split ▸ List.mem_append_right front List.mem_cons_self
  simp only [readers, List.mem_append, List.mem_cons, Prod.mk.injEq, List.not_mem_nil, or_false] at member
  rcases member with (always | withLua) | withImage
  · rcases always with ⟨rfl, rfl⟩ | ⟨rfl, rfl⟩ | ⟨rfl, rfl⟩ | ⟨rfl, rfl⟩ |
      ⟨rfl, rfl⟩ | ⟨rfl, rfl⟩ | ⟨rfl, rfl⟩ | ⟨rfl, rfl⟩ <;> assumption
  · split at withLua
    · obtain ⟨rfl, rfl⟩ := Prod.mk.inj (List.mem_singleton.mp withLua)
      exact luaConverter
    · cases withLua
  · split at withImage
    · obtain ⟨rfl, rfl⟩ := Prod.mk.inj (List.mem_singleton.mp withImage)
      exact image
    · cases withImage

/-! ## What the constructors throw -/

theorem ImageFTOperation.ofName_told {str : String} {e : Exn} (thrown : ImageFTOperation.ofName str = .error e) :
    e.Told := by
  unfold ImageFTOperation.ofName at thrown
  split at thrown <;> cases thrown
  exact Exn.told_of_begins "Unknown f".toList (by simp [String.toList_append]) (by decide) (by decide) (by decide)

theorem tells_string (config : Json) (key : String) : (checked (config.at' key >>= Json.getString)).Tells :=
  Reading.raises_checked fun _ thrown => Json.bind_told thrown (fun _ => Json.at_told) fun _ _ => Json.getString_told

theorem tells_unsigned (config : Json) (key : String) : (checked (config.at' key >>= Json.getUnsigned)).Tells :=
  Reading.raises_checked fun _ thrown => Json.bind_told thrown (fun _ => Json.at_told) fun _ _ => Json.getUnsigned_told

theorem tells_member {α : Type} (config : Json) (key : String) {get : Json → Except Exn α} (default : α)
    (told : ∀ v e, get v = .error e → e.Told) : (FinderFT.member config key get default).Tells := by
  unfold FinderFT.member
  split
  · exact Reading.raises_checked (told _)
  · exact Reading.raises_pure _

open Reading (raises_bind tells_index raises_checked raises_pure)

theorem tells_comparator (config : Json) : (ComparatorFT.ofConfig config).Tells :=
  raises_bind (tells_index _ _) fun _ => raises_bind (raises_checked fun _ => Json.getString_told) fun _ =>
    raises_bind (tells_index _ _) fun _ => raises_bind (raises_checked fun _ => Json.getString_told) fun _ =>
      raises_bind (raises_checked fun _ => Json.at_told) fun _ => raises_pure _

theorem tells_finder (config : Json) : (FinderFT.ofConfig config).Tells :=
  raises_bind (raises_checked fun _ thrown => Json.value_told thrown fun _ _ => Json.getString_told) fun _ =>
    raises_bind (tells_member config "text" "" fun _ _ => Json.getString_told) fun _ =>
      raises_bind (tells_member config "keys" [] fun keys => Json.mapM_told (fun _ _ => Json.getString_told) keys.elements)
        fun _ => raises_bind (tells_member config "value_key" "" fun _ _ => Json.getString_told) fun _ => raises_pure _

/-- A reader that makes checked accesses only. -/
def Plain {α : Type} (read : Json → Reading α) : Prop := ∀ config, (read config).Defined ∧ (read config).Tells

theorem Plain.map {α β : Type} {read : Json → Reading α} (plain : Plain read) (f : α → β) :
    Plain fun config => do return f (← read config) := fun config =>
  ⟨by simp only [bind_pure_comp, Reading.defined_map, (plain config).1], raises_bind (plain config).2 fun _ => raises_pure _⟩

theorem plain_checked {α : Type} {read : Json → Except Exn α} (tells : ∀ config, (checked (read config)).Tells) :
    Plain fun config => checked (read config) := fun config => ⟨Reading.defined_checked _, tells config⟩

theorem plain_finder : Plain FinderFT.ofConfig := by
  refine fun config => ⟨?_, tells_finder config⟩
  have member {α : Type} (key : String) (get : Json → Except Exn α) (default : α) :
      (FinderFT.member config key get default).Defined := by
    unfold FinderFT.member
    split
    · exact Reading.defined_checked _
    · exact Reading.defined_pure _
  simp only [FinderFT.ofConfig, bind_pure_comp, Reading.defined_map, Reading.defined_bind, Reading.defined_checked, member,
    implies_true, and_self]

theorem plain_image : Plain ImageFT.ofConfig := by
  intro config
  constructor
  · simp only [ImageFT.ofConfig, bind_pure_comp, Reading.defined_map, Reading.defined_bind, Reading.defined_checked,
      implies_true, and_self]
  · exact raises_bind (tells_string config _) fun _ => raises_bind (raises_checked fun _ => ImageFTOperation.ofName_told)
      fun _ => raises_bind (raises_checked fun _ thrown => Json.value_told thrown fun _ _ => Json.getString_told)
        fun _ => raises_pure _

theorem plain_splitter : Plain fun config => checked <| config.at' "chunk_size" >>= Json.getUnsigned :=
  plain_checked fun config => tells_unsigned config _

theorem plain_limiter : Plain LimiterFT.ofConfig :=
  (plain_checked fun config => tells_unsigned config "size").map LimiterFT.mk

theorem plain_luaConverter : Plain LuaConverterFT.ofConfig :=
  (plain_checked fun config => tells_string config "converter_id").map LuaConverterFT.mk

theorem plain_builder : Plain BuilderFT.ofConfig := fun _ => ⟨Reading.defined_pure _, raises_pure _⟩

/-- The readers: three make accesses that are not checked. -/
theorem readers_cases {b : Build} {type : String} {read : Json → Reading FiltraKind}
    (known : (readers b).lookup type = some read) :
    (type = "comparator" ∧ read = fun config => do return .comparator (← ComparatorFT.ofConfig config)) ∨
      (type = "eraser" ∧ read = fun config => do return .eraser (← EraserFT.ofConfig config)) ∨
      (type = "throttle" ∧ read = fun config => do return .throttle (← ThrottleFT.ofConfig config)) ∨
      (type ≠ "comparator" ∧ type ≠ "eraser" ∧ type ≠ "throttle") ∧ Plain read := by
  refine readers_ind ?comparator ?finder ?eraser ?builder ?splitter ?limiter ?nop ?throttle ?lua ?image known
  case comparator => exact .inl ⟨rfl, rfl⟩
  case eraser => exact .inr (.inl ⟨rfl, rfl⟩)
  case throttle => exact .inr (.inr (.inl ⟨rfl, rfl⟩))
  all_goals refine .inr (.inr (.inr ⟨by decide, ?_⟩))
  case finder => exact plain_finder.map _
  case builder => exact plain_builder.map _
  case splitter => exact plain_splitter.map _
  case limiter => exact plain_limiter.map _
  case nop => exact fun _ => ⟨Reading.defined_pure _, raises_pure _⟩
  case lua => exact plain_luaConverter.map _
  case image => exact plain_image.map _

theorem readers_tell {b : Build} {type : String} {read : Json → Reading FiltraKind}
    (known : (readers b).lookup type = some read) (config : Json) : (read config).Tells := by
  rcases readers_cases known with ⟨-, rfl⟩ | ⟨-, rfl⟩ | ⟨-, rfl⟩ | ⟨-, plain⟩
  · exact raises_bind (tells_comparator config) fun _ => raises_pure _
  · exact raises_bind (raises_bind (tells_index _ _) fun keys => raises_bind (raises_checked
      (Json.mapM_told (fun _ _ => Json.getString_told) keys.elements)) fun _ => raises_pure _) fun _ => raises_pure _
  · exact raises_bind (raises_bind (tells_index _ _) fun _ => raises_bind (raises_checked fun _ => Json.getDouble_told)
      fun _ => raises_pure _) fun _ => raises_pure _
  · exact (plain config).2

theorem create_tells (b : Build) (config : Json) : (create b config).Tells := by
  refine raises_bind (tells_index _ _) fun type => ?_
  split
  · next read known =>
    refine raises_bind (raises_checked fun _ => Filtra.Described.ofConfig_told) fun described => ?_
    obtain ⟨name, -, known⟩ := chosen_iff.mp known
    exact raises_bind (readers_tell known config) fun _ => raises_pure _
  · refine raises_checked fun e thrown => ?_
    cases thrown
    exact Exn.told_of_begins "Unknown f".toList (by decide) (by decide) (by decide) (by decide)

/-- The filtra is of the configuration it was made for. -/
theorem create_config {b : Build} {config : Json} {f : FiltraObject} (made : (create b config).Gives f) :
    f.config = config := by
  obtain ⟨type, -, made⟩ := Reading.gives_bind.mp made
  split at made
  · obtain ⟨described, read, made⟩ := Reading.gives_bind.mp made
    obtain ⟨kind, -, made⟩ := Reading.gives_bind.mp made
    cases made
    exact Filtra.Described.ofConfig_ok (Reading.checked_gives.mp read)
  · cases made

/-! ## The accesses that are not checked -/

/-- What the factory and the constructors look up without looking whether it is there, is there. -/
structure Complete (config : Json) : Prop where
  type : ∀ members, config = .object members → config.contains "type" = true
  operator : config.find? "type" = some (.string "comparator") → (∃ base, Filtra.Base.ofConfig config = .ok base) →
    config.contains "operator" = true
  valueKey : config.find? "type" = some (.string "comparator") → (∃ base, Filtra.Base.ofConfig config = .ok base) →
    ∀ oper, config.find? "operator" = some (.string oper) → config.contains "value_key" = true
  keys : config.find? "type" = some (.string "eraser") → (∃ base, Filtra.Base.ofConfig config = .ok base) →
    config.contains "keys" = true
  rate : config.find? "type" = some (.string "throttle") → (∃ base, Filtra.Base.ofConfig config = .ok base) →
    config.contains "rate" = true

/-- A document that has a member is an object. -/
theorem object_contains {config v : Json} {name : String} (found : config.find? name = some v) (key : String) :
    (∀ members, config = .object members → config.contains key = true) ↔ config.contains key = true := by
  cases config with
  | object members => exact ⟨fun all => all members rfl, fun there _ _ => there⟩
  | null | boolean | integer | float | string | binary | array => cases found

/-- The constructor of a class reads what is there. -/
theorem readers_defined_iff {b : Build} {type : String} {read : Json → Reading FiltraKind}
    (known : (readers b).lookup type = some read) {config : Json} (found : config.find? "type" = some (.string type)) :
    (read config).Defined ↔
      (type = "comparator" → config.contains "operator" = true ∧
        ∀ oper, config.find? "operator" = some (.string oper) → config.contains "value_key" = true) ∧
      (type = "eraser" → config.contains "keys" = true) ∧ (type = "throttle" → config.contains "rate" = true) := by
  rcases readers_cases known with ⟨rfl, rfl⟩ | ⟨rfl, rfl⟩ | ⟨rfl, rfl⟩ | ⟨⟨comparator, eraser, throttle⟩, plain⟩
  · rw [Reading.defined_bind, ComparatorFT.ofConfig, Reading.defined_indexString]
    simp only [Reading.defined_bind, Reading.defined_checked, Reading.defined_pure, Reading.defined_index,
      object_contains found, implies_true, and_true, forall_const, String.reduceEq, false_implies]
  · simp only [bind_pure_comp, Reading.defined_map, Reading.defined_bind, EraserFT.ofConfig, Reading.defined_checked,
      Reading.defined_index, object_contains found, implies_true, and_true, true_and, forall_const, String.reduceEq,
      false_implies]
  · simp only [bind_pure_comp, Reading.defined_map, Reading.defined_bind, ThrottleFT.ofConfig, Reading.defined_checked,
      Reading.defined_index, object_contains found, implies_true, and_true, true_and, forall_const, String.reduceEq,
      false_implies]
  · exact iff_of_true (plain config).1
      ⟨fun same => absurd same comparator, fun same => absurd same eraser, fun same => absurd same throttle⟩

/-- The factory makes no access outside its precondition when the configuration is complete. -/
theorem create_defined_iff (b : Build) (config : Json) : (create b config).Defined ↔ Complete config := by
  rw [create, Reading.defined_bind, Reading.defined_index]
  simp only [Reading.index_gives]
  have described (read : Json → Reading FiltraKind) :
      (checked (Filtra.Described.ofConfig config) >>= fun described => read config >>= fun kind =>
        (pure { described with kind } : Reading FiltraObject)).Defined ↔
        ((∃ base, Filtra.Base.ofConfig config = .ok base) → (read config).Defined) := by
    rw [Reading.defined_bind, ← Filtra.Described.ofConfig_returns]
    simp only [Reading.defined_checked, Reading.defined_bind, Reading.defined_pure, implies_true, and_true, true_and,
      Reading.checked_gives, forall_exists_index]
  cases found : config.find? "type" with
  | none =>
    constructor
    · rintro ⟨there, -⟩
      refine ⟨there, ?_, ?_, ?_, ?_⟩ <;> (intro same; rw [found] at same; cases same)
    · intro complete
      refine ⟨complete.type, ?_⟩
      intro type same
      cases same
  | some type =>
    have there : config.contains "type" = true := by simp [Json.contains, found]
    simp only [there, implies_true, true_and, Option.some.injEq, forall_eq']
    cases known : type.getString.toOption.bind fun type => (readers b).lookup type with
    | none =>
      have unknown (name : String) (reader : (readers b).lookup name ≠ none) : config.find? "type" ≠ some (.string name) := by
        intro same
        cases found.symm.trans same
        exact reader known
      refine iff_of_true (Reading.defined_checked _) ⟨fun _ _ => there, ?_, ?_, ?_, ?_⟩
      · exact fun same => absurd same (unknown "comparator" (by simp [readers]))
      · exact fun same => absurd same (unknown "comparator" (by simp [readers]))
      · exact fun same => absurd same (unknown "eraser" (by simp [readers]))
      · exact fun same => absurd same (unknown "throttle" (by simp [readers]))
    | some read =>
      obtain ⟨name, rfl, known⟩ := chosen_iff.mp known
      dsimp only
      rw [described read, readers_defined_iff known found]
      constructor
      · intro defined
        refine ⟨fun _ _ => there, ?_, ?_, ?_, ?_⟩ <;> intro same base <;> cases found.symm.trans same
        · exact ((defined base).1 rfl).1
        · exact ((defined base).1 rfl).2
        · exact (defined base).2.1 rfl
        · exact (defined base).2.2 rfl
      · intro complete base
        refine ⟨?_, ?_, ?_⟩ <;> rintro rfl
        · exact ⟨complete.operator found base, complete.valueKey found base⟩
        · exact complete.keys found base
        · exact complete.rate found base

end FiltraFactory

end M2eBridge
