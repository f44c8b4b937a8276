import M2eBridge.MessageWrapper

/-!
# Filtras

A filtra is what its constructor reads from its configuration (`Base`) and the
two virtual functions. All that the filtras of a chain keep between calls, and
whatever else they read or write, is the world `ω`; a function that throws leaves
the wrapper and the world as they were when it did. The wrapper has no operation
that writes `orig`, and no filtra calls `add_metadata`: both are part of the
structure.
-/

namespace M2eBridge

namespace Filtra

/-- The members of `Filtra`. -/
structure Base where
  name : String
  msgFormat : MessageFormat
  logicalNegation : Bool
  queueIds : List String
  metadata : Json
  hops : String × String
  deriving DecidableEq, Repr

/-- `Filtra::Filtra`. -/
def Base.ofConfig (config : Json) : Except Exn Base := do
  let name ← config.value Json.getString "name" ""
  let msgFormat ← config.value Json.getString "msg_format" "raw"
  let msgFormat :=
    if msgFormat = "json" then MessageFormat.json else if msgFormat = "raw" then MessageFormat.raw else .unkn
  let logicalNegation ← config.value Json.getBoolean "logical_negation" false
  let queueIds ←
    match config.find? "queues" with
    | some queues => queues.elements.mapM Json.getString
    | none => pure []
  let metadata := (config.find? "metadata").getD .null
  let gotoHop ← config.value Json.getString "goto" ""
  let first ← config.value Json.getString "goto_passed" gotoHop
  let second ← config.value Json.getString "goto_rejected" gotoHop
  return { name, msgFormat, logicalNegation, queueIds, metadata, hops := (first, second) }

end Filtra

structure Filtra (ω : Type) where
  config : Json
  base : Filtra.Base
  built : Filtra.Base.ofConfig config = .ok base
  /-- The `string` is the hop; only `"self"` has a meaning to the pipeline. -/
  processMessage : ω → MessageWrapper → Except Exn String × MessageWrapper × ω
  generateMessage : ω → Except Exn Message × ω := fun world => (.ok {}, world)
  start : ω → Except Exn Unit × ω := fun world => (.ok (), world)
  keepsOrig : ∀ world w, (processMessage world w).2.1.orig = w.orig
  keepsMetadata : ∀ world w, (processMessage world w).2.1.metadata = w.metadata

namespace Filtra

variable {ω : Type}

def getName (f : Filtra ω) : String := f.base.name

def getDestinations (f : Filtra ω) : List String := f.base.queueIds

def getHops (f : Filtra ω) : String × String := f.base.hops

/-- The `metadata` of the configuration, `none` where it is left out. -/
def configured (f : Filtra ω) : Option Json := f.config.find? "metadata"

/-- A filtra without `metadata` holds a null document. -/
theorem metadata_eq (f : Filtra ω) : f.base.metadata = f.configured.getD .null := by
  obtain ⟨config, base, built, _, _, _, _, _⟩ := f
  simp only [Base.ofConfig, bind, Except.bind, pure, Except.pure] at built
  repeat' split at built
  all_goals first | cases built; done | cases built; rfl

/-- The filtra cuts messages: for some wrapper its hop is `"self"`. -/
def Splits (f : Filtra ω) : Prop := ∃ world w, (f.processMessage world w).1 = .ok "self"

/-- The filtra never touches the pass flag. -/
def KeepsFlag (f : Filtra ω) : Prop := ∀ world w, (f.processMessage world w).2.1.isPassed = w.isPassed

/-! ## Two filtras -/

/-- `NopFT`. -/
def nop (config : Json) (base : Base) (built : Base.ofConfig config = .ok base) : Filtra ω where
  config
  base
  built
  processMessage := fun world w => (.ok "", w.pass, world)
  keepsOrig := fun _ _ => rfl
  keepsMetadata := fun _ _ => rfl

/-- The filtra of `{"type": "nop"}`. -/
def plain : Filtra ω :=
  .nop (.object [("type", .string "nop")])
    { name := "", msgFormat := .raw, logicalNegation := false, queueIds := [], metadata := .null, hops := ("", "") } rfl

theorem plain_not_splits : ¬ (plain : Filtra ω).Splits := by
  rintro ⟨world, w, self⟩
  simp [plain, nop] at self

/-- `j_payload.erase(key)`, whose exception on a document that is no object is swallowed. -/
def eraseKey (j : Json) (key : String) : Json :=
  match j with
  | .object members => .object (Json.eraseMember key members)
  | j => j

/-- `EraserFT::process_message`: the keys are erased in the decoded document itself. -/
def eraseKeys (C : Codec) (base : Base) (keys : List String) (w : MessageWrapper) :
    Except Exn String × MessageWrapper :=
  if base.msgFormat = .json then
    match w.onMsg (Message.getJson C) with
    | (.ok _, w) => (.ok "", { w with alt := { w.alt with decodedJson := keys.foldl eraseKey w.alt.decodedJson } })
    | (.error e, w) => (.error e, w)
  else (.ok "", w)

/-- `EraserFT`. -/
def eraser (C : Codec) (keys : List String) (config : Json) (base : Base)
    (built : Base.ofConfig config = .ok base) : Filtra ω where
  config
  base
  built
  processMessage := fun world w => ((eraseKeys C base keys w).1, (eraseKeys C base keys w).2, world)
  keepsOrig := by
    intro world w
    have kept := MessageWrapper.onMsg_orig w (Message.getJson C)
    unfold eraseKeys
    split
    · split <;> simp_all
    · rfl
  keepsMetadata := by
    intro world w
    have kept := MessageWrapper.onMsg_metadata w (Message.getJson C)
    unfold eraseKeys
    split
    · split <;> simp_all
    · rfl

end Filtra

end M2eBridge
