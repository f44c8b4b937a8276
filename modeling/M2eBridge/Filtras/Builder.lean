import M2eBridge.ApiHelpers
import M2eBridge.Filtras.Reading
import M2eBridge.Substitutions.Environment

/-!
# The builder

`BuilderFT` makes a new payload, and extras, of templates in its configuration: every string
in a document is substituted, and the typed value of a template that is one placeholder takes
its place. The engine looks at the working copy, the metadata and the extras of the wrapper
and at the shared objects, and writes to the first and the last but one.
-/

namespace M2eBridge

/-- A `std::string` as a text; one that is not UTF-8 is shown byte by byte. -/
def stringOf (s : Bytes) : String := (textOf s).getD (SubsEngine.shown s)

/-- A half precision number as a `double`. -/
def halfToDouble (bits : UInt64) : Float :=
  let mantissa := bits.toNat % 1024
  let exponent := bits.toNat / 1024 % 32
  let magnitude : Float :=
    if exponent = 31 then if mantissa = 0 then 1 / 0 else 0 / 0
    else if exponent = 0 then (Float.ofNat mantissa).scaleB (-24)
    else (Float.ofNat (1024 + mantissa)).scaleB (exponent - 25)
  if bits.toNat / 32768 % 2 = 1 then -magnitude else magnitude

/-- `static_cast<double>` of a floating point item. -/
def doubleBits (width : CborWidth) (bits : UInt64) : UInt64 :=
  match width with
  | .w16 => (halfToDouble bits).toBits
  | .w32 => (Float32.ofBits bits.toUInt32).toFloat.toBits
  | .w8 | .w64 => bits

namespace Substituted

/-- What a string of a document is replaced by. -/
def toJson : Substituted → Json
  | .string s => .string (stringOf s)
  | .double width bits => .float (doubleBits width bits)
  | .long n => .integer n
  | .boolean b => .boolean b
  | .json j => j
  | .span data | .uchars data => .array (data.map fun b => .integer b.toNat)

/-- What a payload that is one string is replaced by. -/
def toPayload : Substituted → Except Exn Json
  | .string s => .ok (.string (stringOf s))
  | .json j => .ok j
  | _ => .error ⟨.runtimeError, "std::get: wrong index for variant"⟩

end Substituted

namespace Json

/-- `empty()`, which no scalar is. -/
def isEmpty : Json → Bool
  | .null => true
  | .array items => items.isEmpty
  | .object members => members.isEmpty
  | _ => false

/-- `items()` -/
def items : Json → List (String × Json)
  | .null => []
  | .array items => items.mapIdx fun i v => (toString i, v)
  | .object members => members
  | j => [("", j)]

end Json

namespace MessageExtra

def addExtra (e : MessageExtra) (key : String) (data : Bytes) : Except Exn Unit × MessageExtra :=
  if (e.extras.lookup key).isSome then (.error ⟨.logicError, "Extra already exist!"⟩, e)
  else (.ok (), { e with extras := e.extras ++ [(key, data)] })

/-- One after another, up to the first that is there already. -/
def addExtras : List (String × Bytes) → MessageExtra → Except Exn Unit × MessageExtra
  | [], e => (.ok (), e)
  | (key, data) :: rest, e =>
    match e.addExtra key data with
    | (.ok (), e) => addExtras rest e
    | (.error x, e) => (.error x, e)

end MessageExtra

namespace MessageWrapper

/-- `SubsEngine(MessageWrapper &)` -/
def environment (shared : Json) (w : MessageWrapper) : EnvObjects :=
  [("ATTR", .stringMap w.msg.attributes), ("EXTRA", .extra w.extra), ("META", .json w.metadata),
    ("MSG", .message w.msg), ("SHARED", .json shared)]

/-- The wrapper, its message and its extras having been used by an engine. -/
def written (w : MessageWrapper) (env : EnvObjects) : MessageWrapper :=
  { w with
    alt := match env.lookup "MSG" with
      | some (.message m) => m
      | _ => w.msg
    extra := match env.lookup "EXTRA" with
      | some (.extra e) => e
      | _ => w.extra }

end MessageWrapper

structure BuilderFT where
  payload : Json := .null
  extra : Json := .null
  deriving DecidableEq, Repr

namespace BuilderFT

def ofConfig (config : Json) : Reading BuilderFT :=
  pure { payload := (config.find? "payload").getD .null, extra := (config.find? "extra").getD .null }

section Build

-- `SubsEngine::substitute`, `none` if it does not come to its end
variable (run : Bytes → EnvObjects → Option (SubsEngine.Outcome EnvObjects))

mutual

/-- An element of a document, in `substitute`. -/
def element : Json → EnvObjects → Option (Except Exn Json × EnvObjects)
  | .string s, env => (run (bytesOf s) env).map fun out => (out.result.map Substituted.toJson, out.world)
  | .array items, env => (elements items env).map fun (result, env) => (result.map .array, env)
  | .object entries, env => (members entries env).map fun (result, env) => (result.map .object, env)
  | j, env => some (.ok j, env)

def elements : List Json → EnvObjects → Option (Except Exn (List Json) × EnvObjects)
  | [], env => some (.ok [], env)
  | j :: rest, env =>
    match element j env with
    | none => none
    | some (.error e, env) => some (.error e, env)
    | some (.ok j, env) => (elements rest env).map fun (result, env) => (result.map (j :: ·), env)

def members : List (String × Json) → EnvObjects → Option (Except Exn (List (String × Json)) × EnvObjects)
  | [], env => some (.ok [], env)
  | (key, j) :: rest, env =>
    match element j env with
    | none => none
    | some (.error e, env) => some (.error e, env)
    | some (.ok j, env) => (members rest env).map fun (result, env) => (result.map ((key, j) :: ·), env)

end

/-- `build` -/
def build (output : Json) (env : EnvObjects) : Option (Except Exn Json × EnvObjects) :=
  match output with
  | .object _ => element run output env
  | .string s => (run (bytesOf s) env).map fun out => (out.result.bind Substituted.toPayload, out.world)
  | _ => some (.error ⟨.runtimeError, "Can not build!"⟩, env)

variable (C : Codec) (shared : Json) (b : BuilderFT)

/-- The new payload takes the place of the message. -/
def replacePayload (w : MessageWrapper) : Option (Except Exn Unit × MessageWrapper) :=
  if b.payload.isEmpty then some (.ok (), w)
  else
    (build run b.payload (w.environment shared)).map fun (result, env) =>
      let w := w.written env
      match result with
      | .error e => (.error e, w)
      | .ok payload => (.ok (), w.setMessage (.ofJson payload .json w.msg.msgTopic))

def makeExtras (w : MessageWrapper) : Option (Except Exn Unit × MessageWrapper) :=
  if b.extra.isEmpty then some (.ok (), w)
  else
    (build run b.extra (w.environment shared)).map fun (result, env) =>
      let w := w.written env
      match result with
      | .error e => (.error e, w)
      | .ok extra =>
        let (result, extra) := w.extra.addExtras (extra.items.map fun (key, val) => (key, C.dump val))
        (result, { w with extra })

/-- `BuilderFT::process_message` -/
def processMessage (w : MessageWrapper) : Option (Except Exn String × MessageWrapper) :=
  match b.replacePayload run shared w with
  | none => none
  | some (.error e, w) => some (.error e, w)
  | some (.ok (), w) =>
    (b.makeExtras run C shared w).map fun (result, w) =>
      match result with
      | .error e => (.error e, w)
      | .ok () => (.ok "", w.pass)

end Build

/-! ## What building keeps -/

variable {run : Bytes → EnvObjects → Option (SubsEngine.Outcome EnvObjects)} {inv : EnvObjects → Prop}

/-- What every substitution keeps. -/
def Maintains (run : Bytes → EnvObjects → Option (SubsEngine.Outcome EnvObjects)) (inv : EnvObjects → Prop) : Prop :=
  ∀ template env out, run template env = some out → inv env → inv out.world

mutual

theorem element_keeps (keeps : Maintains run inv) :
    ∀ (j : Json) {env : EnvObjects} {result : Except Exn Json × EnvObjects}, element run j env = some result →
      inv env → inv result.2
  | .string s, env, result, built, kept => by
    rw [element] at built
    obtain ⟨out, ran, rfl⟩ := Option.map_eq_some_iff.mp built
    exact keeps _ _ _ ran kept
  | .array items, env, result, built, kept => by
    rw [element] at built
    obtain ⟨out, ran, rfl⟩ := Option.map_eq_some_iff.mp built
    exact elements_keep keeps items ran kept
  | .object entries, env, result, built, kept => by
    rw [element] at built
    obtain ⟨out, ran, rfl⟩ := Option.map_eq_some_iff.mp built
    exact members_keep keeps entries ran kept
  | .null, _, _, built, kept | .boolean _, _, _, built, kept | .integer _, _, _, built, kept
  | .float _, _, _, built, kept | .binary _, _, _, built, kept => by
    cases built
    exact kept

theorem elements_keep (keeps : Maintains run inv) :
    ∀ (items : List Json) {env : EnvObjects} {result : Except Exn (List Json) × EnvObjects},
      elements run items env = some result → inv env → inv result.2
  | [], _, _, built, kept => by
    cases built
    exact kept
  | j :: rest, env, result, built, kept => by
    rw [elements] at built
    split at built
    · cases built
    · next thrown => cases built; exact element_keeps keeps j thrown kept
    · next first =>
      obtain ⟨out, ran, rfl⟩ := Option.map_eq_some_iff.mp built
      have behind := elements_keep keeps rest ran (element_keeps keeps j first kept)
      exact behind

theorem members_keep (keeps : Maintains run inv) :
    ∀ (entries : List (String × Json)) {env : EnvObjects} {result : Except Exn (List (String × Json)) × EnvObjects},
      members run entries env = some result → inv env → inv result.2
  | [], _, _, built, kept => by
    cases built
    exact kept
  | (key, j) :: rest, env, result, built, kept => by
    rw [members] at built
    split at built
    · cases built
    · next thrown => cases built; exact element_keeps keeps j thrown kept
    · next first =>
      obtain ⟨out, ran, rfl⟩ := Option.map_eq_some_iff.mp built
      have behind := members_keep keeps rest ran (element_keeps keeps j first kept)
      exact behind

end

theorem build_keeps (keeps : Maintains run inv) {output : Json} {env : EnvObjects}
    {result : Except Exn Json × EnvObjects} (built : build run output env = some result) (kept : inv env) :
    inv result.2 := by
  cases output with
  | object entries => exact element_keeps keeps (.object entries) built kept
  | string s =>
    obtain ⟨out, ran, rfl⟩ := Option.map_eq_some_iff.mp built
    exact keeps _ _ _ ran kept
  | null | boolean | integer | float | binary | array => cases built; exact kept

end BuilderFT

end M2eBridge
