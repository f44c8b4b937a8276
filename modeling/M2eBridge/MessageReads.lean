import M2eBridge.Message

/-!
# Sequences of read accessors

`get_raw`, `get_json` and `get_cbor` read like observers, but each may switch
the message to another of its representations. A message is *faithful* to a
sequence of reads when the payload it denotes and the answers of `get_json` and
`get_cbor` are the same after the sequence as before. `get_cbor` marks the
decoded item as the current form although `get_raw` serialises the JSON document
only, and once a decoded form is current the other accessor hands out its own
stale one, so a message is faithful to every sequence exactly when there is
nothing in it to decode (`reads_faithful_iff`).
-/

namespace M2eBridge

namespace Message

inductive Accessor where
  | getRaw
  | getJson
  | getCbor
  deriving DecidableEq, Repr

/-- The message after the call, whether it returned or threw. -/
def Accessor.call (C : Codec) (m : Message) : Accessor → Message
  | .getRaw => (m.getRaw C).2
  | .getJson => (m.getJson C).2
  | .getCbor => (m.getCbor C).2

/-- The message after a sequence of calls. -/
def reads (C : Codec) (m : Message) (calls : List Accessor) : Message :=
  calls.foldl (Accessor.call C) m

/-- What a payload denotes, by the format it is read in. -/
inductive Document where
  | bytes (data : Bytes)
  | json (j : Json)
  | cbor (item : CborItem)
  deriving Repr

/-- Raw text decoded in a format. -/
def decode (C : Codec) (raw : Bytes) : MessageFormat → Option Document
  | .raw => some (.bytes raw)
  | .json => (C.parse raw).toOption.map .json
  | .cbor => (C.cborLoad raw).map .cbor
  | .unkn => none

/-- The document denoted by `get_raw()`: its bytes decoded in the format of the
message; `none` when it throws or the bytes do not decode. -/
def document (C : Codec) (m : Message) : Option Document :=
  match m.getRaw C with
  | (.ok raw, after) => decode C raw after.format
  | (.error _, _) => none

/-- The messages the constructors build: text of any format, or a JSON document
to be serialised as JSON or CBOR. -/
inductive Built : Message → Prop where
  | ofString (data : Bytes) (format : MessageFormat) (topic : String) :
      format ≠ .unkn → Built (.ofString data format topic)
  | ofBytes (data : Bytes) (format : MessageFormat) (topic : String) :
      format ≠ .unkn → Built (.ofBytes data format topic)
  | ofChars (data : Bytes) (n : Nat) (format : MessageFormat) :
      format ≠ .unkn → Built (.ofChars data n format)
  | ofJson (data : Json) (format : MessageFormat) (topic : String) :
      format = .json ∨ format = .cbor → Built (.ofJson data format topic)

/-- The sequence loses or replaces nothing: same denoted document, and `get_json`
and `get_cbor` answer as they would have without it. -/
structure ReadsFaithful (C : Codec) (m : Message) (calls : List Accessor) : Prop where
  document : (reads C m calls).document C = m.document C
  getJson : ((reads C m calls).getJson C).1 = (m.getJson C).1
  getCbor : ((reads C m calls).getCbor C).1 = (m.getCbor C).1

/-- Built from bytes that are neither JSON text nor a loadable CBOR item. -/
structure Opaque (C : Codec) (m : Message) : Prop where
  serialized : m.isSerialized = true
  notJson : ∃ e, C.parse m.msgRaw = .error e
  notCbor : C.cborLoad m.msgRaw = none

/-- The call finds nothing to decode and nothing to serialise. -/
def Idle (C : Codec) (m : Message) : Accessor → Prop
  | .getRaw => m.isSerialized = true
  | .getJson => m.isSerialized = true → ∃ e, C.parse m.msgRaw = .error e
  | .getCbor => m.isSerialized = true → C.cborLoad m.msgRaw = none

/-- No constructor sets the CBOR item. -/
theorem Built.decodedCbor {m : Message} (built : Built m) : m.decodedCbor = none := by
  cases built <;> rfl

/-- An idle call leaves the message as it was. -/
theorem Idle.call {C : Codec} {m : Message} {a : Accessor} (idle : Idle C m a) (noItem : m.decodedCbor = none) :
    a.call C m = m := by
  cases a with
  | getRaw => simp [Accessor.call, getRaw_serialized idle]
  | getJson =>
    cases serialized : m.isSerialized with
    | false => simp [Accessor.call, getJson_unserialized serialized]
    | true =>
      obtain ⟨e, fails⟩ := idle serialized
      simp [Accessor.call, Message.getJson, serialized, fails]
  | getCbor =>
    cases serialized : m.isSerialized with
    | false => simp [Accessor.call, getCbor_unserialized serialized]
    | true =>
      -- the failed load writes the null pointer that is there already
      have same : { m with decodedCbor := none } = m := by rw [← noItem]
      change (m.getCbor C).2 = m
      rw [Message.getCbor, if_pos serialized, idle serialized]
      exact same

theorem Idle.reads {C : Codec} {m : Message} {calls : List Accessor} (noItem : m.decodedCbor = none)
    (idle : ∀ a ∈ calls, Idle C m a) : reads C m calls = m := by
  induction calls with
  | nil => rfl
  | cons a rest ih =>
    have first : a.call C m = m := (idle a List.mem_cons_self).call noItem
    have later := ih fun b member => idle b (List.mem_cons_of_mem a member)
    simpa only [Message.reads, List.foldl_cons, first] using later

theorem Idle.faithful {C : Codec} {m : Message} {calls : List Accessor} (noItem : m.decodedCbor = none)
    (idle : ∀ a ∈ calls, Idle C m a) : ReadsFaithful C m calls := by
  constructor <;> rw [Idle.reads noItem idle]

theorem Opaque.idle {C : Codec} {m : Message} (hidden : Opaque C m) (a : Accessor) : Idle C m a := by
  cases a with
  | getRaw => exact hidden.serialized
  | getJson => exact fun _ => hidden.notJson
  | getCbor => exact fun _ => hidden.notCbor

/-- A document to be serialised: `get_cbor` returns the null pointer at first, and
after `get_raw` it loads the text or throws. -/
theorem not_faithful_unserialized {C : Codec} {m : Message} (noItem : m.decodedCbor = none)
    (unserialized : m.isSerialized = false) (format : m.format = .json ∨ m.format = .cbor) :
    ¬ ReadsFaithful C m [.getRaw] := by
  intro faithful
  have same := faithful.getCbor
  have serialized : ((m.getRaw C).2).isSerialized = true := by
    rcases format with format | format <;> simp [Message.getRaw, unserialized, format]
  simp only [reads, List.foldl_cons, List.foldl_nil, Accessor.call] at same
  rw [getCbor_unserialized unserialized, noItem, Message.getCbor, if_pos serialized] at same
  split at same <;> cases same

/-- JSON text: once `get_json` has decoded it, `get_cbor` returns the null pointer
instead of loading the text or throwing. -/
theorem not_faithful_json {C : Codec} {m : Message} {j : Json} (noItem : m.decodedCbor = none)
    (serialized : m.isSerialized = true) (parses : C.parse m.msgRaw = .ok j) :
    ¬ ReadsFaithful C m [.getJson] := by
  intro faithful
  have same := faithful.getCbor
  have decoded : (m.getJson C).2 = { m with decodedJson := j, isSerialized := false, format := .json } := by
    simp [Message.getJson, serialized, parses]
  simp only [reads, List.foldl_cons, List.foldl_nil, Accessor.call] at same
  rw [decoded, getCbor_unserialized rfl, Message.getCbor, if_pos serialized] at same
  rw [noItem] at same
  split at same <;> cases same

/-- Loadable bytes that are no JSON: once `get_cbor` has loaded them, `get_json`
returns the untouched document instead of throwing. -/
theorem not_faithful_cbor {C : Codec} {m : Message} {item : CborItem} {e : Exn}
    (serialized : m.isSerialized = true) (fails : C.parse m.msgRaw = .error e)
    (loads : C.cborLoad m.msgRaw = some item) : ¬ ReadsFaithful C m [.getCbor] := by
  intro faithful
  have same := faithful.getJson
  have decoded : (m.getCbor C).2 = { m with decodedCbor := some item, isSerialized := false } := by
    simp [Message.getCbor, serialized, loads]
  simp only [reads, List.foldl_cons, List.foldl_nil, Accessor.call] at same
  rw [decoded, getJson_unserialized rfl] at same
  simp [Message.getJson, serialized, fails] at same

theorem Opaque.of_faithful {C : Codec} {m : Message} (noItem : m.decodedCbor = none)
    (serialized : m.isSerialized = true) (faithful : ∀ calls, ReadsFaithful C m calls) : Opaque C m := by
  cases parses : C.parse m.msgRaw with
  | ok j => exact absurd (faithful _) (not_faithful_json noItem serialized parses)
  | error e =>
    cases loads : C.cborLoad m.msgRaw with
    | none => exact ⟨serialized, ⟨e, parses⟩, loads⟩
    | some item => exact absurd (faithful _) (not_faithful_cbor serialized parses loads)

/-- **Read accessors.** A built message is faithful to every sequence of reads
exactly when it was built from bytes in which there is nothing to decode; and it
is faithful to any one sequence whose calls are all idle. -/
theorem reads_faithful_iff (C : Codec) (m : Message) (built : Built m) :
    ((∀ calls, ReadsFaithful C m calls) ↔ Opaque C m) ∧
    ∀ calls, (∀ a ∈ calls, Idle C m a) → ReadsFaithful C m calls := by
  refine ⟨⟨fun faithful => ?_, fun hidden calls => Idle.faithful built.decodedCbor fun a _ => hidden.idle a⟩,
    fun calls idle => Idle.faithful built.decodedCbor idle⟩
  cases built with
  | ofString data format topic known => exact .of_faithful rfl rfl faithful
  | ofBytes data format topic known => exact .of_faithful rfl rfl faithful
  | ofChars data n format known => exact .of_faithful rfl rfl faithful
  | ofJson data format topic known => exact absurd (faithful _) (not_faithful_unserialized rfl rfl known)

/-! ## Instances -/

/-- The two libraries on the documents `null`, `false` and `true`. -/
def literalCodec : Codec where
  parse
    | [0x6e, 0x75, 0x6c, 0x6c] => .ok .null
    | [0x66, 0x61, 0x6c, 0x73, 0x65] => .ok (.boolean false)
    | [0x74, 0x72, 0x75, 0x65] => .ok (.boolean true)
    | _ => .error ⟨.jsonException, "[json.exception.parse_error.101] parse error"⟩
  dump
    | .boolean false => [0x66, 0x61, 0x6c, 0x73, 0x65]
    | .boolean true => [0x74, 0x72, 0x75, 0x65]
    | _ => [0x6e, 0x75, 0x6c, 0x6c]
  toCbor
    | .boolean false => [0xf4]
    | .boolean true => [0xf5]
    | _ => [0xf6]
  cborLoad
    | [0xf4] => some (.ctrl 20)
    | [0xf5] => some (.ctrl 21)
    | [0xf6] => some (.ctrl 22)
    | _ => none

/-- The byte `ff` is no JSON text and, being a CBOR break code, no item. -/
theorem reads_faithful_break_code :
    ReadsFaithful literalCodec (.ofString [0xff] .raw "") [.getJson, .getCbor, .getRaw] :=
  (reads_faithful_iff literalCodec _ (.ofString [0xff] .raw "" (by decide))).1.mpr ⟨rfl, ⟨_, rfl⟩, rfl⟩ _

/-- The CBOR payload `true`, once read by `get_cbor`, is serialised as CBOR `null`. -/
theorem reads_lose_cbor_payload :
    ¬ ∀ m calls, Built m → ReadsFaithful literalCodec m calls := by
  intro all
  have same := (all (.ofString [0xf5] .cbor "") [.getCbor] (.ofString _ _ _ (by decide))).document
  have before : (ofString [0xf5] .cbor "").document literalCodec = some (.cbor (.ctrl 21)) := rfl
  have after : (reads literalCodec (ofString [0xf5] .cbor "") [.getCbor]).document literalCodec =
      some (.cbor (.ctrl 22)) := rfl
  rw [before, after] at same
  simp at same

end Message

end M2eBridge
