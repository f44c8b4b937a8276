import M2eBridge.Json

/-!
# Messages

`Message` holds its payload in up to three forms: the raw text, a decoded JSON
document and a decoded CBOR item. One flag says whether the raw text or a decoded
form is the current one, and a format tag says how the raw text is to be read.
The parsers and serialisers of the two libraries are a parameter (`Codec`).

An accessor that can throw returns its outcome together with the message it
leaves: what was written before the exception stays written.
-/

namespace M2eBridge

inductive MessageFormat where
  | unkn
  | raw
  | json
  | cbor
  deriving DecidableEq, Repr

inductive CborWidth where
  | w8
  | w16
  | w32
  | w64
  deriving DecidableEq, Repr

/-- `cbor_item_t`, by major type. A negative integer item of value `v` denotes `-1 - v`. A string of
indefinite length is the list of its chunks. -/
inductive CborItem where
  | uint (width : CborWidth) (value : UInt64)
  | negint (width : CborWidth) (value : UInt64)
  | bytestring (data : Bytes)
  | chunkedBytestring (chunks : List Bytes)
  | string (data : Bytes)
  | chunkedString (chunks : List Bytes)
  | array (items : List CborItem)
  | map (pairs : List (CborItem × CborItem))
  | tag (number : UInt64) (item : CborItem)
  | float (width : CborWidth) (bits : UInt64)
  | ctrl (value : UInt8)
  deriving Repr

/-- The library calls of `Message`: `json::parse`, `json::dump`, `json::to_cbor`
and `cbor_load`, the last giving a null pointer for what it can not load. -/
structure Codec where
  parse : Bytes → Except Exn Json
  dump : Json → Bytes
  toCbor : Json → Bytes
  cborLoad : Bytes → Option CborItem

structure Message where
  isValid : Bool := false
  payloadBytes : Bytes := []
  payloadUchars : Bytes := []
  msgRaw : Bytes := []
  msgTopic : String := ""
  decodedJson : Json := .null
  /-- `none` is the null pointer. -/
  decodedCbor : Option CborItem := none
  isSerialized : Bool := false
  format : MessageFormat := .unkn
  attributes : List (String × String) := []
  deriving Repr

namespace Message

/-! ## Constructors -/

/-- `Message(string const &, Type, string const &)`. -/
def ofString (data : Bytes) (format : MessageFormat) (topic : String := "") : Message :=
  { isSerialized := true, msgRaw := data, msgTopic := topic, format := format, isValid := true }

/-- `Message(vector<std::byte> const &, Type, string const &)`: copied byte by byte. -/
def ofBytes (data : Bytes) (format : MessageFormat) (topic : String := "") : Message :=
  { isSerialized := true, msgRaw := data, msgTopic := topic, format := format, isValid := true }

/-- `Message(json const &, Type, string const &)`. -/
def ofJson (data : Json) (format : MessageFormat) (topic : String := "") : Message :=
  { isSerialized := false, decodedJson := data, msgTopic := topic, format := format, isValid := true }

/-- `Message(char const *, size_t, Type)`: the first `n` bytes behind the pointer. -/
def ofChars (data : Bytes) (n : Nat) (format : MessageFormat := .raw) : Message :=
  { isSerialized := true, msgRaw := data.take n, format := format, isValid := true }

/-- What the constructors make. -/
inductive Constructed : Message → Prop where
  | default : Constructed {}
  | ofString (data : Bytes) (format : MessageFormat) (topic : String) : Constructed (ofString data format topic)
  | ofBytes (data : Bytes) (format : MessageFormat) (topic : String) : Constructed (ofBytes data format topic)
  | ofJson (data : Json) (format : MessageFormat) (topic : String) : Constructed (ofJson data format topic)
  | ofChars (data : Bytes) (n : Nat) (format : MessageFormat) : Constructed (ofChars data n format)

/-- The copy constructor and the copy assignment: every field but the CBOR item,
which the new object does not get. -/
def copy (other : Message) : Message :=
  { other with decodedCbor := none }

/-! ## Accessors -/

def getRaw (C : Codec) (m : Message) : Except Exn Bytes × Message :=
  if m.isSerialized then (.ok m.msgRaw, m)
  else
    match m.format with
    | .json => (.ok (C.dump m.decodedJson), { m with msgRaw := C.dump m.decodedJson, isSerialized := true })
    | .cbor => (.ok (C.toCbor m.decodedJson), { m with msgRaw := C.toCbor m.decodedJson, isSerialized := true })
    | _ => (.error ⟨.runtimeError, "Unknown message format"⟩, m)

def getJson (C : Codec) (m : Message) : Except Exn Json × Message :=
  if m.isSerialized then
    match C.parse m.msgRaw with
    | .ok j => (.ok j, { m with decodedJson := j, isSerialized := false, format := .json })
    | .error e => (.error e, m)
  else (.ok m.decodedJson, m)

/-- The item is a pointer: `.ok none` is a null pointer returned without an exception. -/
def getCbor (C : Codec) (m : Message) : Except Exn (Option CborItem) × Message :=
  if m.isSerialized then
    match C.cborLoad m.msgRaw with
    | some item => (.ok (some item), { m with decodedCbor := some item, isSerialized := false })
    | none => (.error ⟨.runtimeError, "Can not deserialize CBOR payload!"⟩, { m with decodedCbor := none })
  else (.ok m.decodedCbor, m)

/-- `get_payload_byte`: the byte cache is refilled when its size differs from the raw text's. -/
def getPayloadByte (m : Message) : Bytes × Message :=
  if m.payloadBytes.length ≠ m.msgRaw.length then (m.msgRaw, { m with payloadBytes := m.msgRaw })
  else (m.payloadBytes, m)

def getPayloadUchar (m : Message) : Bytes × Message :=
  if m.payloadUchars.length ≠ m.msgRaw.length then (m.msgRaw, { m with payloadUchars := m.msgRaw })
  else (m.payloadUchars, m)

theorem getRaw_serialized {C : Codec} {m : Message} (h : m.isSerialized = true) :
    m.getRaw C = (.ok m.msgRaw, m) := by
  simp [getRaw, h]

theorem getJson_unserialized {C : Codec} {m : Message} (h : m.isSerialized = false) :
    m.getJson C = (.ok m.decodedJson, m) := by
  simp [getJson, h]

theorem getCbor_unserialized {C : Codec} {m : Message} (h : m.isSerialized = false) :
    m.getCbor C = (.ok m.decodedCbor, m) := by
  simp [getCbor, h]

/-- What no accessor touches. -/
structure SameOrigin (m m' : Message) : Prop where
  topic : m'.msgTopic = m.msgTopic
  attributes : m'.attributes = m.attributes
  isValid : m'.isValid = m.isValid

theorem getRaw_origin (C : Codec) (m : Message) : SameOrigin m (m.getRaw C).2 := by
  unfold getRaw
  split
  · exact ⟨rfl, rfl, rfl⟩
  · split <;> exact ⟨rfl, rfl, rfl⟩

theorem getJson_origin (C : Codec) (m : Message) : SameOrigin m (m.getJson C).2 := by
  unfold getJson
  split
  · split <;> exact ⟨rfl, rfl, rfl⟩
  · exact ⟨rfl, rfl, rfl⟩

theorem getCbor_origin (C : Codec) (m : Message) : SameOrigin m (m.getCbor C).2 := by
  unfold getCbor
  split
  · split <;> exact ⟨rfl, rfl, rfl⟩
  · exact ⟨rfl, rfl, rfl⟩

theorem getPayloadUchar_origin (m : Message) : SameOrigin m m.getPayloadUchar.2 := by
  unfold getPayloadUchar
  split <;> exact ⟨rfl, rfl, rfl⟩

/-- A message that is JSON stays JSON. -/
theorem getJson_format (C : Codec) {m : Message} (format : m.format = .json) : (m.getJson C).2.format = .json := by
  unfold getJson
  split
  · split
    · rfl
    · exact format
  · exact format

theorem getCbor_format (C : Codec) (m : Message) : (m.getCbor C).2.format = m.format := by
  unfold getCbor
  split
  · split <;> rfl
  · rfl

/-- The same document comes again. -/
theorem getJson_again (C : Codec) (m : Message) : ((m.getJson C).2.getJson C).1 = (m.getJson C).1 := by
  cases serialized : m.isSerialized with
  | false => rw [getJson_unserialized serialized, getJson_unserialized serialized]
  | true => cases parsed : C.parse m.msgRaw <;> simp [getJson, serialized, parsed]

theorem getCbor_again (C : Codec) (m : Message) : ((m.getCbor C).2.getCbor C).1 = (m.getCbor C).1 := by
  cases serialized : m.isSerialized with
  | false => rw [getCbor_unserialized serialized, getCbor_unserialized serialized]
  | true => cases loaded : C.cborLoad m.msgRaw <;> simp [getCbor, serialized, loaded]

/-- A copy gives the same raw text: the serialiser never reads the CBOR item. -/
theorem getRaw_copy (C : Codec) (m : Message) : (m.copy.getRaw C).1 = (m.getRaw C).1 := by
  by_cases serialized : m.isSerialized = true
  · simp [copy, getRaw, serialized]
  · cases format : m.format <;> simp [copy, getRaw, serialized, format]

end Message

end M2eBridge
