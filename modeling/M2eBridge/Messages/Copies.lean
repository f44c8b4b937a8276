import M2eBridge.MessageReads
import M2eBridge.Substitutions.Objects

/-!
# Copies, moves and assignments

The four members that make one message of another take over every field but the CBOR
item: a new message has none, and one that is assigned to keeps its own. What a message
answers depends on its item once a decoded form is the current one, so the result answers
like its source exactly when it has the same item, or the text of the source is current
and can not be decoded as JSON (`transfer_answers_iff`).
-/

namespace M2eBridge

/-- A `Message` with the topic levels that it keeps. -/
structure MessageObject extends Message where
  topicLevels : List String := []

namespace MessageObject

/-! ## Accessors -/

inductive Call where
  | getRaw
  | getJson
  | getCbor
  | getTopicLevels
  | getAttributes
  deriving DecidableEq, Repr

inductive Answer where
  | raw (text : Except Exn Bytes)
  | json (j : Except Exn Json)
  /-- The item that the pointer points to, `none` for the null pointer. -/
  | cbor (item : Except Exn (Option CborItem))
  | topicLevels (levels : List String)
  | attributes (attrs : List (String × String))

/-- `get_topic_levels`, which splits the topic once. -/
def getTopicLevels (m : MessageObject) : List String × MessageObject :=
  if m.topicLevels.length = 0 then
    (m.toMessage.getTopicLevels, { m with topicLevels := m.toMessage.getTopicLevels })
  else (m.topicLevels, m)

def call (C : Codec) (m : MessageObject) : Call → Answer × MessageObject
  | .getRaw => (.raw (m.toMessage.getRaw C).1, { m with toMessage := (m.toMessage.getRaw C).2 })
  | .getJson => (.json (m.toMessage.getJson C).1, { m with toMessage := (m.toMessage.getJson C).2 })
  | .getCbor => (.cbor (m.toMessage.getCbor C).1, { m with toMessage := (m.toMessage.getCbor C).2 })
  | .getTopicLevels => (.topicLevels m.getTopicLevels.1, m.getTopicLevels.2)
  | .getAttributes => (.attributes m.attributes, m)

/-- What a sequence of calls is answered. -/
def answers (C : Codec) : MessageObject → List Call → List Answer
  | _, [] => []
  | m, c :: calls => (m.call C c).1 :: answers C (m.call C c).2 calls

/-- The constructors, and the calls that a message is read with. -/
inductive Reachable (C : Codec) : MessageObject → Prop where
  | constructed {msg : Message} (built : msg.Constructed) : Reachable C { toMessage := msg }
  | call {m : MessageObject} (c : Call) : Reachable C m → Reachable C (m.call C c).2
  | payloadByte {m : MessageObject} : Reachable C m → Reachable C { m with toMessage := m.getPayloadByte.2 }
  | payloadUchar {m : MessageObject} : Reachable C m → Reachable C { m with toMessage := m.getPayloadUchar.2 }

/-! ## The four members -/

/-- The fields that each of the members writes. -/
def take (self other : MessageObject) : MessageObject :=
  { self with
    msgRaw := other.msgRaw
    payloadBytes := other.payloadBytes
    payloadUchars := other.payloadUchars
    topicLevels := other.topicLevels
    isSerialized := other.isSerialized
    decodedJson := other.decodedJson
    attributes := other.attributes
    msgTopic := other.msgTopic
    format := other.format
    isValid := other.isValid }

/-- `Message(Message const &)`. -/
def copyConstruct (other : MessageObject) : MessageObject := take {} other

/-- `operator=(Message const &)`, the two being different objects. -/
def copyAssign (self other : MessageObject) : MessageObject := take self other

/-- `Message(Message &&)`. -/
def moveConstruct (other : MessageObject) : MessageObject := take {} other

/-- `operator=(Message &&)`, the two being different objects. -/
def moveAssign (self other : MessageObject) : MessageObject := take self other

inductive Transfer where
  | copyConstruct
  | copyAssign (self : MessageObject)
  | moveConstruct
  | moveAssign (self : MessageObject)

/-- What becomes of the source. -/
def Transfer.result (m : MessageObject) : Transfer → MessageObject
  | .copyConstruct => MessageObject.copyConstruct m
  | .copyAssign self => self.copyAssign m
  | .moveConstruct => MessageObject.moveConstruct m
  | .moveAssign self => self.moveAssign m

/-- The item of the destination. -/
def Transfer.item : Transfer → Option CborItem
  | .copyConstruct | .moveConstruct => none
  | .copyAssign self | .moveAssign self => self.decodedCbor

theorem Transfer.result_eq (t : Transfer) (m : MessageObject) : t.result m = { m with decodedCbor := t.item } := by
  cases t <;> rfl

/-! ## Answers -/

/-- The text is the current form, and it is no JSON. -/
structure Undecodable (C : Codec) (m : MessageObject) : Prop where
  serialized : m.isSerialized = true
  notJson : ∃ e, C.parse m.msgRaw = .error e

/-- The message with another item. -/
def withItem (m : MessageObject) (item : Option CborItem) : MessageObject := { m with decodedCbor := item }

/-- Text that is no JSON is answered from alike whatever item there is. A load makes the items
the same, and every other call leaves the text. -/
theorem Undecodable.call {C : Codec} {m : MessageObject} (undecodable : Undecodable C m) (item : Option CborItem)
    (c : Call) :
    ((m.withItem item).call C c).1 = (m.call C c).1 ∧
      (((m.withItem item).call C c).2 = (m.call C c).2 ∨
        Undecodable C (m.call C c).2 ∧ ((m.withItem item).call C c).2 = (m.call C c).2.withItem item) := by
  have ⟨serialized, e, fails⟩ := undecodable
  cases c with
  | getRaw =>
    have left : (m.call C .getRaw).2 = m := by simp [MessageObject.call, Message.getRaw, serialized]
    have right : (m.withItem item).call C .getRaw = (.raw (.ok m.msgRaw), m.withItem item) := by
      simp [MessageObject.call, Message.getRaw, withItem, serialized]
    rw [left, right]
    exact ⟨by simp [MessageObject.call, Message.getRaw, serialized], .inr ⟨undecodable, rfl⟩⟩
  | getJson =>
    have left : (m.call C .getJson).2 = m := by simp [MessageObject.call, Message.getJson, serialized, fails]
    have right : (m.withItem item).call C .getJson = (.json (.error e), m.withItem item) := by
      simp [MessageObject.call, Message.getJson, withItem, serialized, fails]
    rw [left, right]
    exact ⟨by simp [MessageObject.call, Message.getJson, serialized, fails], .inr ⟨undecodable, rfl⟩⟩
  | getCbor =>
    cases loaded : C.cborLoad m.msgRaw <;>
      simp [MessageObject.call, Message.getCbor, withItem, serialized, loaded]
  | getTopicLevels =>
    by_cases unsplit : m.topicLevels.length = 0
    · refine ⟨?_, .inr ⟨?_, ?_⟩⟩
      · simp [MessageObject.call, getTopicLevels, Message.getTopicLevels, withItem, unsplit]
      · simp only [MessageObject.call, getTopicLevels, if_pos unsplit]
        exact ⟨serialized, e, fails⟩
      · simp [MessageObject.call, getTopicLevels, Message.getTopicLevels, withItem, unsplit]
    · refine ⟨?_, .inr ⟨?_, ?_⟩⟩
      · simp [MessageObject.call, getTopicLevels, withItem, unsplit]
      · simp only [MessageObject.call, getTopicLevels, if_neg unsplit]
        exact undecodable
      · simp [MessageObject.call, getTopicLevels, withItem, unsplit]
  | getAttributes => exact ⟨rfl, .inr ⟨undecodable, rfl⟩⟩

/-- A whole sequence of calls, until a load and behind it. -/
theorem Undecodable.answers {C : Codec} {m : MessageObject} (undecodable : Undecodable C m) (item : Option CborItem)
    (calls : List Call) : (m.withItem item).answers C calls = m.answers C calls := by
  induction calls generalizing m with
  | nil => rfl
  | cons c calls ih =>
    obtain ⟨same, left | ⟨still, left⟩⟩ := undecodable.call item c
    · rw [MessageObject.answers, MessageObject.answers, same, left]
    · rw [MessageObject.answers, MessageObject.answers, same, left, ih still]

/-- A decoded form that is current: the item is handed out as it is. -/
theorem getCbor_decoded {C : Codec} {m : MessageObject} (decoded : m.isSerialized = false) :
    m.answers C [.getCbor] = [.cbor (.ok m.decodedCbor)] := by
  simp [answers, call, Message.getCbor_unserialized decoded]

/-- Text that is JSON: the document becomes current, and the item that there was is handed out. -/
theorem getCbor_behind_getJson {C : Codec} {m : MessageObject} {j : Json} (serialized : m.isSerialized = true)
    (parses : C.parse m.msgRaw = .ok j) :
    m.answers C [.getJson, .getCbor] = [.json (.ok j), .cbor (.ok m.decodedCbor)] := by
  simp [answers, call, Message.getJson, Message.getCbor, serialized, parses]

/-- **Copies.** What a copy, a move or an assignment makes of a message answers every
sequence of calls as the message would have, exactly when the destination has its item, or
its text is current and is no JSON. -/
theorem transfer_answers_iff (C : Codec) (t : Transfer) (m : MessageObject) :
    (∀ calls, (t.result m).answers C calls = m.answers C calls) ↔
      t.item = m.decodedCbor ∨ m.isSerialized = true ∧ ∃ e, C.parse m.msgRaw = .error e := by
  have result : t.result m = m.withItem t.item := t.result_eq m
  rw [result]
  constructor
  · intro same
    cases serialized : m.isSerialized with
    | false =>
      have answer := same [.getCbor]
      rw [getCbor_decoded serialized, getCbor_decoded (m := m.withItem t.item) serialized] at answer
      simp only [List.cons.injEq, Answer.cbor.injEq, Except.ok.injEq, and_true] at answer
      exact .inl answer
    | true =>
      cases parses : C.parse m.msgRaw with
      | error e => exact .inr ⟨rfl, e, rfl⟩
      | ok j =>
        have answer := same [.getJson, .getCbor]
        rw [getCbor_behind_getJson serialized parses,
          getCbor_behind_getJson (m := m.withItem t.item) serialized parses] at answer
        simp only [List.cons.injEq, Answer.cbor.injEq, Except.ok.injEq, and_true, true_and] at answer
        exact .inl answer
  · rintro (item | ⟨serialized, fails⟩) calls
    · rw [item]
      rfl
    · exact Undecodable.answers ⟨serialized, fails⟩ t.item calls

/-- The CBOR payload `true`, read once, and then a copy of it: there is no item. -/
theorem copy_loses_item :
    ¬ ∀ (C : Codec) (m : MessageObject) (t : Transfer), Reachable C m →
      ∀ calls, (t.result m).answers C calls = m.answers C calls := by
  intro all
  let m : MessageObject := { toMessage := .ofString [0xf5] .cbor "" }
  have reachable : Reachable Message.literalCodec (m.call Message.literalCodec .getCbor).2 :=
    .call .getCbor (.constructed (.ofString [0xf5] .cbor ""))
  have same := all Message.literalCodec _ .copyConstruct reachable [.getCbor]
  have copied : (Transfer.result (m.call Message.literalCodec .getCbor).2 .copyConstruct).answers Message.literalCodec
      [.getCbor] = [.cbor (.ok none)] := rfl
  have original : (m.call Message.literalCodec .getCbor).2.answers Message.literalCodec [.getCbor] =
      [.cbor (.ok (some (.ctrl 21)))] := rfl
  rw [copied, original] at same
  simp at same

end MessageObject

end M2eBridge
