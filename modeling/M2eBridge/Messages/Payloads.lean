import M2eBridge.Lib.Runs
import M2eBridge.MessageReads

/-!
# The payload as bytes

`get_payload_byte` and `get_payload_uchar` keep the bytes they return, and copy the raw text
again when its size is another. They look at the raw text only, whether it is the current
form or not. So they return what `get_raw` would exactly when the raw text is up to date,
as long as no text is written to it that has the size of a cache and differs from it
(`payloads_exact_iff`).
-/

namespace M2eBridge

namespace Message

/-- What is done with a message. -/
inductive Use where
  | getRaw
  /-- `get_json`, and an edit of the document that it returns. -/
  | editJson (edit : Json → Json)
  /-- An assignment to the reference that `get_raw` returns. -/
  | replaceRaw (text : Bytes)
  | getPayloadByte
  | getPayloadUchar
  /-- It goes on as its copy. -/
  | copy

/-- The document after an edit; nothing is edited when there is an exception. -/
def editJson (C : Codec) (edit : Json → Json) (m : Message) : Message :=
  match m.getJson C with
  | (.ok _, m) => { m with decodedJson := edit m.decodedJson }
  | (.error _, m) => m

def replaceRaw (C : Codec) (text : Bytes) (m : Message) : Message :=
  match m.getRaw C with
  | (.ok _, m) => { m with msgRaw := text }
  | (.error _, m) => m

def Use.apply (C : Codec) (m : Message) : Use → Message
  | .getRaw => (m.getRaw C).2
  | .editJson edit => m.editJson C edit
  | .replaceRaw text => m.replaceRaw C text
  | .getPayloadByte => m.getPayloadByte.2
  | .getPayloadUchar => m.getPayloadUchar.2
  | .copy => m.copy

def useStep (C : Codec) (u : Use) (m : Message) : Option Message := some (u.apply C m)

/-- Both calls return the bytes that `get_raw` would. -/
structure PayloadsExact (C : Codec) (m : Message) : Prop where
  byte : (m.getRaw C).1 = .ok m.getPayloadByte.1
  uchar : (m.getRaw C).1 = .ok m.getPayloadUchar.1

/-- `get_raw` would return the raw text as it is. -/
def Current (C : Codec) (m : Message) : Prop := (m.getRaw C).1 = .ok m.msgRaw

/-- The text can not be taken for what a cache holds. -/
def Distinct (m : Message) (text : Bytes) : Prop :=
  ∀ cache ∈ [m.payloadBytes, m.payloadUchars], cache.length = text.length → cache = text

/-- The text that becomes the raw text. -/
def Use.written (C : Codec) (m : Message) : Use → Option Bytes
  | .getRaw => if m.isSerialized then none else (m.getRaw C).1.toOption
  | .replaceRaw text => (m.getRaw C).1.toOption.map fun _ => text
  | _ => none

/-- What is written to the raw text can not be taken for what a cache holds. -/
def Refills (C : Codec) (u : Use) (m : Message) : Prop := ∀ text ∈ u.written C m, m.Distinct text

theorem distinct_iff {m : Message} {text : Bytes} :
    m.Distinct text ↔ (m.payloadBytes.length = text.length → m.payloadBytes = text) ∧
      (m.payloadUchars.length = text.length → m.payloadUchars = text) := by
  simp [Distinct]

/-- What a cache returns that can not be taken for another text. -/
theorem payloads_of_distinct {m : Message} (distinct : m.Distinct m.msgRaw) :
    m.getPayloadByte.1 = m.msgRaw ∧ m.getPayloadUchar.1 = m.msgRaw := by
  obtain ⟨byte, uchar⟩ := distinct_iff.mp distinct
  constructor
  · unfold getPayloadByte
    split
    · rfl
    · next same => exact byte (not_not.mp same)
  · unfold getPayloadUchar
    split
    · rfl
    · next same => exact uchar (not_not.mp same)

/-- A text that can be taken for another is not returned by both. -/
theorem distinct_of_payloads {m : Message} (byte : m.getPayloadByte.1 = m.msgRaw)
    (uchar : m.getPayloadUchar.1 = m.msgRaw) : m.Distinct m.msgRaw := by
  refine distinct_iff.mpr ⟨fun same => ?_, fun same => ?_⟩
  · rwa [getPayloadByte, if_neg (not_not.mpr same)] at byte
  · rwa [getPayloadUchar, if_neg (not_not.mpr same)] at uchar

theorem payloads_exact_of_distinct {C : Codec} {m : Message} (distinct : m.Distinct m.msgRaw) :
    PayloadsExact C m ↔ Current C m := by
  obtain ⟨byte, uchar⟩ := payloads_of_distinct distinct
  constructor
  · intro exact_
    rw [Current, exact_.byte, byte]
  · intro current
    exact ⟨by rw [byte]; exact current, by rw [uchar]; exact current⟩

/-! ## What a use does -/

/-- The caches and the raw text that a use leaves, when nothing is written to the text. -/
theorem Use.unwritten {C : Codec} {u : Use} {m : Message} (unwritten : u.written C m = none) :
    (u.apply C m).msgRaw = m.msgRaw ∧
      ((u.apply C m).payloadBytes = m.payloadBytes ∨ (u.apply C m).payloadBytes = m.msgRaw) ∧
      ((u.apply C m).payloadUchars = m.payloadUchars ∨ (u.apply C m).payloadUchars = m.msgRaw) := by
  cases u with
  | getRaw =>
    have kept : (m.getRaw C).2 = m := by
      cases serialized : m.isSerialized with
      | true => rw [getRaw_serialized serialized]
      | false => cases format : m.format <;> simp [written, Message.getRaw, serialized, format, Except.toOption] at unwritten ⊢
    simp [apply, kept]
  | editJson edit =>
    simp only [apply, Message.editJson, Message.getJson]
    cases m.isSerialized <;> cases C.parse m.msgRaw <;> simp
  | replaceRaw text =>
    have kept : m.replaceRaw C text = m := by
      cases serialized : m.isSerialized with
      | true => simp [written, getRaw_serialized serialized, Except.toOption] at unwritten
      | false =>
        cases format : m.format <;>
          simp [written, Message.getRaw, Message.replaceRaw, serialized, format, Except.toOption] at unwritten ⊢
    simp [apply, kept]
  | getPayloadByte =>
    simp only [apply, Message.getPayloadByte]
    split <;> simp
  | getPayloadUchar =>
    simp only [apply, Message.getPayloadUchar]
    split <;> simp
  | copy => simp [apply, Message.copy]

/-- What is written is the raw text, and the current form; the caches stay. -/
theorem Use.wrote {C : Codec} {u : Use} {m : Message} {text : Bytes} (written : u.written C m = some text) :
    (u.apply C m).msgRaw = text ∧ (u.apply C m).isSerialized = true ∧
      (u.apply C m).payloadBytes = m.payloadBytes ∧ (u.apply C m).payloadUchars = m.payloadUchars := by
  cases u with
  | getRaw =>
    cases serialized : m.isSerialized with
    | true => simp [Use.written, serialized] at written
    | false =>
      cases format : m.format <;>
        simp [Use.written, apply, Message.getRaw, serialized, format, Except.toOption] at written ⊢ <;> exact written
  | replaceRaw new =>
    cases serialized : m.isSerialized with
    | true =>
      simp [Use.written, apply, Message.getRaw, Message.replaceRaw, serialized, Except.toOption] at written ⊢
      exact written
    | false =>
      cases format : m.format <;>
        simp [Use.written, apply, Message.getRaw, Message.replaceRaw, serialized, format, Except.toOption] at written ⊢ <;>
        exact written
  | editJson | getPayloadByte | getPayloadUchar | copy => cases written

/-- The step lemma: a cache that can not be taken for the raw text stays so. -/
theorem Use.distinct {C : Codec} {u : Use} {m : Message} (distinct : m.Distinct m.msgRaw) (refills : Refills C u m) :
    (u.apply C m).Distinct (u.apply C m).msgRaw := by
  obtain ⟨byte, uchar⟩ := distinct_iff.mp distinct
  cases written : u.written C m with
  | none =>
    obtain ⟨raw, bytes, uchars⟩ := Use.unwritten written
    rw [distinct_iff, raw]
    constructor
    · rcases bytes with kept | copied
      · rw [kept]; exact byte
      · rw [copied]; exact fun _ => rfl
    · rcases uchars with kept | copied
      · rw [kept]; exact uchar
      · rw [copied]; exact fun _ => rfl
  | some text =>
    obtain ⟨raw, -, bytes, uchars⟩ := Use.wrote written
    rw [distinct_iff, raw, bytes, uchars]
    exact distinct_iff.mp (refills text written)

/-- A text that can be taken for what a cache holds is not returned. -/
theorem Use.stale {C : Codec} {u : Use} {m : Message} (stale : ¬ Refills C u m) : ¬ PayloadsExact C (u.apply C m) := by
  intro exact_
  apply stale
  intro text written
  obtain ⟨raw, serialized, bytes, uchars⟩ := Use.wrote written
  have returned := getRaw_serialized (C := C) serialized
  have byte := exact_.byte
  have uchar := exact_.uchar
  rw [returned] at byte uchar
  have distinct := distinct_of_payloads (Except.ok.inj byte).symm (Except.ok.inj uchar).symm
  rw [raw] at distinct
  exact distinct_iff.mpr (by rw [← bytes, ← uchars]; exact distinct_iff.mp distinct)

/-- The caches of a new message are empty. -/
theorem Constructed.distinct {m : Message} (constructed : m.Constructed) : m.Distinct m.msgRaw := by
  have empty : m.payloadBytes = [] ∧ m.payloadUchars = [] := by cases constructed <;> exact ⟨rfl, rfl⟩
  rw [distinct_iff, empty.1, empty.2]
  exact ⟨fun none_ => (List.length_eq_zero_iff.mp none_.symm).symm, fun none_ => (List.length_eq_zero_iff.mp none_.symm).symm⟩

/-- **The payload as bytes.** Along every sequence of uses that write to the raw text only
what can not be taken for what a cache holds, the calls return what `get_raw` would exactly
when the raw text is up to date; and behind the first use that writes such a text they do not. -/
theorem payloads_exact_iff (C : Codec) (start m : Message) (constructed : start.Constructed)
    (reached : Lib.ReachesWhen (useStep C) (Refills C) start m) :
    (PayloadsExact C m ↔ Current C m) ∧ ∀ u : Use, ¬ Refills C u m → ¬ PayloadsExact C (u.apply C m) := by
  have distinct := reached.invariant (fun m => m.Distinct m.msgRaw) constructed.distinct
    fun u m n refills distinct h => Option.some.inj h ▸ Use.distinct distinct refills
  exact ⟨payloads_exact_of_distinct distinct, fun u => Use.stale⟩

/-- The text `true`, read as bytes. -/
def readTrue : Message := (ofString [0x74, 0x72, 0x75, 0x65] .raw "").getPayloadByte.2

theorem readTrue_reached :
    Lib.ReachesWhen (useStep literalCodec) (Refills literalCodec) (ofString [0x74, 0x72, 0x75, 0x65] .raw "") readTrue :=
  .tail .refl ⟨.getPayloadByte, nofun, rfl⟩

/-- The text `false` is longer than what is kept. -/
theorem payloads_exact_longer : PayloadsExact literalCodec (readTrue.replaceRaw literalCodec [0x66, 0x61, 0x6c, 0x73, 0x65]) := by
  have refills : Refills literalCodec (.replaceRaw [0x66, 0x61, 0x6c, 0x73, 0x65]) readTrue := by
    rintro text ⟨⟩ cache member same
    simp [readTrue, ofString, getPayloadByte] at member
    rcases member with rfl | rfl <;> cases same
  exact (payloads_exact_iff literalCodec _ _ (.ofString _ _ _)
    (.tail readTrue_reached ⟨.replaceRaw [0x66, 0x61, 0x6c, 0x73, 0x65], refills, rfl⟩)).1.mpr rfl

/-- The text `null` has the length of what is kept. -/
theorem payloads_stale :
    ¬ ∀ (C : Codec) (start m : Message), start.Constructed → Lib.Reaches (useStep C) start m → PayloadsExact C m := by
  intro all
  have reached : Lib.Reaches (useStep literalCodec) (ofString [0x74, 0x72, 0x75, 0x65] .raw "")
      (readTrue.replaceRaw literalCodec [0x6e, 0x75, 0x6c, 0x6c]) :=
    .tail (.tail .refl ⟨.getPayloadByte, rfl⟩) ⟨.replaceRaw [0x6e, 0x75, 0x6c, 0x6c], rfl⟩
  have byte := (all literalCodec _ _ (.ofString _ _ _) reached).byte
  revert byte
  decide

end Message

end M2eBridge
