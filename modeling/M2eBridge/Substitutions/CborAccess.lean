import M2eBridge.Substitutions.Paths

/-!
# Accesses to CBOR items

A step into an item reads it as a map, and the keys that it searches as texts of definite
length, whatever they are; the accessors of the library are defined for the items of their own
kind only, and the handle of a string for one that is not in chunks.
`Grammar.accesses` lists what the walk along a path reads. All of it is read as what it is
exactly when each key of the path, up to an index, is looked for in a map whose keys are
such texts as far as the search goes, and no string in chunks is at the end (`accesses_typed_iff`).
-/

namespace M2eBridge

/-- A call of the library on an item. -/
inductive Access where
  /-- `cbor_map_handle`, `cbor_map_size`. -/
  | map (item : Option CborItem)
  /-- `cbor_string_handle`, `cbor_string_length`. -/
  | string (item : CborItem)
  /-- `cbor_bytestring_handle`, `cbor_bytestring_length`. -/
  | bytestring (item : CborItem)
  /-- The tests for a kind. -/
  | kind (item : Option CborItem)

/-- The call is defined for the item: a handle is that of a string of definite length. -/
def Access.Typed : Access → Prop
  | .map item => ∃ pairs, item = some (.map pairs)
  | .string item => ∃ data, item = .string data
  | .bytestring item => ∃ data, item = .bytestring data
  | .kind item => ∃ it, item = some it

namespace CborItem

def InOnePiece : CborItem → Prop
  | .chunkedBytestring _ | .chunkedString _ => False
  | _ => True

/-- A string in chunks is all of them. -/
def joined : CborItem → CborItem
  | .chunkedBytestring chunks => .bytestring chunks.flatten
  | .chunkedString chunks => .string chunks.flatten
  | item => item

theorem InOnePiece.joined {item : CborItem} (one : item.InOnePiece) : item.joined = item := by
  cases item with
  | chunkedBytestring | chunkedString => exact one.elim
  | uint | negint | bytestring | string | array | map | tag | float | ctrl => rfl

end CborItem

namespace Grammar

open ObjectProxy (pairs keyed)

/-- What the search for a key reads; behind a key that is no text nothing is defined. -/
def searchAccesses (key : Bytes) : List (CborItem × CborItem) → List Access
  | [] => []
  | (.string data, _) :: rest => .string (.string data) :: if data = key then [] else searchAccesses key rest
  | (other, _) :: _ => [.string other]

/-- What a step reads of an item. -/
def Step.accesses : ObjectProxy → Step → List Access
  | .cbor item, .property key => .map item :: ((item.map pairs).elim [] (searchAccesses key.val))
  | _, _ => []

/-- What is read for the value at the end. -/
def valueAccesses : ObjectProxy → List Access
  | .cbor (some item) =>
    .kind (some item) ::
      match item with
      | .string _ | .chunkedString _ => [.string item]
      | .bytestring _ | .chunkedBytestring _ => [.bytestring item]
      | _ => []
  | .cbor none => [.kind none]
  | _ => []

/-- What is read along a path. -/
def accesses (C : Codec) : ObjectProxy → List Step → List Access
  | obj, [] => valueAccesses obj
  | obj, step :: steps =>
    step.accesses obj ++
      match step.take C obj with
      | .ok next => accesses C next steps
      | .error _ => []

/-- The keys are texts up to the one that is looked for. -/
def TextKeys (key : Bytes) (entries : List (CborItem × CborItem)) : Prop :=
  ∀ pair ∈ entries.takeWhile fun pair => !keyed key pair.1, ∃ data, pair.1 = .string data

/-- Each key of the path, up to an index, is looked for in a map with texts for its keys, and what the keys lead to
is in one piece. -/
def Navigable : Option CborItem → List Step → Prop
  | item, [] => ∃ it, item = some it ∧ it.InOnePiece
  | _, .index _ :: _ => True
  | item, .property key :: steps =>
    ∃ entries, item = some (.map entries) ∧ TextKeys key.val entries ∧
      ∀ next, (CborItem.map entries).child (.property key) = some next → Navigable (some next) steps

theorem searchAccesses_typed_iff {key : Bytes} (nonempty : key ≠ []) (entries : List (CborItem × CborItem)) :
    (∀ a ∈ searchAccesses key entries, a.Typed) ↔ TextKeys key entries := by
  induction entries with
  | nil => simp [searchAccesses, TextKeys]
  | cons pair rest ih =>
    obtain ⟨k, v⟩ := pair
    cases k with
    | string data =>
      by_cases same : data = key
      · simp [searchAccesses, TextKeys, same, Access.Typed, keyed]
      · rw [searchAccesses, if_neg same, List.forall_mem_cons, ih]
        simp [TextKeys, keyed, same, Access.Typed]
    | uint | negint | bytestring | chunkedBytestring | chunkedString | array | map | tag | float | ctrl =>
      simp [searchAccesses, TextKeys, keyed, Access.Typed, nonempty]

/-- Among texts the entry of a key is the one that the search takes. -/
theorem TextKeys.entry {key : Bytes} (nonempty : key ≠ []) {entries : List (CborItem × CborItem)}
    (texts : TextKeys key entries) :
    ∀ pair, (CborItem.map entries).entry key = some pair → pair.1 = .string key := by
  unfold CborItem.entry
  change ∀ pair, (entries.find? fun pair => pair.1.text? = some key) = some pair → pair.1 = .string key
  induction entries with
  | nil => exact fun _ found => by cases found
  | cons pair rest ih =>
    intro found named
    by_cases here : keyed key pair.1 = true
    · have first := (keyed_iff nonempty pair.1).mp here
      have text : pair.1.text? = some key := by rw [first]; rfl
      rw [List.find?_cons_of_pos (by simpa using text)] at named
      cases named
      exact first
    · have searched : ((pair :: rest).takeWhile fun pair => !keyed key pair.1) =
          pair :: rest.takeWhile fun pair => !keyed key pair.1 := List.takeWhile_cons_of_pos (by simpa using here)
      rw [TextKeys, searched, List.forall_mem_cons] at texts
      obtain ⟨data, text⟩ := texts.1
      have other : ¬ pair.1.text? = some key := by
        rintro same
        rw [text, CborItem.text?, Option.some.injEq] at same
        exact here ((keyed_iff nonempty pair.1).mpr (same ▸ text))
      rw [List.find?_cons_of_neg (by simpa using other)] at named
      exact ih texts.2 found named

/-- Where a key leads from an item. -/
theorem take_property (C : Codec) {item : CborItem} {key : Identifier}
    (whole : ∀ pair, item.entry key.val = some pair → pair.1 = .string key.val) :
    (∃ next, item.child (.property key) = some next ∧
        Step.take C (.cbor (some item)) (.property key) = .ok (.cbor (some next))) ∨
      item.child (.property key) = none ∧ ∃ e, Step.take C (.cbor (some item)) (.property key) = .error e := by
  rw [Step.take, ObjectProxy.next, find_entry key whole, CborItem.child, CborItem.entry]
  cases (pairs item).find? fun pair => pair.1.text? = some key.val with
  | none => exact .inr ⟨rfl, _, rfl⟩
  | some pair => exact .inl ⟨pair.2, rfl, rfl⟩

theorem accesses_typed_iff (C : Codec) (steps : List Step) :
    ∀ item : Option CborItem, (∀ a ∈ accesses C (.cbor item) steps, a.Typed) ↔ Navigable item steps := by
  induction steps with
  | nil =>
    intro item
    cases item with
    | none => simp [accesses, valueAccesses, Access.Typed, Navigable]
    | some item => cases item <;> simp [accesses, valueAccesses, Access.Typed, Navigable, CborItem.InOnePiece]
  | cons step steps ih =>
    intro item
    cases step with
    | index digits =>
      obtain ⟨e, refused⟩ := take_cbor_index C item (rfl : (Step.index digits).isIndex = true)
      simp [accesses, Step.accesses, refused, Navigable]
    | property key =>
      rw [accesses, Navigable]
      cases item with
      | none => simp [Step.accesses, Access.Typed]
      | some item =>
        simp only [Step.accesses, Option.map_some, Option.elim_some, List.cons_append, List.forall_mem_cons,
          List.forall_mem_append, searchAccesses_typed_iff key.ne_nil]
        cases item with
        | map entries =>
          have isMap : (Access.map (some (.map entries))).Typed := ⟨entries, rfl⟩
          simp only [isMap, true_and, pairs, Option.some.injEq, CborItem.map.injEq, exists_eq_left']
          apply and_congr_right
          intro texts
          rcases take_property C (texts.entry key.ne_nil) with ⟨next, found, took⟩ | ⟨missing, e, thrown⟩
          · rw [took, found, ih]
            simp
          · rw [thrown, missing]
            simp
        | uint | negint | bytestring | chunkedBytestring | string | chunkedString | array | tag | float | ctrl =>
          simp [Access.Typed]

theorem navigable_property {item : CborItem} {key : Identifier} {steps : List Step}
    (navigable : Navigable (some item) (.property key :: steps)) :
    (∀ pair, item.entry key.val = some pair → pair.1 = .string key.val) ∧
      ∀ next, item.child (.property key) = some next → Navigable (some next) steps := by
  obtain ⟨entries, same, texts, behind⟩ := navigable
  cases same
  exact ⟨texts.entry key.ne_nil, behind⟩

theorem Navigable.keysWhole (steps : List Step) :
    ∀ {item : CborItem}, Navigable (some item) steps → item.KeysWhole steps := by
  induction steps with
  | nil => exact fun _ => trivial
  | cons step steps ih =>
    intro item navigable
    cases step with
    | index => trivial
    | property key =>
      obtain ⟨whole, behind⟩ := navigable_property navigable
      exact ⟨whole, fun next child => ih (behind next child)⟩

/-- What is read of the payload along a path. -/
def payloadAccesses (C : Codec) (m : Message) (steps : List Step) : List Access :=
  accesses C (.message m) (.property payloadName :: steps)

theorem payloadAccesses_typed_iff {C : Codec} {m : Message} {item : Option CborItem} {steps : List Step}
    (format : m.format = .cbor) (decoded : (m.getCbor C).1 = .ok item) :
    (∀ a ∈ payloadAccesses C m steps, a.Typed) ↔ Navigable item steps := by
  have name : SubsEngine.shown payloadName.val = "PAYLOAD" := by decide
  have first : Step.take C (.message m) (.property payloadName) = .ok (.cbor item) := by
    simp [Step.take, ObjectProxy.next, name, format, decoded, Except.map]
  have read : payloadAccesses C m steps = accesses C (.cbor item) steps := by
    rw [payloadAccesses, accesses, first]
    rfl
  rw [read, accesses_typed_iff]

/-- The library on the items `{"a": 1}`, `{"a": "x"}` and `{1: 2}`. -/
def mapCodec : Codec :=
  { Message.literalCodec with
    cborLoad := fun
      | [0xa1, 0x61, 0x61, 0x01] => some (.map [(.string [0x61], .uint .w8 1)])
      | [0xa1, 0x61, 0x61, 0x61, 0x78] => some (.map [(.string [0x61], .string [0x78])])
      | [0xa1, 0x01, 0x02] => some (.map [(.uint .w8 1, .uint .w8 2)])
      | _ => none }

/-- An environment with a message only. -/
def messageEnv (m : Message) : EnvObjects := [("MSG", .message m)]

/-- The step `.a`. -/
def stepA : Step := .property ⟨[0x61], rfl⟩

theorem navigable_text_key : Navigable (some (.map [(.string [0x61], .uint .w8 1)])) [stepA] := by
  refine ⟨_, rfl, ?_, ?_⟩
  · simp [TextKeys, keyed]
  · rintro next ⟨⟩
    exact ⟨_, rfl, trivial⟩

end Grammar

end M2eBridge
