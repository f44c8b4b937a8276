import M2eBridge.Substitutions.Expression

/-!
# Paths into a payload

`MSG.PAYLOAD`, with the steps of a path behind it, and what is stored under that path in a
document or in an item. In a document the walk comes to what is stored, unless an index is
too large for an `int`. In an item it comes to it by keys, and every index is refused.
-/

namespace M2eBridge

namespace Grammar

/-- `MSG`. -/
def msgName : Identifier := ⟨[0x4d, 0x53, 0x47], rfl⟩

/-- `PAYLOAD`. -/
def payloadName : Identifier := ⟨[0x50, 0x41, 0x59, 0x4c, 0x4f, 0x41, 0x44], rfl⟩

/-- `MSG.PAYLOAD` and the steps of a path. -/
def payload (steps : List Step) : Expression :=
  { root := msgName, step := .property payloadName, steps, modifier := none }

/-- The number that the digits are read as. -/
def Digits.number (digits : Digits) : Nat := digits.val.foldl (fun n b => 10 * n + (b.toNat - 0x30)) 0

theorem stoi_digits (digits : Digits) :
    stoi digits.val =
      if digits.number < UInt32.size / 2 then .ok digits.number else .error ⟨.outOfRange, "stoi"⟩ := by
  rw [stoi, if_neg digits.property.1]
  rfl

/-- The index, if it is one, is an `int`. -/
def Step.Fits : Step → Prop
  | .property _ => True
  | .index digits => digits.number < UInt32.size / 2

instance : (step : Step) → Decidable step.Fits
  | .property _ => inferInstanceAs (Decidable True)
  | .index _ => inferInstanceAs (Decidable (_ < _))

def Step.isIndex : Step → Bool
  | .property _ => false
  | .index _ => true

end Grammar

open Grammar (Step)

/-- The part of a document that a step names. -/
def Json.child (j : Json) : Step → Option Json
  | .property key => j.find? (SubsEngine.shown key.val)
  | .index digits =>
    match j with
    | .array items => items[digits.number]?
    | _ => none

/-- What is stored in a document under the path. -/
def Json.stored (j : Json) (steps : List Step) : Option Json := steps.foldlM Json.child j

/-- The text that an item is, in one piece or in chunks. -/
def CborItem.text? : CborItem → Option Bytes
  | .string data => some data
  | .chunkedString chunks => some chunks.flatten
  | _ => none

/-- The pair of a key, which is a text. -/
def CborItem.entry (item : CborItem) (key : Bytes) : Option (CborItem × CborItem) :=
  (ObjectProxy.pairs item).find? fun pair => pair.1.text? = some key

/-- The part of an item that a step names. -/
def CborItem.child (item : CborItem) : Step → Option CborItem
  | .property key => (item.entry key.val).map Prod.snd
  | .index digits =>
    match item with
    | .array items => items[digits.number]?
    | _ => none

/-- What is stored in an item under the path. -/
def CborItem.stored (item : CborItem) (steps : List Step) : Option CborItem := steps.foldlM CborItem.child item

/-- The keys that the path names, up to an index, are in one piece. -/
def CborItem.KeysWhole : CborItem → List Step → Prop
  | _, [] => True
  | _, .index _ :: _ => True
  | item, .property key :: steps =>
    (∀ pair, item.entry key.val = some pair → pair.1 = .string key.val) ∧
      ∀ next, item.child (.property key) = some next → next.KeysWhole steps

namespace Grammar

theorem Identifier.ne_nil (key : Identifier) : key.val ≠ [] := by
  obtain ⟨_ | ⟨b, rest⟩, valid⟩ := key
  · cases valid
  · simp

/-- What is taken for the key is a text that is the key, in one piece. -/
theorem keyed_iff {key : Bytes} (nonempty : key ≠ []) (item : CborItem) :
    ObjectProxy.keyed key item = true ↔ item = .string key := by
  cases item with
  | string data => simp [ObjectProxy.keyed]
  | uint | negint | bytestring | chunkedBytestring | chunkedString | array | map | tag | float | ctrl =>
    simp [ObjectProxy.keyed, nonempty]

/-- A search finds the entry of the key where that key is in one piece. -/
theorem find_entry {entries : List (CborItem × CborItem)} (key : Identifier)
    (whole : ∀ pair, (entries.find? fun pair => pair.1.text? = some key.val) = some pair → pair.1 = .string key.val) :
    (entries.find? fun pair => ObjectProxy.keyed key.val pair.1) = entries.find? fun pair => pair.1.text? = some key.val := by
  induction entries with
  | nil => rfl
  | cons pair rest ih =>
    rw [List.find?_cons] at whole ⊢
    rw [List.find?_cons]
    by_cases named : pair.1.text? = some key.val
    · have here : pair.1 = .string key.val := whole pair (by rw [decide_eq_true named])
      rw [decide_eq_true named, (keyed_iff key.ne_nil pair.1).mpr here]
    · have other : ObjectProxy.keyed key.val pair.1 = false := by
        refine Bool.eq_false_iff.mpr fun keyed => named ?_
        rw [(keyed_iff key.ne_nil pair.1).mp keyed]
        rfl
      rw [decide_eq_false named] at whole ⊢
      rw [other]
      exact ih whole

/-- The value of a path: the payload is decoded, the steps are taken, and the value is read. -/
theorem evaluate_payload {C : Codec} {handlers : ImageHandlers} {env : EnvObjects} {m : Message} (steps : List Step)
    (bound : ObjectProxy.mapAt env "MSG" = .ok (.message m)) :
    (SubsEngine.evaluate C handlers env (payload steps).text).1 =
      ((ObjectProxy.message m).next C payloadName.val).1.bind fun obj =>
        (steps.foldlM (Step.take C) obj).bind ObjectProxy.value := by
  have name : SubsEngine.shown msgName.val = "MSG" := by decide
  have followed : follow C env msgName (.property payloadName :: steps) =
      ((ObjectProxy.message m).next C payloadName.val).1.bind (steps.foldlM (Step.take C)) := by
    rw [follow, name, bound]
    rfl
  rw [evaluate_text, Expression.value, valueAt]
  simp only [payload, followed]
  rcases ((ObjectProxy.message m).next C payloadName.val).1 with e | obj
  · rfl
  · simp only [Except.bind]
    rcases steps.foldlM (Step.take C) obj with e | leaf
    · rfl
    · simp only [bind, Except.bind]
      rcases leaf.value with e | value <;> rfl

/-- A step of a document to what it names. -/
theorem take_json {C : Codec} {j next : Json} {step : Step} (stored : j.child step = some next) :
    step.take C (.json j) = if step.Fits then .ok (.json next) else .error ⟨.outOfRange, "stoi"⟩ := by
  cases step with
  | property key =>
    have found : j.at' (SubsEngine.shown key.val) = .ok next := Json.at_eq_ok.mpr stored
    simp [Step.take, ObjectProxy.next, found, Step.Fits, Except.map]
  | index digits =>
    cases j with
    | array items =>
      have item : items[digits.number]? = some next := stored
      by_cases fits : digits.number < UInt32.size / 2
      · simp [Step.take, stoi_digits, Step.Fits, fits, Except.bind, ObjectProxy.nextIndex, Json.atIndex, item, Except.map]
      · simp [Step.take, stoi_digits, Step.Fits, fits, Except.bind]
    | null | boolean | integer | float | string | binary | object => cases stored

/-- The walk through a document. -/
theorem walk_json {C : Codec} {leaf : Json} (steps : List Step) :
    ∀ {j : Json}, j.stored steps = some leaf →
      steps.foldlM (Step.take C) (.json j) =
        if ∀ step ∈ steps, step.Fits then .ok (.json leaf) else .error ⟨.outOfRange, "stoi"⟩ := by
  induction steps with
  | nil =>
    intro j stored
    cases stored
    simp
    rfl
  | cons step steps ih =>
    intro j stored
    obtain ⟨next, here, behind⟩ := Option.bind_eq_some_iff.mp stored
    rw [List.foldlM_cons, take_json here]
    by_cases fits : step.Fits
    · rw [if_pos fits]
      exact (ih behind).trans (by simp [fits])
    · rw [if_neg fits, if_neg fun all => fits (all step List.mem_cons_self)]
      rfl

/-- A key of an item leads to what it names. -/
theorem take_cbor {C : Codec} {item next : CborItem} {key : Identifier} (stored : item.child (.property key) = some next)
    (whole : ∀ pair, item.entry key.val = some pair → pair.1 = .string key.val) :
    (Step.property key).take C (.cbor (some item)) = .ok (.cbor (some next)) := by
  obtain ⟨pair, found, rfl⟩ := Option.map_eq_some_iff.mp stored
  rw [Step.take, ObjectProxy.next, (find_entry key whole).trans found]

/-- An index is refused. -/
theorem take_cbor_index (C : Codec) (item : Option CborItem) {step : Step} (index : step.isIndex = true) :
    ∃ e, step.take C (.cbor item) = .error e := by
  cases step with
  | property => cases index
  | index digits =>
    rw [Step.take, stoi_digits]
    split
    · exact ⟨_, rfl⟩
    · exact ⟨_, rfl⟩

/-- The walk through an item. -/
theorem walk_cbor {C : Codec} {leaf : CborItem} (steps : List Step) :
    ∀ {item : CborItem}, item.stored steps = some leaf → steps.any Step.isIndex = false → item.KeysWhole steps →
      steps.foldlM (Step.take C) (.cbor (some item)) = .ok (.cbor (some leaf)) := by
  induction steps with
  | nil =>
    intro item stored _ _
    cases stored
    rfl
  | cons step steps ih =>
    intro item stored keys whole
    obtain ⟨next, here, behind⟩ := Option.bind_eq_some_iff.mp stored
    cases step with
    | index => cases keys
    | property key =>
      rw [List.foldlM_cons, take_cbor here whole.1]
      exact ih behind keys (whole.2 next here)

/-- A step by a key comes to an item, or throws. -/
theorem take_cbor_key (C : Codec) (item : Option CborItem) (key : Identifier) :
    (∃ e, (Step.property key).take C (.cbor item) = .error e) ∨
      ∃ next, (Step.property key).take C (.cbor item) = .ok (.cbor (some next)) := by
  cases item with
  | none => exact .inl ⟨_, rfl⟩
  | some item =>
    rw [Step.take, ObjectProxy.next]
    cases (ObjectProxy.pairs item).find? fun pair => ObjectProxy.keyed key.val pair.1 with
    | none => exact .inl ⟨_, rfl⟩
    | some pair => exact .inr ⟨pair.2, rfl⟩

/-- A path with an index is refused, whatever its keys lead to. -/
theorem walk_cbor_index (C : Codec) (steps : List Step) :
    ∀ item : Option CborItem, steps.any Step.isIndex = true →
      ∃ e, steps.foldlM (Step.take C) (.cbor item) = .error e := by
  induction steps with
  | nil => intro item index; cases index
  | cons step steps ih =>
    intro item index
    rw [List.foldlM_cons]
    cases step with
    | index digits =>
      obtain ⟨e, refused⟩ := take_cbor_index C item (rfl : (Step.index digits).isIndex = true)
      rw [refused]
      exact ⟨e, rfl⟩
    | property key =>
      rcases take_cbor_key C item key with ⟨e, refused⟩ | ⟨next, took⟩
      · rw [refused]
        exact ⟨e, rfl⟩
      · rw [took]
        exact ih (some next) index

end Grammar

end M2eBridge
