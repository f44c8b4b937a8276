import M2eBridge.Messages.Copies
import M2eBridge.Messages.Payloads
import Mathlib.Logic.Encodable.Basic
import Mathlib.Logic.Equiv.List

/-!
# One document behind two forms

A message with a JSON payload holds it as text or as a document, and the other form is
whatever was left there. However the messages of a pool are read, edited, rewritten, copied,
moved and assigned, each of them is simulated by one document: the text parses to it,
`get_json` returns it, and where the text is no JSON, `get_json` throws what the parser
throws and leaves the message as it was (`documents_simulated`).
-/

namespace M2eBridge

/-- Messages by the variables that hold them; `none` where there is none, or it was moved from. -/
abbrev Pool := Nat → Option MessageObject

inductive PoolAction where
  | editJson (i : Nat) (edit : Json → Json)
  | getRaw (i : Nat)
  | replaceRaw (i : Nat) (text : Bytes)
  | copyConstruct (i source : Nat)
  | moveConstruct (i source : Nat)
  | copyAssign (i source : Nat)
  | moveAssign (i source : Nat)

namespace Pool

/-- The message of the variable after a call. -/
def change {α : Type} (pool : Nat → Option α) (i : Nat) (f : α → α) : Option (Nat → Option α) :=
  (pool i).map fun x => Function.update pool i (some (f x))

/-- A new variable with what is made of the source. -/
def construct {α : Type} (pool : Nat → Option α) (i source : Nat) (f : α → α) (moves : Bool) : Option (Nat → Option α) :=
  if i = source then none
  else (pool source).map fun x =>
    Function.update (if moves then Function.update pool source none else pool) i (some (f x))

/-- An assignment between two variables, which does nothing when they are one. -/
def assign {α : Type} (pool : Nat → Option α) (i source : Nat) (f : α → α → α) (moves : Bool) :
    Option (Nat → Option α) :=
  (pool i).bind fun self => (pool source).map fun other =>
    if i = source then pool
    else Function.update (if moves then Function.update pool source none else pool) i (some (f self other))

def step (C : Codec) (a : PoolAction) (pool : Pool) : Option Pool :=
  match a with
  | .editJson i edit => change pool i fun m => { m with toMessage := m.toMessage.editJson C edit }
  | .getRaw i => change pool i fun m => { m with toMessage := (m.toMessage.getRaw C).2 }
  | .replaceRaw i text => change pool i fun m => { m with toMessage := m.toMessage.replaceRaw C text }
  | .copyConstruct i source => construct pool i source MessageObject.copyConstruct false
  | .moveConstruct i source => construct pool i source MessageObject.moveConstruct true
  | .copyAssign i source => assign pool i source MessageObject.copyAssign false
  | .moveAssign i source => assign pool i source MessageObject.moveAssign true

/-! ## Documents -/

/-- A document, or what the parser throws on a text that is none. -/
abbrev Doc := Except Exn Json

/-- The same actions on documents: an edit edits, a text is parsed, and a message is its document. -/
def docStep (C : Codec) (a : PoolAction) (docs : Nat → Option Doc) : Option (Nat → Option Doc) :=
  match a with
  | .editJson i edit => change docs i (Except.map edit)
  | .getRaw i => change docs i id
  | .replaceRaw i text => change docs i fun _ => C.parse text
  | .copyConstruct i source => construct docs i source id false
  | .moveConstruct i source => construct docs i source id true
  | .copyAssign i source => assign docs i source (fun _ other => other) false
  | .moveAssign i source => assign docs i source (fun _ other => other) true

/-- The document that a message stands for, by its current form. -/
def docOf (C : Codec) (m : MessageObject) : Doc := if m.isSerialized then C.parse m.msgRaw else .ok m.decodedJson

def docsOf (C : Codec) (pool : Pool) (i : Nat) : Option Doc := (pool i).map (docOf C)

/-- A document is the current form of messages with the JSON format only. -/
def Consistent (m : MessageObject) : Prop := m.isSerialized = false → m.format = .json

/-- The payload is well-formed JSON text, or a JSON value. -/
def JsonMessage (C : Codec) (m : MessageObject) : Prop :=
  m.isSerialized = true ∧ (∃ j, C.parse m.msgRaw = .ok j) ∨ m.isSerialized = false ∧ m.format = .json

/-- The message is read as the document. -/
structure ReadsAs (C : Codec) (m : MessageObject) (doc : Doc) : Prop where
  raw : ∃ text, (m.toMessage.getRaw C).1 = .ok text ∧ C.parse text = doc
  json : (m.toMessage.getJson C).1 = doc
  kept : ∀ e, doc = .error e → (m.toMessage.getJson C).2 = m.toMessage

theorem JsonMessage.consistent {C : Codec} {m : MessageObject} (json : JsonMessage C m) : Consistent m := by
  rintro decoded
  rcases json with ⟨serialized, -⟩ | ⟨-, format⟩
  · rw [decoded] at serialized; cases serialized
  · exact format

/-! ## One message -/

theorem Consistent.readsAs {C : Codec} (roundTrip : ∀ j, C.parse (C.dump j) = .ok j) {m : MessageObject}
    (consistent : Consistent m) : ReadsAs C m (docOf C m) := by
  unfold docOf
  cases serialized : m.isSerialized with
  | true =>
    rw [if_pos rfl]
    refine ⟨⟨m.msgRaw, by rw [Message.getRaw_serialized serialized], rfl⟩, ?_, fun e fails => ?_⟩
    · cases parsed : C.parse m.msgRaw <;> simp [Message.getJson, serialized, parsed]
    · simp [Message.getJson, serialized, fails]
  | false =>
    have format := consistent serialized
    refine ⟨⟨C.dump m.decodedJson, by simp [Message.getRaw, serialized, format], roundTrip _⟩, ?_, ?_⟩
    · rw [Message.getJson_unserialized serialized]
      rfl
    · intro e fails
      cases fails

/-- Serialising leaves the document. -/
theorem Consistent.getRaw {C : Codec} (roundTrip : ∀ j, C.parse (C.dump j) = .ok j) {m : MessageObject}
    (consistent : Consistent m) :
    Consistent { m with toMessage := (m.toMessage.getRaw C).2 } ∧
      docOf C { m with toMessage := (m.toMessage.getRaw C).2 } = docOf C m := by
  cases serialized : m.isSerialized with
  | true => rw [Message.getRaw_serialized serialized]; exact ⟨consistent, rfl⟩
  | false =>
    have format := consistent serialized
    have left : (m.toMessage.getRaw C).2 = { m.toMessage with msgRaw := C.dump m.decodedJson, isSerialized := true } := by
      simp [Message.getRaw, serialized, format]
    rw [left]
    refine ⟨?_, by simp [docOf, serialized, roundTrip]⟩
    intro unserialized
    cases unserialized

/-- An edit edits the document, or finds none. -/
theorem Consistent.editJson {C : Codec} {m : MessageObject} (consistent : Consistent m) (edit : Json → Json) :
    Consistent { m with toMessage := m.toMessage.editJson C edit } ∧
      docOf C { m with toMessage := m.toMessage.editJson C edit } = (docOf C m).map edit := by
  cases serialized : m.isSerialized with
  | true =>
    cases parsed : C.parse m.msgRaw with
    | ok j =>
      have left : m.toMessage.editJson C edit =
          { m.toMessage with decodedJson := edit j, isSerialized := false, format := .json } := by
        simp [Message.editJson, Message.getJson, serialized, parsed]
      rw [left]
      exact ⟨fun _ => rfl, by simp [docOf, serialized, parsed, Except.map]⟩
    | error e =>
      have left : m.toMessage.editJson C edit = m.toMessage := by
        simp [Message.editJson, Message.getJson, serialized, parsed]
      rw [left]
      exact ⟨consistent, by simp [docOf, serialized, parsed, Except.map]⟩
  | false =>
    have left : m.toMessage.editJson C edit = { m.toMessage with decodedJson := edit m.decodedJson } := by
      simp [Message.editJson, Message.getJson, serialized]
    rw [left]
    exact ⟨consistent, by simp [docOf, serialized, Except.map]⟩

/-- A text that replaces another is what the message stands for. -/
theorem Consistent.replaceRaw {C : Codec} {m : MessageObject} (consistent : Consistent m) (text : Bytes) :
    Consistent { m with toMessage := m.toMessage.replaceRaw C text } ∧
      docOf C { m with toMessage := m.toMessage.replaceRaw C text } = C.parse text := by
  have left : (m.toMessage.replaceRaw C text).isSerialized = true ∧ (m.toMessage.replaceRaw C text).msgRaw = text := by
    cases serialized : m.isSerialized with
    | true => simp [Message.replaceRaw, Message.getRaw, serialized]
    | false => simp [Message.replaceRaw, Message.getRaw, serialized, consistent serialized]
  refine ⟨fun decoded => ?_, ?_⟩
  · rw [show (m.toMessage.replaceRaw C text).isSerialized = false from decoded] at left
    cases left.1
  · simp [docOf, left]

/-! ## Pools -/

/-- One pool stands for another, entry by entry, and its entries are good. -/
structure Simulates {α β : Type} (good : α → Prop) (abs : α → β) (pool : Nat → Option α) (docs : Nat → Option β) :
    Prop where
  good : ∀ i x, pool i = some x → good x
  same : ∀ i, docs i = (pool i).map abs

section Pools

variable {α β : Type} {good : α → Prop} {abs : α → β} {pool pool' : Nat → Option α} {docs : Nat → Option β}

/-- A good entry is put into the pool, and what it stands for into the other one. -/
theorem Simulates.update (sim : Simulates good abs pool docs) (i : Nat) {x : α} (isGood : good x) :
    Simulates good abs (Function.update pool i (some x)) (Function.update docs i (some (abs x))) := by
  constructor
  · intro k y found
    by_cases here : k = i
    · subst here
      rw [Function.update_self] at found
      exact Option.some.inj found ▸ isGood
    · rw [Function.update_of_ne here] at found
      exact sim.good k y found
  · intro k
    by_cases here : k = i
    · subst here
      rw [Function.update_self, Function.update_self, Option.map_some]
    · rw [Function.update_of_ne here, Function.update_of_ne here]
      exact sim.same k

/-- A source that is moved from is gone in both. -/
theorem Simulates.moveOut (sim : Simulates good abs pool docs) (source : Nat) (moves : Bool) :
    Simulates good abs (if moves then Function.update pool source none else pool)
      (if moves then Function.update docs source none else docs) := by
  cases moves with
  | false => exact sim
  | true =>
    constructor
    · intro k y found
      by_cases here : k = source
      · subst here
        simp at found
      · rw [if_pos rfl, Function.update_of_ne here] at found
        exact sim.good k y found
    · intro k
      by_cases here : k = source
      · subst here
        simp
      · rw [if_pos rfl, if_pos rfl, Function.update_of_ne here, Function.update_of_ne here]
        exact sim.same k

theorem Simulates.change (sim : Simulates good abs pool docs) {i : Nat} {f : α → α} {g : β → β}
    (keeps : ∀ x, good x → good (f x) ∧ abs (f x) = g (abs x)) (h : Pool.change pool i f = some pool') :
    ∃ docs', Pool.change docs i g = some docs' ∧ Simulates good abs pool' docs' := by
  obtain ⟨x, found, rfl⟩ := Option.map_eq_some_iff.mp h
  obtain ⟨isGood, stands⟩ := keeps x (sim.good i x found)
  refine ⟨Function.update docs i (some (g (abs x))), ?_, ?_⟩
  · rw [Pool.change, sim.same i, found]
    rfl
  · rw [← stands]
    exact sim.update i isGood

theorem Simulates.construct (sim : Simulates good abs pool docs) {i source : Nat} {f : α → α} {moves : Bool}
    (keeps : ∀ x, good x → good (f x) ∧ abs (f x) = abs x) (h : Pool.construct pool i source f moves = some pool') :
    ∃ docs', Pool.construct docs i source id moves = some docs' ∧ Simulates good abs pool' docs' := by
  unfold Pool.construct at h ⊢
  split at h
  · cases h
  · next different =>
    obtain ⟨x, found, rfl⟩ := Option.map_eq_some_iff.mp h
    obtain ⟨isGood, stands⟩ := keeps x (sim.good source x found)
    refine ⟨_, ?_, (sim.moveOut source moves).update i isGood⟩
    rw [if_neg different, sim.same source, found, stands]
    rfl

theorem Simulates.assign (sim : Simulates good abs pool docs) {i source : Nat} {f : α → α → α} {moves : Bool}
    (keeps : ∀ self x, good x → good (f self x) ∧ abs (f self x) = abs x)
    (h : Pool.assign pool i source f moves = some pool') :
    ∃ docs', Pool.assign docs i source (fun _ other => other) moves = some docs' ∧ Simulates good abs pool' docs' := by
  obtain ⟨self, here, h⟩ := Option.bind_eq_some_iff.mp h
  obtain ⟨x, found, rfl⟩ := Option.map_eq_some_iff.mp h
  obtain ⟨isGood, stands⟩ := keeps self x (sim.good source x found)
  refine ⟨_, by rw [Pool.assign, sim.same i, here, sim.same source, found]; rfl, ?_⟩
  split
  · exact sim
  · rw [← stands]
    exact (sim.moveOut source moves).update i isGood

end Pools

/-- What is taken over has the forms of its source. -/
theorem Consistent.take {C : Codec} (self : MessageObject) {m : MessageObject} (consistent : Consistent m) :
    Consistent (self.take m) ∧ docOf C (self.take m) = docOf C m := ⟨consistent, rfl⟩

/-- The step lemma. -/
theorem Simulates.step {C : Codec} (roundTrip : ∀ j, C.parse (C.dump j) = .ok j) {a : PoolAction} {pool pool' : Pool}
    {docs : Nat → Option Doc} (sim : Simulates Consistent (docOf C) pool docs) (h : Pool.step C a pool = some pool') :
    ∃ docs', docStep C a docs = some docs' ∧ Simulates Consistent (docOf C) pool' docs' := by
  cases a with
  | editJson i edit => exact sim.change (fun m consistent => consistent.editJson edit) h
  | getRaw i => exact sim.change (fun m consistent => consistent.getRaw roundTrip) h
  | replaceRaw i text => exact sim.change (fun m consistent => consistent.replaceRaw text) h
  | copyConstruct i source => exact sim.construct (fun m consistent => consistent.take {}) h
  | moveConstruct i source => exact sim.construct (fun m consistent => consistent.take {}) h
  | copyAssign i source => exact sim.assign (fun self m consistent => consistent.take self) h
  | moveAssign i source => exact sim.assign (fun self m consistent => consistent.take self) h

/-- The run. -/
theorem Simulates.exec {C : Codec} (roundTrip : ∀ j, C.parse (C.dump j) = .ok j) (actions : List PoolAction)
    {pool pool' : Pool} {docs : Nat → Option Doc} (sim : Simulates Consistent (docOf C) pool docs)
    (ran : Lib.exec (Pool.step C) actions pool = some pool') :
    ∃ docs', Lib.exec (docStep C) actions docs = some docs' ∧ Simulates Consistent (docOf C) pool' docs' := by
  induction actions generalizing pool docs with
  | nil => exact ⟨docs, rfl, Option.some.inj ran ▸ sim⟩
  | cons a actions ih =>
    obtain ⟨next, first, later⟩ := Option.bind_eq_some_iff.mp ran
    obtain ⟨docs', stepped, sim'⟩ := sim.step roundTrip first
    obtain ⟨docs'', ran', sim''⟩ := ih sim' later
    exact ⟨docs'', by rw [Lib.exec, stepped]; exact ran', sim''⟩

/-- **One document.** The messages of a pool that begin as well-formed JSON text or as JSON
values are read, after any actions, as the documents on which the same actions were performed. -/
theorem documents_simulated (C : Codec) (roundTrip : ∀ j, C.parse (C.dump j) = .ok j) (pool pool' : Pool)
    (json : ∀ i m, pool i = some m → JsonMessage C m) (actions : List PoolAction)
    (ran : Lib.exec (Pool.step C) actions pool = some pool') :
    ∃ docs, Lib.exec (docStep C) actions (docsOf C pool) = some docs ∧
      ∀ i m, pool' i = some m → ∃ doc, docs i = some doc ∧ ReadsAs C m doc := by
  have sim : Simulates Consistent (docOf C) pool (docsOf C pool) := ⟨fun i m found => (json i m found).consistent, fun _ => rfl⟩
  obtain ⟨docs, ran', sim'⟩ := sim.exec roundTrip actions ran
  refine ⟨docs, ran', fun i m found => ⟨docOf C m, ?_, (sim'.good i m found).readsAs roundTrip⟩⟩
  rw [sim'.same i, found]
  rfl

/-! ## An instance -/

mutual

/-- A document as numbers, each value behind the number of its kind. -/
def tokens : Json → List Nat
  | .null => [0]
  | .boolean b => [1, Encodable.encode b]
  | .integer n => [2, Encodable.encode n]
  | .float bits => [3, bits.toNat]
  | .string s => [4, Encodable.encode (s.toList.map Char.toNat)]
  | .binary data => [5, Encodable.encode (data.map UInt8.toNat)]
  | .array items => 6 :: itemTokens items
  | .object members => 7 :: memberTokens members

def itemTokens : List Json → List Nat
  | [] => [0]
  | j :: rest => 1 :: (tokens j ++ itemTokens rest)

def memberTokens : List (String × Json) → List Nat
  | [] => [0]
  | (key, j) :: rest => 1 :: Encodable.encode (key.toList.map Char.toNat) :: (tokens j ++ memberTokens rest)

end

theorem encode_string_inj {s t : String}
    (same : Encodable.encode (s.toList.map Char.toNat) = Encodable.encode (t.toList.map Char.toNat)) : s = t := by
  have lists := Encodable.encode_injective same
  have chars := (List.map_injective_iff.mpr fun a b h => Char.toNat_inj.mp h) lists
  exact String.toList_inj.mp chars

mutual

/-- The numbers of a document tell where they end. -/
theorem tokens_inj : ∀ (a b : Json) (r r' : List Nat), tokens a ++ r = tokens b ++ r' → a = b ∧ r = r'
  | .null, b, r, r', h => by
    cases b <;> simp [tokens] at h ⊢
    exact h
  | .boolean x, b, r, r', h => by
    cases b <;> simp [tokens] at h ⊢
    exact h
  | .integer x, b, r, r', h => by
    cases b <;> simp [tokens] at h ⊢
    exact h
  | .float x, b, r, r', h => by
    cases b <;> simp [tokens] at h ⊢
    exact ⟨UInt64.toNat_inj.mp h.1, h.2⟩
  | .string x, b, r, r', h => by
    cases b <;> simp [tokens, -Encodable.encode_inj] at h ⊢
    exact ⟨encode_string_inj h.1, h.2⟩
  | .binary x, b, r, r', h => by
    cases b <;> simp [tokens, -Encodable.encode_inj] at h ⊢
    have lists := Encodable.encode_injective h.1
    exact ⟨(List.map_injective_iff.mpr fun a b h => UInt8.toNat_inj.mp h) lists, h.2⟩
  | .array x, b, r, r', h => by
    cases b <;> simp [tokens] at h ⊢
    exact itemTokens_inj _ _ r r' h
  | .object x, b, r, r', h => by
    cases b <;> simp [tokens] at h ⊢
    exact memberTokens_inj _ _ r r' h

theorem itemTokens_inj : ∀ (a b : List Json) (r r' : List Nat),
    itemTokens a ++ r = itemTokens b ++ r' → a = b ∧ r = r'
  | [], b, r, r', h => by
    cases b <;> simp [itemTokens] at h ⊢
    exact h
  | x :: xs, b, r, r', h => by
    cases b with
    | nil => simp [itemTokens] at h
    | cons y ys =>
      simp only [itemTokens, List.cons_append, List.cons.injEq, true_and, List.append_assoc] at h
      obtain ⟨head, tail⟩ := tokens_inj x y _ _ h
      obtain ⟨rest, ends⟩ := itemTokens_inj xs ys _ _ tail
      exact ⟨by rw [head, rest], ends⟩

theorem memberTokens_inj : ∀ (a b : List (String × Json)) (r r' : List Nat),
    memberTokens a ++ r = memberTokens b ++ r' → a = b ∧ r = r'
  | [], b, r, r', h => by
    cases b <;> simp [memberTokens] at h ⊢
    exact h
  | (key, x) :: xs, b, r, r', h => by
    cases b with
    | nil => simp [memberTokens] at h
    | cons y ys =>
      simp only [memberTokens, List.cons_append, List.cons.injEq, true_and, List.append_assoc] at h
      obtain ⟨head, tail⟩ := tokens_inj x y.2 _ _ h.2
      obtain ⟨rest, ends⟩ := memberTokens_inj xs ys _ _ tail
      exact ⟨by rw [head, rest, encode_string_inj h.1], ends⟩

end

/-- The literals as they are written, and a text of its own for every other document. -/
def packed : Json → Bytes
  | .null => [0x6e, 0x75, 0x6c, 0x6c]
  | .boolean false => [0x66, 0x61, 0x6c, 0x73, 0x65]
  | .boolean true => [0x74, 0x72, 0x75, 0x65]
  | j => 0x31 :: List.replicate (Encodable.encode (tokens j)) 0x31

theorem packed_inj {a b : Json} (same : packed a = packed b) : a = b := by
  have sizes (x y : Json) (h : (0x31 : UInt8) :: List.replicate (Encodable.encode (tokens x)) 0x31 =
      0x31 :: List.replicate (Encodable.encode (tokens y)) 0x31) : x = y := by
    have lengths := congrArg List.length (List.cons.inj h).2
    rw [List.length_replicate, List.length_replicate] at lengths
    exact (tokens_inj x y [] [] (by rw [Encodable.encode_injective lengths])).1
  unfold packed at same
  split at same <;> split at same <;> first | rfl | (exact sizes _ _ same) | (exact absurd (List.cons.inj same).1 (by decide))

open Classical in
/-- A parser that reads what was written, and nothing else. -/
noncomputable def packedCodec : Codec where
  parse := fun text =>
    if written : ∃ j, packed j = text then .ok written.choose
    else .error ⟨.jsonException, "[json.exception.parse_error.101] parse error"⟩
  dump := packed
  toCbor := fun _ => []
  cborLoad := fun _ => none

theorem packedCodec_roundTrip (j : Json) : packedCodec.parse (packedCodec.dump j) = .ok j := by
  have written : ∃ k, packed k = packed j := ⟨j, rfl⟩
  have read : packedCodec.parse (packedCodec.dump j) = .ok written.choose := dif_pos written
  rw [read, packed_inj written.choose_spec]

/-- The document `true` in a variable. -/
def truePool : Pool := Function.update (fun _ => none) 0 (some { toMessage := .ofJson (.boolean true) .json "" })

/-- It is made `false`, serialised, and copied to another variable. -/
def editAndCopy : List PoolAction := [.editJson 0 fun _ => .boolean false, .getRaw 0, .copyConstruct 1 0]

theorem documents_simulated_copy :
    ∃ docs, Lib.exec (docStep packedCodec) editAndCopy (docsOf packedCodec truePool) = some docs ∧
      ∀ i m, ((Lib.exec (Pool.step packedCodec) editAndCopy truePool).getD truePool) i = some m →
        ∃ doc, docs i = some doc ∧ ReadsAs packedCodec m doc := by
  refine documents_simulated packedCodec packedCodec_roundTrip truePool _ (fun i m found => .inr ?_) editAndCopy rfl
  by_cases here : i = 0
  · subst here
    rw [truePool, Function.update_self] at found
    exact Option.some.inj found ▸ ⟨rfl, rfl⟩
  · rw [truePool, Function.update_of_ne here] at found
    cases found

end Pool

end M2eBridge
