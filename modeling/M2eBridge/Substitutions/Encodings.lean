import M2eBridge.Substitutions.Integers
import M2eBridge.Substitutions.Repeat

/-!
# Documents in two encodings

A document of maps with text keys, arrays, integers, booleans and texts, as a JSON document
and as a CBOR item, in which a text may come in chunks. A path leads to the same part of it in
both; what the engine makes of the path it makes by disjoint branches, and the values that come
out are of different kinds.
-/

namespace M2eBridge

/-- A text, with what it is in CBOR: one piece, or chunks of an indefinite length. -/
inductive DocText where
  | whole (s : String)
  | chunked (chunks : List String)

namespace DocText

def text : DocText → String
  | .whole s => s
  | .chunked chunks => chunks.foldr (· ++ ·) ""

def toCbor : DocText → CborItem
  | .whole s => .string (bytesOf s)
  | .chunked chunks => .chunkedString (chunks.map bytesOf)

theorem text?_toCbor (t : DocText) : t.toCbor.text? = some (bytesOf t.text) := by
  cases t with
  | whole s => rfl
  | chunked chunks =>
    rw [toCbor, CborItem.text?, text]
    induction chunks with
    | nil => rfl
    | cons chunk rest ih =>
      rw [List.map_cons, List.flatten_cons, List.foldr_cons, bytesOf_append, Option.some.inj ih]

/-- What is read of it: nothing, where it comes in chunks. -/
def seen : DocText → String
  | .whole s => s
  | .chunked _ => ""

/-- It comes in one piece, or is empty. -/
def Legible (t : DocText) : Prop := ∀ chunks, t = .chunked chunks → t.text = ""

theorem seen_eq_iff (t : DocText) : t.seen = t.text ↔ t.Legible := by
  cases t with
  | whole s => exact iff_of_true rfl nofun
  | chunked chunks => exact ⟨fun same _ _ => same.symm, fun empty => (empty chunks rfl).symm⟩

theorem value_toCbor (t : DocText) : (ObjectProxy.cbor (some t.toCbor)).value = .ok (.string (bytesOf t.seen)) := by
  cases t <;> rfl

end DocText

inductive Doc where
  /-- An integer that both libraries can hold, in an item of that width. -/
  | int (width : CborWidth) (n : Int) (range : -2 ^ 63 ≤ n ∧ n < 2 ^ 64)
  | bool (b : Bool)
  | str (t : DocText)
  | arr (items : List Doc)
  | map (entries : List (DocText × Doc))

namespace Doc

mutual

def toJson : Doc → Json
  | .int _ n _ => .integer n
  | .bool b => .boolean b
  | .str t => .string t.text
  | .arr items => .array (jsonItems items)
  | .map entries => .object (jsonMembers entries)

def jsonItems : List Doc → List Json
  | [] => []
  | d :: rest => d.toJson :: jsonItems rest

def jsonMembers : List (DocText × Doc) → List (String × Json)
  | [] => []
  | (key, d) :: rest => Json.setMember key.text d.toJson (jsonMembers rest)

end

mutual

def toCbor : Doc → CborItem
  | .int width n _ => if 0 ≤ n then .uint width (.ofNat n.toNat) else .negint width (.ofNat (-1 - n).toNat)
  | .bool b => .ctrl (if b then 21 else 20)
  | .str t => t.toCbor
  | .arr items => .array (cborItems items)
  | .map entries => .map (cborPairs entries)

def cborItems : List Doc → List CborItem
  | [] => []
  | d :: rest => d.toCbor :: cborItems rest

def cborPairs : List (DocText × Doc) → List (CborItem × CborItem)
  | [] => []
  | (key, d) :: rest => (key.toCbor, d.toCbor) :: cborPairs rest

end

/-- The entry of a key. -/
def entry (entries : List (DocText × Doc)) (key : String) : Option (DocText × Doc) :=
  entries.find? fun entry => entry.1.text = key

/-- The part that a step names. -/
def child (d : Doc) : Grammar.Step → Option Doc
  | .property key =>
    match d with
    | .map entries => (entry entries (SubsEngine.shown key.val)).map Prod.snd
    | _ => none
  | .index digits =>
    match d with
    | .arr items => items[digits.number]?
    | _ => none

/-- What is stored under the path. -/
def stored (d : Doc) (steps : List Grammar.Step) : Option Doc := steps.foldlM child d

def IsScalar : Doc → Prop
  | .int .. | .bool _ | .str _ => True
  | .arr _ | .map _ => False

end Doc

/-! ## Keys -/

theorem bytesOf_ofList (l : List Char) : bytesOf (.ofList l) = l.flatMap String.utf8EncodeChar := by
  simp [bytesOf, String.toUTF8, String.toByteArray_ofList, List.utf8Encode]

theorem utf8EncodeChar_ascii {b : UInt8} (small : b < 0x80) : String.utf8EncodeChar (.ofNat b.toNat) = [b] := by
  have bound : b.toNat < 128 := UInt8.lt_iff_toNat_lt.mp small
  have value : (Char.ofNat b.toNat).val.toNat = b.toNat := by
    rw [Char.ofNat, dif_pos (Or.inl (by omega))]
    rfl
  rw [String.utf8EncodeChar]
  simp only [value]
  rw [if_pos (Nat.le_of_lt_succ bound), UInt8.ofNat_toNat]

theorem bytesOf_shown {s : Bytes} (ascii : s.all (· < 0x80) = true) : bytesOf (SubsEngine.shown s) = s := by
  rw [SubsEngine.shown, bytesOf_ofList]
  induction s with
  | nil => rfl
  | cons b rest ih =>
    rw [List.all_cons, Bool.and_eq_true, decide_eq_true_iff] at ascii
    rw [List.map_cons, List.flatMap_cons, utf8EncodeChar_ascii ascii.1, ih ascii.2, List.singleton_append]

namespace Grammar

theorem identifier_other (key : Identifier) : ∀ b ∈ key.val, identifierOther b = true := by
  obtain ⟨_ | ⟨first, rest⟩, valid⟩ := key
  · cases valid
  · obtain ⟨head, tail⟩ := (Bool.and_eq_true _ _).mp valid
    exact List.forall_mem_cons.mpr
      ⟨by rw [identifierOther, head, Bool.true_or], fun b member => List.all_eq_true.mp tail b member⟩

theorem identifierOther_ascii {b : UInt8} (other : identifierOther b = true) : b < 0x80 := by
  simp only [identifierOther, identifierFirst, isDigit, Bool.or_eq_true, Bool.and_eq_true, decide_eq_true_eq,
    beq_iff_eq] at other
  rcases other with ((⟨-, top⟩ | ⟨-, top⟩) | rfl) | ⟨-, top⟩
  · exact UInt8.lt_of_le_of_lt top (by decide)
  · exact UInt8.lt_of_le_of_lt top (by decide)
  · decide
  · exact UInt8.lt_of_le_of_lt top (by decide)

/-- Identifiers are the same as bytes and as texts. -/
theorem bytesOf_identifier (key : Identifier) : bytesOf (SubsEngine.shown key.val) = key.val :=
  bytesOf_shown (List.all_eq_true.mpr fun b member => decide_eq_true (identifierOther_ascii (identifier_other key b member)))

end Grammar

namespace Doc

/-! ## Paths -/

theorem jsonItems_eq (items : List Doc) : jsonItems items = items.map toJson := by
  induction items with
  | nil => rfl
  | cons d rest ih => rw [jsonItems, ih, List.map_cons]

theorem cborItems_eq (items : List Doc) : cborItems items = items.map toCbor := by
  induction items with
  | nil => rfl
  | cons d rest ih => rw [cborItems, ih, List.map_cons]

theorem cborPairs_eq (entries : List (DocText × Doc)) :
    cborPairs entries = entries.map fun entry => (entry.1.toCbor, entry.2.toCbor) := by
  induction entries with
  | nil => rfl
  | cons first rest ih =>
    obtain ⟨k, d⟩ := first
    rw [cborPairs, ih, List.map_cons]

theorem lookup_jsonMembers (entries : List (DocText × Doc)) (key : String) :
    (jsonMembers entries).lookup key = (entry entries key).map fun entry => entry.2.toJson := by
  induction entries with
  | nil => rfl
  | cons first rest ih =>
    obtain ⟨k, d⟩ := first
    rw [jsonMembers, entry]
    by_cases here : k.text = key
    · rw [← here, Json.lookup_setMember_self, List.find?_cons_of_pos (by simp)]
      rfl
    · rw [Json.lookup_setMember_other (Ne.symm here), ih, List.find?_cons_of_neg (by simpa using here), entry]

theorem entry_cborPairs (entries : List (DocText × Doc)) (key : Grammar.Identifier) :
    (CborItem.map (cborPairs entries)).entry key.val =
      (entry entries (SubsEngine.shown key.val)).map fun entry => (entry.1.toCbor, entry.2.toCbor) := by
  unfold CborItem.entry entry
  change ((cborPairs entries).find? fun pair => pair.1.text? = some key.val) = _
  induction entries with
  | nil => rfl
  | cons first rest ih =>
    obtain ⟨k, d⟩ := first
    have same : k.toCbor.text? = some key.val ↔ k.text = SubsEngine.shown key.val := by
      rw [DocText.text?_toCbor, Option.some.injEq, ← Grammar.bytesOf_identifier key, bytesOf_inj,
        Grammar.bytesOf_identifier]
    rw [cborPairs]
    by_cases here : k.text = SubsEngine.shown key.val
    · rw [List.find?_cons_of_pos (by simpa using same.mpr here), List.find?_cons_of_pos (by simpa using here)]
      rfl
    · rw [List.find?_cons_of_neg (by simpa using mt same.mp here), List.find?_cons_of_neg (by simpa using here)]
      exact ih

theorem child_toJson {d next : Doc} {step : Grammar.Step} (there : d.child step = some next) :
    d.toJson.child step = some next.toJson := by
  cases step with
  | property key =>
    cases d with
    | map entries =>
      obtain ⟨found, named, rfl⟩ := Option.map_eq_some_iff.mp there
      simp [Json.child, toJson, Json.find?, lookup_jsonMembers, named]
    | int | bool | str | arr => cases there
  | index digits =>
    cases d with
    | arr items =>
      have found : items[digits.number]? = some next := there
      simp [Json.child, toJson, jsonItems_eq, found]
    | int | bool | str | map => cases there

theorem child_toCbor {d next : Doc} {step : Grammar.Step} (there : d.child step = some next) :
    d.toCbor.child step = some next.toCbor := by
  cases step with
  | property key =>
    cases d with
    | map entries =>
      obtain ⟨found, named, rfl⟩ := Option.map_eq_some_iff.mp there
      rw [CborItem.child, toCbor, entry_cborPairs, named]
      rfl
    | int | bool | str | arr => cases there
  | index digits =>
    cases d with
    | arr items =>
      have found : items[digits.number]? = some next := there
      simp [CborItem.child, toCbor, cborItems_eq, found]
    | int | bool | str | map => cases there

/-- A path leads to the same in both encodings. -/
theorem stored_encoded (steps : List Grammar.Step) :
    ∀ {d leaf : Doc}, d.stored steps = some leaf →
      d.toJson.stored steps = some leaf.toJson ∧ d.toCbor.stored steps = some leaf.toCbor := by
  induction steps with
  | nil =>
    rintro d leaf ⟨⟩
    exact ⟨rfl, rfl⟩
  | cons step steps ih =>
    intro d leaf there
    obtain ⟨next, here, behind⟩ := Option.bind_eq_some_iff.mp there
    obtain ⟨json, cbor⟩ := ih behind
    rw [Json.stored, CborItem.stored, List.foldlM_cons, List.foldlM_cons, child_toJson here, child_toCbor here]
    exact ⟨json, cbor⟩

/-- No map in the document has a key twice. -/
def Distinct (d : Doc) : Prop :=
  ∀ steps entries, d.stored steps = some (.map entries) → (entries.map fun entry => entry.1.text).Nodup

theorem Distinct.child {d next : Doc} (distinct : d.Distinct) {step : Grammar.Step} (there : d.child step = some next) :
    next.Distinct := by
  intro steps entries stored
  refine distinct (step :: steps) entries ?_
  rw [Doc.stored, List.foldlM_cons, there]
  exact stored

/-- Where a key stands once and in chunks, a search for it finds nothing. -/
theorem not_keyed {entries : List (DocText × Doc)} (nodup : (entries.map fun entry => entry.1.text).Nodup)
    {key : Grammar.Identifier} {found : DocText × Doc} (named : entry entries (SubsEngine.shown key.val) = some found)
    (chunks : found.1.toCbor ≠ .string key.val) :
    ((cborPairs entries).find? fun pair => ObjectProxy.keyed key.val pair.1) = none := by
  induction entries with
  | nil => rfl
  | cons first rest ih =>
    obtain ⟨k, d⟩ := first
    obtain ⟨fresh, later⟩ := List.nodup_cons.mp nodup
    have other (e : DocText × Doc) (differs : e.1.text ≠ SubsEngine.shown key.val) :
        ¬ ObjectProxy.keyed key.val e.1.toCbor = true := by
      intro keyed
      have text := e.1.text?_toCbor
      rw [(Grammar.keyed_iff key.ne_nil _).mp keyed, CborItem.text?, Option.some.injEq, ← Grammar.bytesOf_identifier key,
        bytesOf_inj] at text
      exact differs text.symm
    rw [cborPairs]
    by_cases here : k.text = SubsEngine.shown key.val
    · rw [entry, List.find?_cons_of_pos (by simpa using here)] at named
      cases named
      rw [List.find?_cons_of_neg (by simpa using mt (Grammar.keyed_iff key.ne_nil _).mp chunks), List.find?_eq_none]
      intro pair member
      obtain ⟨e, inside, rfl⟩ : ∃ e ∈ rest, (e.1.toCbor, e.2.toCbor) = pair := by
        rw [cborPairs_eq] at member
        simpa using member
      exact other e fun same => fresh (List.mem_map.mpr ⟨e, inside, same.trans here.symm⟩)
    · rw [entry, List.find?_cons_of_neg (by simpa using here)] at named
      rw [List.find?_cons_of_neg (by simpa using other (k, d) here)]
      exact ih later named

/-- A walk that meets a key in chunks ends there. -/
theorem walk_chunked (C : Codec) (steps : List Grammar.Step) :
    ∀ {d leaf : Doc}, d.Distinct → d.stored steps = some leaf → ¬ d.toCbor.KeysWhole steps →
      ∃ e, steps.foldlM (Grammar.Step.take C) (.cbor (some d.toCbor)) = .error e := by
  induction steps with
  | nil => exact fun _ _ broken => absurd trivial broken
  | cons step steps ih =>
    intro d leaf distinct there broken
    obtain ⟨next, here, behind⟩ := Option.bind_eq_some_iff.mp there
    rw [List.foldlM_cons]
    cases step with
    | index => exact absurd trivial broken
    | property key =>
      by_cases whole : ∀ pair, d.toCbor.entry key.val = some pair → pair.1 = .string key.val
      · rw [Grammar.take_cbor (child_toCbor here) whole]
        refine ih (distinct.child here) behind fun later => broken ⟨whole, fun item child => ?_⟩
        cases (child_toCbor here).symm.trans child
        exact later
      · cases d with
        | map entries =>
          obtain ⟨found, named, rfl⟩ := Option.map_eq_some_iff.mp here
          have chunks : found.1.toCbor ≠ .string key.val := by
            intro same
            refine whole fun pair first => ?_
            rw [toCbor, entry_cborPairs, named] at first
            cases first
            exact same
          rw [Grammar.Step.take, toCbor, ObjectProxy.next, ObjectProxy.pairs,
            not_keyed (distinct [] entries rfl) named chunks]
          exact ⟨_, rfl⟩
        | int | bool | str | arr => cases here

end Doc

/-! ## Values -/

namespace Grammar

/-- Two environments that differ in the message only, which carries the document as JSON in
the one and as CBOR in the other. The document has no key twice in a map. -/
structure Encoded (C : Codec) (doc : Doc) (json cbor : EnvObjects) : Prop where
  messages : ∃ m m' : Message, ObjectProxy.mapAt json "MSG" = .ok (.message m) ∧
    ObjectProxy.mapAt cbor "MSG" = .ok (.message m') ∧ (m.format = .json ∧ (m.getJson C).1 = .ok doc.toJson) ∧
    (m'.format = .cbor ∧ (m'.getCbor C).1 = .ok (some doc.toCbor)) ∧ m'.msgTopic = m.msgTopic
  others : ∀ name, name ≠ "MSG" → cbor.lookup name = json.lookup name
  distinct : doc.Distinct

/-- The path goes by keys only, each of which the item has in one piece. -/
def Keyed (doc : Doc) (steps : List Step) : Prop := steps.any Step.isIndex = false ∧ doc.toCbor.KeysWhole steps

/-- What is read at the front of the text goes into the payload, by these steps. -/
def Leads (text : Bytes) (steps : List Step) (modifier : Option ModifierDef) : Prop :=
  ∃ rest, readPath text = some ⟨msgName, .property payloadName :: steps, modifier, rest⟩

theorem leads_or (text : Bytes) :
    (∃ steps modifier, Leads text steps modifier) ∨ ∀ steps modifier, ¬ Leads text steps modifier :=
  or_iff_not_imp_left.mpr fun none_ steps modifier leads => none_ ⟨steps, modifier, leads⟩

theorem leads_payload (steps : List Step) : Leads (payload steps).text steps none := ⟨[], readPath_text (payload steps)⟩

theorem Leads.unique {text : Bytes} {steps steps' : List Step} {modifier modifier' : Option ModifierDef}
    (leads : Leads text steps modifier) (leads' : Leads text steps' modifier') : steps' = steps ∧ modifier' = modifier := by
  obtain ⟨rest, read⟩ := leads
  obtain ⟨rest', read'⟩ := leads'
  cases read.symm.trans read'
  exact ⟨rfl, rfl⟩

theorem Leads.evaluate {text : Bytes} {steps : List Step} {modifier : Option ModifierDef} (leads : Leads text steps modifier)
    (C : Codec) (handlers : ImageHandlers) (env : EnvObjects) :
    (SubsEngine.evaluate C handlers env text).1 =
      valueAt C handlers env msgName (.property payloadName :: steps) modifier := by
  obtain ⟨rest, read⟩ := leads
  rw [evaluate_eq, read]

theorem identifier_ext {x y : Identifier} (same : SubsEngine.shown x.val = SubsEngine.shown y.val) : x = y :=
  Subtype.ext <| (bytesOf_identifier x).symm.trans <| (congrArg bytesOf same).trans (bytesOf_identifier y)

section Values

variable {C : Codec} {handlers : ImageHandlers} {doc leaf : Doc} {json cbor : EnvObjects} {steps : List Step}

/-- From the document. -/
theorem Encoded.value_json (encoded : Encoded C doc json cbor) (there : doc.stored steps = some leaf) :
    (payload steps).value C handlers json =
      if ∀ step ∈ steps, step.Fits then (ObjectProxy.json leaf.toJson).value else .error ⟨.outOfRange, "stoi"⟩ := by
  obtain ⟨m, m', bound, -, ⟨format, decoded⟩, -, -⟩ := encoded.messages
  have name : SubsEngine.shown payloadName.val = "PAYLOAD" := by decide
  rw [← evaluate_text, evaluate_payload steps bound]
  simp only [ObjectProxy.next, name, if_true, format, decoded, Except.map, Except.bind,
    walk_json steps (Doc.stored_encoded steps there).1]
  by_cases fit : ∀ step ∈ steps, step.Fits
  · rw [if_pos fit, if_pos fit]
  · rw [if_neg fit, if_neg fit]

/-- From the item, by keys. -/
theorem Encoded.value_cbor (encoded : Encoded C doc json cbor) (there : doc.stored steps = some leaf)
    (keyed : Keyed doc steps) :
    (payload steps).value C handlers cbor = (ObjectProxy.cbor (some leaf.toCbor)).value := by
  obtain ⟨m, m', -, bound, -, ⟨format, decoded⟩, -⟩ := encoded.messages
  have name : SubsEngine.shown payloadName.val = "PAYLOAD" := by decide
  rw [← evaluate_text, evaluate_payload steps bound]
  simp only [ObjectProxy.next, name, if_true, format, decoded, Except.map, Except.bind,
    walk_cbor steps (Doc.stored_encoded steps there).2 keyed.1 keyed.2]

variable (handlers) in
/-- An index is refused, and a key in chunks is not found. -/
theorem Encoded.value_cbor_refused (encoded : Encoded C doc json cbor) (there : doc.stored steps = some leaf)
    (unkeyed : ¬ Keyed doc steps) : ∃ e, (payload steps).value C handlers cbor = .error e := by
  obtain ⟨m, m', -, bound, -, ⟨format, decoded⟩, -⟩ := encoded.messages
  have name : SubsEngine.shown payloadName.val = "PAYLOAD" := by decide
  obtain ⟨e, refused⟩ : ∃ e, steps.foldlM (Step.take C) (.cbor (some doc.toCbor)) = .error e := by
    cases index : steps.any Step.isIndex with
    | true => exact walk_cbor_index C steps _ index
    | false => exact Doc.walk_chunked C steps encoded.distinct there fun whole => unkeyed ⟨index, whole⟩
  refine ⟨e, ?_⟩
  rw [← evaluate_text, evaluate_payload steps bound]
  simp only [ObjectProxy.next, name, if_true, format, decoded, Except.map, Except.bind, refused]

/-- What is not in the payload is the same for both. -/
theorem Encoded.evaluate_elsewhere (encoded : Encoded C doc json cbor) {text : Bytes}
    (elsewhere : ∀ steps modifier, ¬ Leads text steps modifier) :
    (SubsEngine.evaluate C handlers cbor text).1 = (SubsEngine.evaluate C handlers json text).1 := by
  rw [evaluate_eq, evaluate_eq]
  cases read : readPath text with
  | none => rfl
  | some path =>
    obtain ⟨root, steps, modifier, rest⟩ := path
    have value : follow C cbor root steps >>= ObjectProxy.value = follow C json root steps >>= ObjectProxy.value := by
      by_cases message : SubsEngine.shown root.val = "MSG"
      · obtain ⟨m, m', bound, bound', -, -, topic⟩ := encoded.messages
        simp only [follow, message, bound, bound']
        cases steps with
        | nil => rfl
        | cons step steps =>
          refine congrArg (· >>= steps.foldlM (Step.take C) >>= ObjectProxy.value)
            (show step.take C (.message m') = step.take C (.message m) from ?_)
          cases step with
          | index => rfl
          | property key =>
            have other : SubsEngine.shown key.val ≠ "PAYLOAD" := by
              intro same
              have root_ : root = msgName := identifier_ext (message.trans (by decide))
              have key_ : key = payloadName := identifier_ext (same.trans (by decide))
              exact elsewhere steps modifier ⟨rest, by rw [read, root_, key_]⟩
            simp only [Step.take, ObjectProxy.next, if_neg other, Message.getTopicLevels, topic]
            split
            · rfl
            · split <;> rfl
      · simp only [follow, ObjectProxy.mapAt, encoded.others _ message]
    dsimp only
    rw [valueAt, valueAt, ← bind_assoc, ← bind_assoc, value]

end Values

end Grammar

end M2eBridge
