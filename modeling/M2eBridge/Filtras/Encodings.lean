import M2eBridge.Filtras.Builder
import M2eBridge.Substitutions.Encodings

/-!
# Templates in two encodings

What the engine and a builder make of a template for a document as JSON and as CBOR. A text
in a document is a string for both, a boolean is no string for either; an integer is a string
of the one and a number of the other, and an index leads on in the one only
(`encodings_agree_iff`).
-/

namespace M2eBridge

namespace SubsEngine

/-- What the engine makes of a template, by fuel; which exception it throws is left open. -/
def answer (C : Codec) (handlers : ImageHandlers) (template : Bytes) (env : EnvObjects) (fuel : Nat) :
    Option (Option Substituted) :=
  (substitute (evaluate C handlers) fuel template env).map fun out => out.result.toOption

/-- What a builder makes of a text in its payload. -/
def elementAnswer (C : Codec) (handlers : ImageHandlers) (text : String) (env : EnvObjects) (fuel : Nat) :
    Option (Option Json) :=
  (BuilderFT.element (fun template env => substitute (evaluate C handlers) fuel template env) (.string text) env).map
    fun made => made.1.toOption

/-- What a builder makes of a text that is its payload. -/
def buildAnswer (C : Codec) (handlers : ImageHandlers) (text : String) (env : EnvObjects) (fuel : Nat) :
    Option (Option Json) :=
  (BuilderFT.build (fun template env => substitute (evaluate C handlers) fuel template env) (.string text) env).map
    fun made => made.1.toOption

/-! ## Steadiness -/

variable {C : Codec} {handlers : ImageHandlers} {env : EnvObjects}

theorem answer_steady (template : Bytes) : Lib.Fuel.Steady (answer C handlers template env) :=
  (substitute_steady env).map _

theorem elementAnswer_eq (text : String) :
    elementAnswer C handlers text env = fun fuel =>
      (substitute (evaluate C handlers) fuel (bytesOf text) env).map fun out => out.result.toOption.map Substituted.toJson := by
  funext fuel
  rw [elementAnswer, BuilderFT.element, Option.map_map]
  congr 1
  funext out
  cases h : out.result <;> simp [h, Except.map, Except.toOption]

theorem buildAnswer_eq (text : String) :
    buildAnswer C handlers text env = fun fuel =>
      (substitute (evaluate C handlers) fuel (bytesOf text) env).map fun out =>
        out.result.toOption.bind fun v => v.toPayload.toOption := by
  funext fuel
  simp only [buildAnswer, BuilderFT.build, Option.map_map]
  congr 1
  funext out
  cases h : out.result <;> simp [h, Except.bind, Except.toOption]

theorem elementAnswer_steady (text : String) : Lib.Fuel.Steady (elementAnswer C handlers text env) := by
  rw [elementAnswer_eq]
  exact (substitute_steady env).map _

theorem buildAnswer_steady (text : String) : Lib.Fuel.Steady (buildAnswer C handlers text env) := by
  rw [buildAnswer_eq]
  exact (substitute_steady env).map _

/-! ## One placeholder -/

variable (C handlers env) in
/-- The outcome of a template that is one placeholder. -/
theorem single_ends {template expression : Bytes} (single : Single template expression) :
    ∃ out, Lib.Fuel.Ends (fun fuel => substitute (evaluate C handlers) fuel template env) out ∧
      out.result.toOption = (evaluate C handlers env expression).1.toOption := by
  refine ⟨_, ⟨1, loop_single single env⟩, ?_⟩
  cases (evaluate C handlers env expression).1 with
  | ok => rfl
  | error e => rfl

theorem elementAnswer_ends {text : String} {expression : Bytes} (single : Single (bytesOf text) expression) :
    Lib.Fuel.Ends (elementAnswer C handlers text env)
      ((evaluate C handlers env expression).1.toOption.map Substituted.toJson) := by
  obtain ⟨out, ends, came⟩ := single_ends C handlers env single
  rw [elementAnswer_eq, ← came]
  exact ends.map _

theorem buildAnswer_ends {text : String} {expression : Bytes} (single : Single (bytesOf text) expression) :
    Lib.Fuel.Ends (buildAnswer C handlers text env)
      ((evaluate C handlers env expression).1.toOption.bind fun v => v.toPayload.toOption) := by
  obtain ⟨out, ends, came⟩ := single_ends C handlers env single
  rw [buildAnswer_eq, ← came]
  exact ends.map _

/-! ## Placeholders in a text -/

/-- What a placeholder is written over with, in an environment. -/
def written (C : Codec) (handlers : ImageHandlers) (env : EnvObjects) (expression : Bytes) : Bytes :=
  (string? (evaluate C handlers env expression).1).getD []

theorem answer_ends {template last : Bytes} {pieces : List (Bytes × Bytes)} (split : pattern.Split template pieces last)
    (several : ∀ expression, ¬ Single template expression)
    (fits : Fits pieces (pieces.map fun piece => written C handlers env piece.2)) :
    Lib.Fuel.Ends (answer C handlers template env)
      (filled pieces last fun expression => string? (evaluate C handlers env expression).1) := by
  have constant (piece : Bytes × Bytes) (_ : piece ∈ pieces) (world : EnvObjects)
      (kept : Becomes (EnvObject.Looks C) env world) :
      string? (evaluate C handlers world piece.2).1 = string? (evaluate C handlers env piece.2).1 :=
    Grammar.string_becomes kept handlers piece.2
  have keeps (world : EnvObjects) (expression : Bytes) (kept : Becomes (EnvObject.Looks C) env world) :
      Becomes (EnvObject.Looks C) env (evaluate C handlers world expression).2 :=
    evaluate_becomes handlers (EnvObject.looks_kept C) kept expression
  exact @substitute_fills _ (evaluate C handlers) template _
    (fun expression => string? (evaluate C handlers env expression).1) several _ _ split constant keeps fits _
    (becomes_refl C env)

theorem mapM_eq_none_iff {α β : Type} (f : α → Option β) (xs : List α) : xs.mapM f = none ↔ ∃ x ∈ xs, f x = none := by
  induction xs with
  | nil => simp
  | cons x xs ih =>
    rw [List.mapM_cons, List.exists_mem_cons_iff, ← ih]
    cases f x with
    | none => simp
    | some y => cases xs.mapM f <;> simp

/-- Shorter values make shorter outputs. -/
theorem outputs_shorter {value value' : Bytes → Bytes} {pieces : List (Bytes × Bytes)}
    (shorter : ∀ piece ∈ pieces, (value' piece.2).length ≤ (value piece.2).length) (k : Nat) :
    ((outputs pieces (pieces.map fun piece => value' piece.2)).take k).flatten.length ≤
      ((outputs pieces (pieces.map fun piece => value piece.2)).take k).flatten.length := by
  induction pieces generalizing k with
  | nil => exact le_rfl
  | cons piece rest ih =>
    obtain ⟨here, behind⟩ := List.forall_mem_cons.mp shorter
    cases k with
    | zero => exact le_rfl
    | succ k =>
      have later := ih behind k
      simp only [outputs, List.map_cons, List.zipWith_cons_cons, List.take_succ_cons, List.flatten_cons,
        List.length_append] at later ⊢
      omega

theorem outputs_shorter_all {value value' : Bytes → Bytes} {pieces : List (Bytes × Bytes)}
    (shorter : ∀ piece ∈ pieces, (value' piece.2).length ≤ (value piece.2).length) :
    (outputs pieces (pieces.map fun piece => value' piece.2)).flatten.length ≤
      (outputs pieces (pieces.map fun piece => value piece.2)).flatten.length := by
  have all := outputs_shorter shorter pieces.length
  rwa [List.take_of_length_le (by simp [outputs]), List.take_of_length_le (by simp [outputs])] at all

/-- Shorter values fit where longer ones do. -/
theorem Fits.shorter {pieces : List (Bytes × Bytes)} {value value' : Bytes → Bytes}
    (shorter : ∀ piece ∈ pieces, (value' piece.2).length ≤ (value piece.2).length)
    (fits : Fits pieces (pieces.map fun piece => value piece.2)) : Fits pieces (pieces.map fun piece => value' piece.2) :=
  fun k inside => Nat.lt_of_le_of_lt (outputs_shorter shorter k) (fits k inside)

/-- Where each value is the other one or none at all, outputs of one length have the same values. -/
theorem values_of_length {value value' : Bytes → Bytes} {pieces : List (Bytes × Bytes)}
    (partly : ∀ piece ∈ pieces, value' piece.2 = value piece.2 ∨ value' piece.2 = [])
    (length : (outputs pieces (pieces.map fun piece => value piece.2)).flatten.length =
      (outputs pieces (pieces.map fun piece => value' piece.2)).flatten.length) :
    ∀ piece ∈ pieces, value' piece.2 = value piece.2 := by
  have below (piece : Bytes × Bytes) (member : piece ∈ pieces) : (value' piece.2).length ≤ (value piece.2).length := by
    rcases partly piece member with same | none_
    · rw [same]
    · rw [none_]
      exact Nat.zero_le _
  induction pieces with
  | nil => exact nofun
  | cons piece rest ih =>
    obtain ⟨here, behind⟩ := List.forall_mem_cons.mp partly
    obtain ⟨short, shorter⟩ := List.forall_mem_cons.mp below
    have later := outputs_shorter_all shorter
    have total : (value piece.2).length + (outputs rest (rest.map fun piece => value piece.2)).flatten.length =
        (value' piece.2).length + (outputs rest (rest.map fun piece => value' piece.2)).flatten.length := by
      simpa [outputs] using length
    refine List.forall_mem_cons.mpr ⟨?_, ih behind (by omega) shorter⟩
    rcases here with same | none_
    · exact same
    · rw [none_, List.length_nil] at total
      rw [none_, List.length_eq_zero_iff.mp (by omega : (value piece.2).length = 0)]

theorem filled_of_some {pieces : List (Bytes × Bytes)} {last : Bytes} {value : Bytes → Option Bytes}
    (strings : ∀ piece ∈ pieces, value piece.2 ≠ none) :
    filled pieces last value = some (.string (fill pieces (pieces.map fun piece => (value piece.2).getD []) last)) := by
  have maps : (pieces.mapM fun piece => value piece.2) = some (pieces.map fun piece => (value piece.2).getD []) := by
    induction pieces with
    | nil => rfl
    | cons piece rest ih =>
      obtain ⟨here, behind⟩ := List.forall_mem_cons.mp strings
      obtain ⟨s, string⟩ := Option.ne_none_iff_exists'.mp here
      rw [List.mapM_cons, ih behind, List.map_cons, string]
      rfl
  rw [filled, maps]
  rfl

/-- Where each placeholder that is a string of the one is the same of the other, or nothing of a string of it. -/
theorem filled_eq_iff {pieces : List (Bytes × Bytes)} {last : Bytes} {value value' : Bytes → Option Bytes}
    (sub : ∀ piece ∈ pieces, ∀ s, value' piece.2 = some s → ∃ t, value piece.2 = some t ∧ (s = t ∨ s = [])) :
    filled pieces last value = filled pieces last value' ↔
      (∃ piece ∈ pieces, value piece.2 = none) ∨ ∀ piece ∈ pieces, value' piece.2 = value piece.2 := by
  have none_ (v : Bytes → Option Bytes) : filled pieces last v = none ↔ ∃ piece ∈ pieces, v piece.2 = none := by
    rw [filled, Option.map_eq_none_iff, mapM_eq_none_iff]
  constructor
  · intro same
    by_cases some_none : ∃ piece ∈ pieces, value piece.2 = none
    · exact .inl some_none
    · have strings : ∀ piece ∈ pieces, value piece.2 ≠ none := fun piece member none_ => some_none ⟨piece, member, none_⟩
      have strings' : ∀ piece ∈ pieces, value' piece.2 ≠ none := by
        intro piece member missing
        exact some_none ((none_ value).mp (same.trans ((none_ value').mpr ⟨piece, member, missing⟩)))
      rw [filled_of_some strings, filled_of_some strings', Option.some.injEq, Substituted.string.injEq, fill, fill] at same
      have partly (piece : Bytes × Bytes) (member : piece ∈ pieces) :
          (value' piece.2).getD [] = (value piece.2).getD [] ∨ (value' piece.2).getD [] = [] := by
        obtain ⟨s, string⟩ := Option.ne_none_iff_exists'.mp (strings' piece member)
        obtain ⟨t, whole, part⟩ := sub piece member s string
        rw [string, whole]
        exact part
      have values := @values_of_length (fun e => (value e).getD []) (fun e => (value' e).getD []) pieces partly
        (congrArg List.length (List.append_cancel_right same))
      refine .inr fun piece member => ?_
      obtain ⟨s, string⟩ := Option.ne_none_iff_exists'.mp (strings' piece member)
      obtain ⟨t, whole, -⟩ := sub piece member s string
      have here := values piece member
      simp only [string, whole, Option.getD_some] at here
      rw [string, whole, here]
  · rintro (⟨piece, member, missing⟩ | same)
    · rw [(none_ value).mpr ⟨piece, member, missing⟩, eq_comm, none_]
      refine ⟨piece, member, ?_⟩
      by_contra string
      obtain ⟨s, string⟩ := Option.ne_none_iff_exists'.mp string
      obtain ⟨t, whole, -⟩ := sub piece member s string
      rw [whole] at missing
      cases missing
    · have maps (v : Bytes → Option Bytes) :
          (pieces.mapM fun piece => v piece.2) = (pieces.map fun piece => v piece.2).mapM id := by
        rw [List.mapM_map]
        rfl
      rw [filled, filled, maps, maps, List.map_congr_left same]

theorem string?_eq_none_iff {r : Except Exn Substituted} : string? r = none ↔ ∀ s, r ≠ .ok (.string s) := by
  unfold string?
  split
  · next s => exact iff_of_false nofun fun none_ => none_ s rfl
  · next other => exact iff_of_true rfl other

end SubsEngine

/-! ## Placeholders of a document -/

namespace Grammar

open SubsEngine (string? string?_eq_none_iff)

/-- A placeholder that goes into the payload comes to a scalar of the document. -/
def Scalar (doc : Doc) (text : Bytes) : Prop :=
  ∀ steps modifier, Leads text steps modifier → ∃ leaf, doc.stored steps = some leaf ∧ leaf.IsScalar

/-- No string comes of the placeholder for the document as JSON. -/
def Refuses (C : Codec) (handlers : ImageHandlers) (json : EnvObjects) (doc : Doc) (text : Bytes) : Prop :=
  (∃ steps modifier, Leads text steps modifier ∧
    (modifier ≠ none ∨ (∃ b, doc.stored steps = some (.bool b)) ∨ ∃ step ∈ steps, ¬ step.Fits)) ∨
  (∀ steps modifier, ¬ Leads text steps modifier) ∧
    ∀ s, (SubsEngine.evaluate C handlers json text).1 ≠ .ok (.string s)

/-- A placeholder that goes into the payload goes by keys to a text that is read as it is. -/
def KeyedText (doc : Doc) (text : Bytes) : Prop :=
  ∀ steps modifier, Leads text steps modifier →
    modifier = none ∧ Keyed doc steps ∧ ∃ t, doc.stored steps = some (.str t) ∧ t.Legible

/-- Keys always fit. -/
theorem fits_of_keys {steps : List Step} (keys : steps.any Step.isIndex = false) : ∀ step ∈ steps, step.Fits := by
  intro step member
  cases step with
  | property => trivial
  | index => exact absurd (List.any_eq_false.mp keys _ member) (by simp [Step.isIndex])

/-! ### The text of a path -/

/-- A byte that may stand in a placeholder, and does not close it. -/
def Quiet (b : UInt8) : Prop := SubsEngine.pattern.plain b = true ∧ b ≠ 0x7d

instance (b : UInt8) : Decidable (Quiet b) := inferInstanceAs (Decidable (_ ∧ _))

theorem identifierOther_quiet {b : UInt8} (other : identifierOther b = true) : Quiet b := by
  constructor
  · refine decide_eq_true ⟨?_, ?_⟩
    · rintro rfl; cases other
    · rintro rfl; cases other
  · rintro rfl; cases other

theorem step_quiet (step : Step) : ∀ b ∈ step.text, Quiet b := by
  cases step with
  | property key =>
    exact List.forall_mem_cons.mpr
      ⟨by decide, fun b member => identifierOther_quiet (identifier_other key b member)⟩
  | index digits =>
    refine List.forall_mem_cons.mpr
      ⟨by decide, List.forall_mem_append.mpr ⟨fun b member => ?_, List.forall_mem_singleton.mpr (by decide)⟩⟩
    have digit := List.all_eq_true.mp digits.property.2 b member
    exact identifierOther_quiet (by rw [identifierOther, digit, Bool.or_true])

/-- A placeholder for a path is found as it is. -/
theorem payload_alone (steps : List Step) :
    SubsEngine.Single (SubsEngine.pattern.around (payload steps).text) (payload steps).text := by
  have quiet : ∀ b ∈ (payload steps).text, Quiet b := by
    intro b member
    simp only [Expression.text, payload, modifierText, List.append_nil, List.flatMap_cons, List.mem_append,
      List.mem_flatMap] at member
    rcases member with root | first | ⟨step, -, inside⟩
    · exact identifierOther_quiet (identifier_other msgName b root)
    · exact step_quiet _ b first
    · exact step_quiet step b inside
  exact .alone rfl (fun b member => (quiet b member).1) fun closes => (quiet _ closes).2 rfl

section Strings

variable {C : Codec} {handlers : ImageHandlers} {doc leaf : Doc} {json cbor : EnvObjects} {steps : List Step} {text : Bytes}
  {modifier : Option ModifierDef}

theorem Leads.string (leads : Leads text steps modifier) (env : EnvObjects) :
    string? (SubsEngine.evaluate C handlers env text).1 =
      if modifier = none then string? ((payload steps).value C handlers env) else none := by
  rw [leads.evaluate, string?_valueAt, Expression.value, string?_valueAt]
  exact if_congr Iff.rfl (if_pos rfl).symm rfl

theorem Encoded.string_json (encoded : Encoded C doc json cbor) (there : doc.stored steps = some leaf)
    (scalar : leaf.IsScalar) :
    string? ((payload steps).value C handlers json) = none ↔ (∃ b, leaf = .bool b) ∨ ∃ step ∈ steps, ¬ step.Fits := by
  rw [encoded.value_json there]
  by_cases fit : ∀ step ∈ steps, step.Fits
  · rw [if_pos fit, or_iff_left fun ⟨step, member, unfit⟩ => unfit (fit step member)]
    cases leaf with
    | int | str =>
      refine iff_of_false ?_ (by simp)
      intro same
      cases same
    | bool b => exact iff_of_true rfl ⟨b, rfl⟩
    | arr | map => exact scalar.elim
  · rw [if_neg fit]
    exact iff_of_true rfl (.inr (by simpa using fit))

theorem Leads.refuses_iff (leads : Leads text steps modifier) :
    Refuses C handlers json doc text ↔
      modifier ≠ none ∨ (∃ b, doc.stored steps = some (.bool b)) ∨ ∃ step ∈ steps, ¬ step.Fits := by
  rw [Refuses, or_iff_left fun both => both.1 steps modifier leads]
  constructor
  · rintro ⟨steps', modifier', leads', refused⟩
    obtain ⟨rfl, rfl⟩ := leads.unique leads'
    exact refused
  · exact fun refused => ⟨steps, modifier, leads, refused⟩

variable (handlers) in
theorem refuses_iff (encoded : Encoded C doc json cbor) (scalars : Scalar doc text) :
    Refuses C handlers json doc text ↔ string? (SubsEngine.evaluate C handlers json text).1 = none := by
  rcases leads_or text with ⟨steps, modifier, leads⟩ | elsewhere
  · obtain ⟨leaf, there, scalar⟩ := scalars steps modifier leads
    rw [leads.refuses_iff, leads.string, there]
    simp only [Option.some.injEq]
    by_cases plain : modifier = none
    · rw [if_pos plain, encoded.string_json there scalar, or_iff_right (not_not.mpr plain)]
    · exact iff_of_true (.inl plain) (if_neg plain)
  · rw [Refuses, string?_eq_none_iff, or_iff_right, and_iff_right elsewhere]
    rintro ⟨steps, modifier, leads, -⟩
    exact elsewhere steps modifier leads

/-- A string of the item is what is seen of a text, to which the path goes by keys. -/
theorem Encoded.string_cbor (encoded : Encoded C doc json cbor) (there : doc.stored steps = some leaf)
    (scalar : leaf.IsScalar) {s : Bytes} (string : string? ((payload steps).value C handlers cbor) = some s) :
    Keyed doc steps ∧ ∃ t, leaf = .str t ∧ s = bytesOf t.seen ∧
      string? ((payload steps).value C handlers json) = some (bytesOf t.text) := by
  by_cases keyed : Keyed doc steps
  · rw [encoded.value_cbor there keyed] at string
    rw [encoded.value_json there, if_pos (fits_of_keys keyed.1)]
    cases leaf with
    | str t =>
      rw [Doc.toCbor, t.value_toCbor] at string
      exact ⟨keyed, t, rfl, (Option.some.inj string).symm, rfl⟩
    | int width n range =>
      rw [Doc.toCbor] at string
      split at string <;> cases string
    | bool b => cases b <;> cases string
    | arr | map => exact scalar.elim
  · obtain ⟨e, refused⟩ := encoded.value_cbor_refused handlers there keyed
    rw [refused] at string
    cases string

/-- The same of a placeholder, whatever it goes to. -/
theorem Encoded.string_sub (encoded : Encoded C doc json cbor) (scalars : Scalar doc text) {s : Bytes}
    (string : string? (SubsEngine.evaluate C handlers cbor text).1 = some s) :
    ∃ s', string? (SubsEngine.evaluate C handlers json text).1 = some s' ∧ (s = s' ∨ s = []) ∧
      (s = s' ↔ KeyedText doc text) := by
  rcases leads_or text with ⟨steps, modifier, leads⟩ | elsewhere
  · obtain ⟨leaf, there, scalar⟩ := scalars steps modifier leads
    rw [leads.string] at string ⊢
    by_cases plain : modifier = none
    · rw [if_pos plain] at string ⊢
      obtain ⟨keyed, t, rfl, rfl, whole⟩ := encoded.string_cbor there scalar string
      refine ⟨bytesOf t.text, whole, ?_, ?_⟩
      · cases t with
        | whole s => exact .inl rfl
        | chunked chunks => exact .inr rfl
      · rw [bytesOf_inj, t.seen_eq_iff]
        constructor
        · intro legible steps' modifier' leads'
          obtain ⟨rfl, rfl⟩ := leads.unique leads'
          exact ⟨plain, keyed, t, there, legible⟩
        · intro all
          obtain ⟨-, -, t', there', legible⟩ := all steps modifier leads
          cases there.symm.trans there'
          exact legible
    · rw [if_neg plain] at string
      cases string
  · rw [encoded.evaluate_elsewhere elsewhere] at string
    exact ⟨s, string, .inl rfl, iff_of_true rfl fun steps modifier leads => absurd leads (elsewhere steps modifier)⟩

variable (handlers) in
theorem Encoded.string_same_iff (encoded : Encoded C doc json cbor) (scalars : Scalar doc text) :
    string? (SubsEngine.evaluate C handlers cbor text).1 = string? (SubsEngine.evaluate C handlers json text).1 ↔
      Refuses C handlers json doc text ∨ KeyedText doc text := by
  rw [refuses_iff handlers encoded scalars]
  cases string : string? (SubsEngine.evaluate C handlers cbor text).1 with
  | some s =>
    obtain ⟨s', whole, -, same⟩ := encoded.string_sub scalars string
    rw [whole, or_iff_right (by simp), ← same, Option.some.injEq]
  | none =>
    rw [eq_comm]
    refine (or_iff_left_of_imp fun keyed => ?_).symm
    rcases leads_or text with ⟨steps, modifier, leads⟩ | elsewhere
    · obtain ⟨plain, keys, t, there, -⟩ := keyed steps modifier leads
      rw [leads.string, if_pos plain, encoded.value_cbor there keys, Doc.toCbor, t.value_toCbor] at string
      cases string
    · rwa [encoded.evaluate_elsewhere elsewhere] at string

/-! ## A placeholder alone -/

variable (handlers) in
/-- No modifier takes a scalar of a document. -/
theorem Encoded.modified_refused (encoded : Encoded C doc json cbor) (leads : Leads text steps modifier)
    (there : doc.stored steps = some leaf) (scalar : leaf.IsScalar) (modifies : modifier ≠ none) :
    (∃ e, (SubsEngine.evaluate C handlers json text).1 = .error e) ∧
      ∃ e, (SubsEngine.evaluate C handlers cbor text).1 = .error e := by
  obtain ⟨m, rfl⟩ := Option.ne_none_iff_exists'.mp modifies
  have refused (env : EnvObjects) (value : ∀ data, (payload steps).value C handlers env ≠ .ok (.span data)) :
      ∃ e, (SubsEngine.evaluate C handlers env text).1 = .error e := by
    have bare : valueAt C handlers env msgName (.property payloadName :: steps) (some m) =
        (payload steps).value C handlers env >>= modified handlers m := by
      rw [Expression.value, valueAt, valueAt]
      simp [payload]
    rw [leads.evaluate, bare]
    cases came : (payload steps).value C handlers env with
    | error e => exact ⟨e, rfl⟩
    | ok v =>
      cases v with
      | span data => exact absurd came (value data)
      | boolean | double | long | string | json | uchars => exact ⟨_, rfl⟩
  refine ⟨refused json fun data same => ?_, refused cbor fun data same => ?_⟩
  · rw [encoded.value_json there] at same
    split at same
    · cases leaf with
      | int | bool | str => cases same
      | arr | map => exact scalar.elim
    · cases same
  · by_cases keyed : Keyed doc steps
    · rw [encoded.value_cbor there keyed] at same
      cases leaf with
      | int width n range =>
        rw [Doc.toCbor] at same
        split at same <;> cases same
      | bool b => cases b <;> cases same
      | str t =>
        rw [Doc.toCbor, t.value_toCbor] at same
        cases same
      | arr | map => exact scalar.elim
    · obtain ⟨e, refused⟩ := encoded.value_cbor_refused handlers there keyed
      cases refused.symm.trans same

/-- What becomes of the value of a path, for the two. -/
theorem Encoded.single_iff {α : Type} (encoded : Encoded C doc json cbor) (leads : Leads text steps modifier)
    (there : doc.stored steps = some leaf) (scalar : leaf.IsScalar) (f : Except Exn Substituted → Option α)
    (thrown : ∀ e, f (.error e) = none) (returned : f (ObjectProxy.json leaf.toJson).value ≠ none) :
    f (SubsEngine.evaluate C handlers json text).1 = f (SubsEngine.evaluate C handlers cbor text).1 ↔
      modifier ≠ none ∨ (∃ step ∈ steps, ¬ step.Fits) ∨ Keyed doc steps ∧
        f (ObjectProxy.json leaf.toJson).value = f (ObjectProxy.cbor (some leaf.toCbor)).value := by
  by_cases modifies : modifier ≠ none
  · obtain ⟨⟨e, here⟩, e', there'⟩ := encoded.modified_refused handlers leads there scalar modifies
    rw [here, there', thrown, thrown]
    exact iff_of_true rfl (.inl modifies)
  rw [or_iff_right modifies]
  obtain rfl := not_not.mp modifies
  have bare (env : EnvObjects) : (SubsEngine.evaluate C handlers env text).1 = (payload steps).value C handlers env :=
    leads.evaluate C handlers env
  rw [bare json, bare cbor, encoded.value_json there]
  by_cases keyed : Keyed doc steps
  · have fit := fits_of_keys keyed.1
    rw [if_pos fit, encoded.value_cbor there keyed, or_iff_right fun ⟨step, member, unfit⟩ => unfit (fit step member)]
    exact (and_iff_right keyed).symm
  · obtain ⟨e, refused⟩ := encoded.value_cbor_refused handlers there keyed
    rw [refused, thrown, or_iff_left fun both => keyed both.1]
    by_cases fit : ∀ step ∈ steps, step.Fits
    · rw [if_pos fit]
      exact iff_of_false returned fun ⟨step, member, unfit⟩ => unfit (fit step member)
    · rw [if_neg fit, thrown]
      exact iff_of_true rfl (by simpa using fit)

/-- Of two texts, one of which is seen as it is or not at all. -/
theorem stringOf_seen_iff (t : DocText) : stringOf (bytesOf t.text) = stringOf (bytesOf t.seen) ↔ t.Legible := by
  rw [stringOf, stringOf, textOf_bytesOf, textOf_bytesOf, Option.getD_some, Option.getD_some, eq_comm, t.seen_eq_iff]

/-- An integer is a text of the document and a number of the item. -/
theorem element_value_iff (scalar : leaf.IsScalar) :
    (ObjectProxy.json leaf.toJson).value.toOption.map Substituted.toJson =
        (ObjectProxy.cbor (some leaf.toCbor)).value.toOption.map Substituted.toJson ↔
      (∀ width n range, leaf ≠ .int width n range) ∧ ∀ t, leaf = .str t → t.Legible := by
  cases leaf with
  | int width n range =>
    refine iff_of_false ?_ fun none_ => none_.1 width n range rfl
    rw [Doc.toCbor]
    split <;> simp [Doc.toJson, ObjectProxy.value, Except.toOption, Substituted.toJson]
  | bool b =>
    have read : (ObjectProxy.cbor (some (Doc.bool b).toCbor)).value = .ok (.boolean b) := by cases b <;> rfl
    rw [read]
    simp [Doc.toJson, ObjectProxy.value, Except.toOption, Substituted.toJson]
  | str t =>
    rw [Doc.toCbor, t.value_toCbor]
    simp [Doc.toJson, ObjectProxy.value, Except.toOption, Substituted.toJson, stringOf_seen_iff]
  | arr | map => exact scalar.elim

/-- A payload is taken from a text or from a document. -/
theorem build_value_iff (scalar : leaf.IsScalar) :
    ((ObjectProxy.json leaf.toJson).value.toOption.bind fun v => v.toPayload.toOption) =
        ((ObjectProxy.cbor (some leaf.toCbor)).value.toOption.bind fun v => v.toPayload.toOption) ↔
      ∃ t, leaf = .str t ∧ t.Legible := by
  cases leaf with
  | int width n range =>
    refine iff_of_false ?_ (by simp)
    rw [Doc.toCbor]
    split <;> simp [Doc.toJson, ObjectProxy.value, Except.toOption, Substituted.toPayload]
  | bool b =>
    refine iff_of_false ?_ (by simp)
    cases b <;> simp [Doc.toJson, Doc.toCbor, ObjectProxy.value, Except.toOption, Substituted.toPayload]
  | str t =>
    rw [Doc.toCbor, t.value_toCbor]
    simp [Doc.toJson, ObjectProxy.value, Except.toOption, Substituted.toPayload, stringOf_seen_iff]
  | arr | map => exact scalar.elim

theorem value_json_returns (scalar : leaf.IsScalar) :
    ((ObjectProxy.json leaf.toJson).value.toOption.map Substituted.toJson) ≠ none ∧
      ((ObjectProxy.json leaf.toJson).value.toOption.bind fun v => v.toPayload.toOption) ≠ none := by
  cases leaf with
  | int | bool | str =>
    constructor
    · simp [Doc.toJson, ObjectProxy.value, Except.toOption]
    · simp [Doc.toJson, ObjectProxy.value, Except.toOption, Substituted.toPayload]
  | arr | map => exact scalar.elim

end Strings

open SubsEngine (answer elementAnswer buildAnswer written pattern Fits Single)
open Lib.Fuel (Same)

section Agree

variable {C : Codec} (handlers : ImageHandlers) {doc : Doc} {json cbor : EnvObjects} (encoded : Encoded C doc json cbor)

include encoded

/-- A template of several parts, whose values are written one after the other. -/
theorem templates_agree_iff {template last : Bytes} {pieces : List (Bytes × Bytes)}
    (split : pattern.Split template pieces last) (several : ∀ expression, ¬ Single template expression)
    (scalars : ∀ piece ∈ pieces, Scalar doc piece.2)
    (size : 1 < pieces.length → Fits pieces (pieces.map fun piece => written C handlers json piece.2)) :
    Same (answer C handlers template json) (answer C handlers template cbor) ↔
      (∃ piece ∈ pieces, Refuses C handlers json doc piece.2) ∨ ∀ piece ∈ pieces, KeyedText doc piece.2 := by
  have fits : Fits pieces (pieces.map fun piece => written C handlers json piece.2) := by
    by_cases more : 1 < pieces.length
    · exact size more
    · intro k inside
      rw [show k = 0 by omega]
      exact (by decide : 0 < UInt32.size)
  have sub (piece : Bytes × Bytes) (member : piece ∈ pieces) (s : Bytes)
      (string : string? (SubsEngine.evaluate C handlers cbor piece.2).1 = some s) :
      ∃ s', string? (SubsEngine.evaluate C handlers json piece.2).1 = some s' ∧ (s = s' ∨ s = []) := by
    obtain ⟨s', whole, part, -⟩ := encoded.string_sub (scalars piece member) string
    exact ⟨s', whole, part⟩
  have shorter : ∀ piece ∈ pieces, (written C handlers cbor piece.2).length ≤ (written C handlers json piece.2).length := by
    intro piece member
    unfold SubsEngine.written
    cases string : string? (SubsEngine.evaluate C handlers cbor piece.2).1 with
    | none => exact Nat.zero_le _
    | some s =>
      obtain ⟨s', whole, rfl | rfl⟩ := sub piece member s string
      · rw [whole]
      · exact Nat.zero_le _
  rw [Lib.Fuel.same_iff (SubsEngine.answer_steady template) (SubsEngine.answer_steady template)
    (SubsEngine.answer_ends split several fits) (SubsEngine.answer_ends split several (fits.shorter shorter)),
    SubsEngine.filled_eq_iff sub]
  have same (piece : Bytes × Bytes) (member : piece ∈ pieces) :=
    encoded.string_same_iff handlers (scalars piece member)
  have refuses (piece : Bytes × Bytes) (member : piece ∈ pieces) :=
    refuses_iff handlers encoded (scalars piece member)
  constructor
  · rintro (⟨piece, member, none_⟩ | all)
    · exact .inl ⟨piece, member, (refuses piece member).mpr none_⟩
    · by_cases refused : ∃ piece ∈ pieces, Refuses C handlers json doc piece.2
      · exact .inl refused
      · exact .inr fun piece member =>
          ((same piece member).mp (all piece member)).resolve_left fun here => refused ⟨piece, member, here⟩
  · rintro (⟨piece, member, refused⟩ | keyed)
    · exact .inl ⟨piece, member, (refuses piece member).mp refused⟩
    · exact .inr fun piece member => (same piece member).mpr (.inr (keyed piece member))

section Single

variable {text : String} {expression : Bytes} {steps : List Step} {modifier : Option ModifierDef} {leaf : Doc}
  (single : Single (bytesOf text) expression) (leads : Leads expression steps modifier)
  (there : doc.stored steps = some leaf) (scalar : leaf.IsScalar)

include single leads there scalar

/-- A string of a document that is one placeholder. -/
theorem element_agree_iff :
    Same (elementAnswer C handlers text json) (elementAnswer C handlers text cbor) ↔
      modifier ≠ none ∨ (∃ step ∈ steps, ¬ step.Fits) ∨
        Keyed doc steps ∧ (∀ width n range, leaf ≠ .int width n range) ∧ ∀ t, leaf = .str t → t.Legible := by
  rw [Lib.Fuel.same_iff (SubsEngine.elementAnswer_steady text) (SubsEngine.elementAnswer_steady text)
    (SubsEngine.elementAnswer_ends single) (SubsEngine.elementAnswer_ends single),
    encoded.single_iff leads there scalar (fun r => r.toOption.map Substituted.toJson) (fun _ => rfl)
      (value_json_returns scalar).1,
    element_value_iff scalar]

/-- A payload that is one placeholder. -/
theorem build_agree_iff :
    Same (buildAnswer C handlers text json) (buildAnswer C handlers text cbor) ↔
      modifier ≠ none ∨ (∃ step ∈ steps, ¬ step.Fits) ∨ Keyed doc steps ∧ ∃ t, leaf = .str t ∧ t.Legible := by
  rw [Lib.Fuel.same_iff (SubsEngine.buildAnswer_steady text) (SubsEngine.buildAnswer_steady text)
    (SubsEngine.buildAnswer_ends single) (SubsEngine.buildAnswer_ends single),
    encoded.single_iff leads there scalar (fun r => r.toOption.bind fun v => v.toPayload.toOption) (fun _ => rfl)
      (value_json_returns scalar).2,
    build_value_iff scalar]

end Single

end Agree

/-- **Encodings.** When a template, an element of a builder's payload and such a payload come
to the same for a document as JSON and as CBOR. -/
theorem encodings_agree_iff (C : Codec) (handlers : ImageHandlers) (doc : Doc) (json cbor : EnvObjects)
    (encoded : Encoded C doc json cbor) :
    (∀ (template last : Bytes) (pieces : List (Bytes × Bytes)), pattern.Split template pieces last →
      (∀ expression, ¬ Single template expression) → (∀ piece ∈ pieces, Scalar doc piece.2) →
      (1 < pieces.length → Fits pieces (pieces.map fun piece => written C handlers json piece.2)) →
      (Same (answer C handlers template json) (answer C handlers template cbor) ↔
        (∃ piece ∈ pieces, Refuses C handlers json doc piece.2) ∨ ∀ piece ∈ pieces, KeyedText doc piece.2)) ∧
    ∀ (text : String) (expression : Bytes) (steps : List Step) (modifier : Option ModifierDef) (leaf : Doc),
      Single (bytesOf text) expression → Leads expression steps modifier → doc.stored steps = some leaf →
      leaf.IsScalar →
      (Same (elementAnswer C handlers text json) (elementAnswer C handlers text cbor) ↔
        modifier ≠ none ∨ (∃ step ∈ steps, ¬ step.Fits) ∨
          Keyed doc steps ∧ (∀ width n range, leaf ≠ .int width n range) ∧ ∀ t, leaf = .str t → t.Legible) ∧
      (Same (buildAnswer C handlers text json) (buildAnswer C handlers text cbor) ↔
        modifier ≠ none ∨ (∃ step ∈ steps, ¬ step.Fits) ∨ Keyed doc steps ∧ ∃ t, leaf = .str t ∧ t.Legible) := by
  constructor
  · intro template last pieces split several scalars size
    exact templates_agree_iff handlers encoded split several scalars size
  · intro text expression steps modifier leaf single leads there scalar
    exact ⟨element_agree_iff handlers encoded single leads there scalar,
      build_agree_iff handlers encoded single leads there scalar⟩

/-! ### Instances -/

theorem encoded_messageEnv {C : Codec} {doc : Doc} {m m' : Message} (json : m.format = .json ∧ (m.getJson C).1 = .ok doc.toJson)
    (cbor : m'.format = .cbor ∧ (m'.getCbor C).1 = .ok (some doc.toCbor)) (topic : m'.msgTopic = m.msgTopic)
    (distinct : doc.Distinct) : Encoded C doc (messageEnv m) (messageEnv m') where
  messages := ⟨m, m', rfl, rfl, json, cbor, topic⟩
  others := fun name other => by simp [messageEnv, List.lookup_cons, beq_eq_false_iff_ne.mpr other]
  distinct := distinct

/-- The document with one text key and a scalar behind it. -/
theorem distinct_singleton {key : DocText} {leaf : Doc} (scalar : leaf.IsScalar) : (Doc.map [(key, leaf)]).Distinct := by
  intro steps entries there
  cases steps with
  | nil =>
    cases there
    simp
  | cons step steps =>
    obtain ⟨next, here, behind⟩ := Option.bind_eq_some_iff.mp there
    obtain rfl : next = leaf := by
      cases step with
      | index => cases here
      | property name =>
        obtain ⟨found, named, rfl⟩ := Option.map_eq_some_iff.mp here
        rw [List.mem_singleton.mp (List.mem_of_find?_eq_some named)]
    -- a scalar has no parts
    cases steps with
    | nil =>
      cases behind
      exact scalar.elim
    | cons step' steps =>
      obtain ⟨last, part, -⟩ := Option.bind_eq_some_iff.mp behind
      cases next with
      | int | bool | str => cases step' <;> cases part
      | arr | map => exact scalar.elim

/-- The text of the path `.a`. -/
def pathA : String := SubsEngine.shown (pattern.around (payload [stepA]).text)

theorem bytesOf_pathA : bytesOf pathA = pattern.around (payload [stepA]).text := bytesOf_shown (by decide)

/-- In `{"a": "x"}` it leads to a text for both. -/
theorem encodings_agree_text :
    Same (elementAnswer mapCodec none pathA (messageEnv (.ofJson (.object [("a", .string "x")]) .json "")))
      (elementAnswer mapCodec none pathA (messageEnv (.ofString [0xa1, 0x61, 0x61, 0x61, 0x78] .cbor ""))) := by
  have encoded : Encoded mapCodec (.map [(.whole "a", .str (.whole "x"))])
      (messageEnv (.ofJson (.object [("a", .string "x")]) .json ""))
      (messageEnv (.ofString [0xa1, 0x61, 0x61, 0x61, 0x78] .cbor "")) :=
    encoded_messageEnv ⟨rfl, rfl⟩ ⟨rfl, rfl⟩ rfl (distinct_singleton trivial)
  have agree := (encodings_agree_iff mapCodec none _ _ _ encoded).2 pathA _ [stepA] none (.str (.whole "x"))
    (bytesOf_pathA ▸ payload_alone [stepA]) (leads_payload [stepA]) rfl trivial
  refine agree.1.mpr (.inr (.inr ⟨⟨rfl, ?_, fun _ _ => trivial⟩, ?_, ?_⟩))
  · rintro pair ⟨⟩
    rfl
  · intro _ _ _ same
    cases same
  · rintro t ⟨⟩
    exact nofun

/-- In `{"a": 1}` it leads to a text or to a number. -/
theorem encodings_disagree_integer :
    ¬ ∀ (C : Codec) (handlers : ImageHandlers) (doc leaf : Doc) (json cbor : EnvObjects) (steps : List Step) (text : String),
      Encoded C doc json cbor → doc.stored steps = some leaf → leaf.IsScalar →
      bytesOf text = pattern.around (payload steps).text →
      Same (elementAnswer C handlers text json) (elementAnswer C handlers text cbor) := by
  intro all
  have range : -2 ^ 63 ≤ (1 : Int) ∧ (1 : Int) < 2 ^ 64 := by decide
  have encoded : Encoded mapCodec (.map [(.whole "a", .int .w8 1 range)])
      (messageEnv (.ofJson (.object [("a", .integer 1)]) .json "")) (messageEnv (.ofString [0xa1, 0x61, 0x61, 0x01] .cbor "")) :=
    encoded_messageEnv ⟨rfl, rfl⟩ ⟨rfl, rfl⟩ rfl (distinct_singleton trivial)
  have there : (Doc.map [(.whole "a", .int .w8 1 range)]).stored [stepA] = some (.int .w8 1 range) := rfl
  have same := all mapCodec none _ _ _ _ [stepA] pathA encoded there trivial bytesOf_pathA
  have agree := (element_agree_iff none encoded (bytesOf_pathA ▸ payload_alone [stepA]) (leads_payload [stepA]) there
    trivial).mp same
  rcases agree with none_ | ⟨step, member, unfit⟩ | ⟨-, noInteger, -⟩
  · exact none_ rfl
  · exact unfit (@fits_of_keys [stepA] rfl step member)
  · exact noInteger .w8 1 range rfl

end Grammar

end M2eBridge
