import Mathlib.Algebra.Ring.Nat
import Mathlib.Data.List.Forall2
import M2eBridge.Connectors.Connector
import M2eBridge.Database.Sqlite

/-!
# Rows to insert

What the connectors to SQLite and to PostgreSQL have in common: the two lists of their
config, which their constructors take through a braced initialization, the text of the statement,
with a placeholder for each column, and the choice of what is bound for a substituted value.
-/

namespace M2eBridge

/-- `auto j {value}`: the constructor from a list of initializers, of which the value is the only one. A list
whose elements are all pairs with a text in front becomes an object, any other an array. -/
def Json.braced : Json → Json
  | .array [.string key, value] => .object [(key, value)]
  | j => .array [j]

/-- `vector<string>(j.begin(), j.end())`. -/
def Json.getStrings (j : Json) : Except Exn (List String) := j.elements.mapM Json.getString

/-- The target of an insertion and the templates of its values. -/
structure Insertion where
  table : String
  columns : List String
  values : List String
  deriving DecidableEq

namespace Insertion

/-- The two lists of a config. -/
def ofConfig (config : Json) (table : String) : Except Exn Insertion := do
  let columns ← (← config.at' "columns").braced.getStrings
  let values ← (← config.at' "values").braced.getStrings
  .ok { table, columns, values }

/-- The rest of the columns, with the two streams and the number of the placeholder before. -/
def statementLoop (placeholder : UInt32 → String) : List String → UInt32 → String × String → String × String
  | [], _, streams => streams
  | column :: rest, vcnt, (into, values) =>
    statementLoop placeholder rest (vcnt + 1) (into ++ ", " ++ column, values ++ ", " ++ placeholder (vcnt + 1))

/-- `build_statement`. -/
def buildStatement (r : Insertion) (placeholder : UInt32 → String) : String :=
  let into := "INSERT INTO " ++ r.table ++ "("
  let values := " VALUES("
  let (into, values) :=
    match r.columns with
    | [] => (into, values)
    | column :: rest => statementLoop placeholder rest 1 (into ++ column, values ++ placeholder 1)
  (into ++ ")") ++ (values ++ ")")

/-! ## The statement -/

/-- The placeholders in the order of their columns. -/
def placeholders (r : Insertion) (placeholder : UInt32 → String) : List String :=
  (List.range' 1 r.columns.length).map fun i => placeholder (.ofNat i)

theorem placeholders_length (r : Insertion) (placeholder : UInt32 → String) :
    (r.placeholders placeholder).length = r.columns.length := by
  simp [placeholders]

theorem statementLoop_eq (placeholder : UInt32 → String) (rest : List String) (k : Nat) (into values : String) :
    statementLoop placeholder rest (.ofNat k) (into, values) =
      (", ".intercalate (into :: rest),
        ", ".intercalate (values :: (List.range' (k + 1) rest.length).map fun i => placeholder (.ofNat i))) := by
  induction rest generalizing k into values with
  | nil => simp [statementLoop]
  | cons column rest ih =>
    have next : UInt32.ofNat k + 1 = .ofNat (k + 1) := (UInt32.ofNat_add k 1).symm
    rw [statementLoop, next, ih, List.length_cons, List.range'_succ, List.map_cons, String.intercalate_cons_cons,
      String.intercalate_cons_cons, String.intercalate_cons_append, String.intercalate_cons_append]

/-- The text of the statement: as many placeholders as columns. -/
theorem buildStatement_eq (r : Insertion) (placeholder : UInt32 → String) :
    r.buildStatement placeholder =
      ("INSERT INTO " ++ r.table ++ "(" ++ ", ".intercalate r.columns ++ ")") ++
        (" VALUES(" ++ ", ".intercalate (r.placeholders placeholder) ++ ")") := by
  unfold buildStatement placeholders
  cases columns : r.columns with
  | nil => simp
  | cons column rest =>
    have first := statementLoop_eq placeholder rest 1 ("INSERT INTO " ++ r.table ++ "(" ++ column)
      (" VALUES(" ++ placeholder 1)
    have one : UInt32.ofNat 1 = 1 := rfl
    rw [one] at first
    simp only [first, String.intercalate_cons_append, List.length_cons, List.range'_succ, List.map_cons, one]

/-! ## What is bound -/

/-- The value of a column for a substituted value; there is none for a document. -/
def stored (boolean : Bool → SqlValue) : Substituted → Option SqlValue
  | .boolean b => some (boolean b)
  | .double width bits => some (.real width bits)
  | .long n => some (.integer n)
  | .string s => some (.text s)
  | .json _ => none
  | .span data | .uchars data => some (.blob data)

def unexpectedValue : Exn := ⟨.runtimeError, "Unexpected substituted value!"⟩

/-- What a database library keeps of the values that it is given, `none` where that is NULL. -/
structure Library where
  text : Bytes → Option Bytes
  blob : Bytes → Option Bytes
  /-- The number is kept. -/
  real : CborWidth → UInt64 → Bool

/-- The dispatch of `do_send`, with what the parameter has then. What the call returns is not looked at. -/
def dispatch (library : Library) (boolean : Bool → SqlValue) : Substituted → Except Exn SqlValue
  | .uchars data | .span data => .ok ((library.blob data).elim .null .blob)
  | .string s => .ok ((library.text s).elim .null .text)
  | .double width bits => .ok (if library.real width bits then .real width bits else .null)
  | .long n => .ok (.integer n)
  | .boolean b => .ok (boolean b)
  | .json _ => .error unexpectedValue

/-- The value is kept as it is. -/
def Survives (library : Library) : Substituted → Prop
  | .json _ => False
  | .string s => library.text s = some s
  | .uchars data | .span data => library.blob data = some data
  | .double width bits => library.real width bits = true
  | _ => True

variable {library : Library} {boolean : Bool → SqlValue}

theorem dispatch_ok_iff (library : Library) (boolean : Bool → SqlValue) (v : Substituted) :
    (∃ x, dispatch library boolean v = .ok x) ↔ ∀ j, v ≠ .json j := by
  cases v <;> simp [dispatch]

theorem stored_ne_none {v : Substituted} {x : SqlValue} (bound : dispatch library boolean v = .ok x) :
    stored boolean v ≠ none := by
  cases v with
  | json j => cases bound
  | _ => simp [stored]

theorem survives_iff {v : Substituted} {x : SqlValue} (bound : dispatch library boolean v = .ok x) :
    stored boolean v = some x ↔ Survives library v := by
  cases v with
  | json j => cases bound
  | string s =>
    cases bound
    cases kept : library.text s <;> simp [stored, Survives, kept, eq_comm]
  | span data | uchars data =>
    cases bound
    cases kept : library.blob data <;> simp [stored, Survives, kept, eq_comm]
  | double width bits =>
    cases bound
    cases kept : library.real width bits <;> simp [stored, Survives, kept]
  | long | boolean =>
    cases bound
    exact iff_of_true rfl trivial

/-- The templates are substituted one after another, by an engine that has a state. -/
inductive Substitutes {ω : Type} (substitute : ω → Bytes → Except Exn Substituted × ω) :
    ω → List String → List Substituted → ω → Prop where
  | nil {world : ω} : Substitutes substitute world [] [] world
  | cons {world world' world'' : ω} {vtemplate : String} {v : Substituted} {templates : List String}
      {vs : List Substituted} (first : substitute world (bytesOf vtemplate) = (.ok v, world'))
      (rest : Substitutes substitute world' templates vs world'') :
      Substitutes substitute world (vtemplate :: templates) (v :: vs) world''

theorem Substitutes.length {ω : Type} {substitute : ω → Bytes → Except Exn Substituted × ω} {world world' : ω}
    {templates : List String} {vs : List Substituted} (done : Substitutes substitute world templates vs world') :
    vs.length = templates.length := by
  induction done with
  | nil => rfl
  | cons _ _ ih => simp [ih]

/-- Every value can be bound, or one of them is a document. -/
theorem dispatched (library : Library) (boolean : Bool → SqlValue) (vs : List Substituted) :
    (∃ xs, List.Forall₂ (fun v x => dispatch library boolean v = .ok x) vs xs) ∨ ∃ j, .json j ∈ vs := by
  induction vs with
  | nil => exact .inl ⟨[], .nil⟩
  | cons v vs ih =>
    by_cases document : ∃ j, v = .json j
    · obtain ⟨j, rfl⟩ := document
      exact .inr ⟨j, List.mem_cons_self⟩
    · obtain ⟨x, bound⟩ := (dispatch_ok_iff library boolean v).mpr
        fun j same => document ⟨j, same⟩
      rcases ih with ⟨xs, all⟩ | ⟨j, member⟩
      · exact .inl ⟨x :: xs, .cons bound all⟩
      · exact .inr ⟨j, List.mem_cons_of_mem v member⟩

/-! ## Rows -/

/-- How the placeholders are numbered, and how the values that are bound to them. -/
structure Numbering where
  parameter : Nat → Int
  number : Nat → Int
  /-- The numbers of the two agree so far. -/
  limit : Nat
  same : ∀ k < limit, number k = parameter k
  apart : ∀ {j k}, j < limit → k < limit → number j = number k → j = k
  lost : ∀ k, number k ≠ parameter limit

variable (N : Numbering)

def numbered (xs : List SqlValue) : List (Int × SqlValue) := xs.mapIdx fun k x => (N.number k, x)

/-- The value of a parameter is the last that was bound to it, and NULL if none was. -/
def cell (bound : List (Int × SqlValue)) (parameter : Int) : Option SqlValue := bound.reverse.lookup parameter

/-- As many values are bound as there are columns, and each column gets the value of its template. -/
structure Corresponds (boolean : Bool → SqlValue) (columns : Nat) (vs : List Substituted)
    (bound : List (Int × SqlValue)) : Prop where
  count : bound.length = columns
  each : ∀ i < columns, ∃ v, vs[i]? = some v ∧ cell bound (N.parameter i) = stored boolean v

theorem numbered_concat (xs : List SqlValue) (x : SqlValue) :
    numbered N (xs ++ [x]) = numbered N xs ++ [(N.number xs.length, x)] := List.mapIdx_concat

theorem cell_numbered {xs : List SqlValue} (small : xs.length ≤ N.limit) {i : Nat} (inside : i < N.limit) :
    cell (numbered N xs) (N.parameter i) = xs[i]? := by
  induction xs using List.reverseRecOn with
  | nil => rfl
  | append_singleton xs x ih =>
    have last : xs.length < N.limit := by
      rw [List.length_append, List.length_singleton] at small
      omega
    rw [cell, numbered_concat, List.reverse_append, List.reverse_singleton, List.singleton_append, List.lookup_cons]
    by_cases here : i = xs.length
    · subst here
      simp [N.same _ inside]
    · have other : (N.parameter i == N.number xs.length) = false := by
        rw [beq_eq_false_iff_ne, ← N.same i inside]
        exact fun equal => here (N.apart inside last equal)
      rw [other]
      refine (ih (Nat.le_of_lt last)).trans ?_
      rcases Nat.lt_or_gt_of_ne here with before | behind
      · rw [List.getElem?_append_left before]
      · rw [List.getElem?_eq_none (Nat.le_of_lt behind), List.getElem?_eq_none (by simp; omega)]

/-- The placeholder at the limit gets nothing. -/
theorem cell_lost (xs : List SqlValue) : cell (numbered N xs) (N.parameter N.limit) = none := by
  rw [cell, List.lookup_eq_none_iff]
  intro bound member
  obtain ⟨k, inside, rfl⟩ := List.mem_mapIdx.mp (List.mem_reverse.mp member)
  exact bne_iff_ne.mpr (N.lost k).symm

theorem corresponds_iff (columns : Nat) {vs : List Substituted} {xs : List SqlValue}
    (all : List.Forall₂ (fun v x => dispatch library boolean v = .ok x) vs xs) :
    Corresponds N boolean columns vs (numbered N xs) ↔
      vs.length = columns ∧ columns ≤ N.limit ∧ ∀ v ∈ vs, Survives library v := by
  have size := all.length_eq
  have paired : ∀ {i : Nat} {v : Substituted}, vs[i]? = some v →
      ∃ x, xs[i]? = some x ∧ dispatch library boolean v = .ok x := by
    intro i v found
    obtain ⟨inside, rfl⟩ := List.getElem?_eq_some_iff.mp found
    exact ⟨xs.get ⟨i, size ▸ inside⟩, List.getElem?_eq_getElem _, all.get inside (size ▸ inside)⟩
  constructor
  · rintro ⟨count, each⟩
    have length : vs.length = columns := by simpa [numbered, size] using count
    have small : columns ≤ N.limit := by
      by_contra more
      obtain ⟨v, found, got⟩ := each N.limit (Nat.lt_of_not_le more)
      obtain ⟨x, -, bound⟩ := paired found
      rw [cell_lost] at got
      exact stored_ne_none bound got.symm
    refine ⟨length, small, fun v member => ?_⟩
    obtain ⟨i, found⟩ := List.mem_iff_getElem?.mp member
    obtain ⟨x, there, bound⟩ := paired found
    have inside : i < columns := length ▸ (List.getElem?_eq_some_iff.mp found).1
    obtain ⟨v', found', got⟩ := each i inside
    rw [cell_numbered N (by omega) (Nat.lt_of_lt_of_le inside small), there] at got
    rw [← survives_iff bound, Option.some.inj (found.symm.trans found'), ← got]
  · rintro ⟨length, small, survive⟩
    refine ⟨by simp [numbered, ← size, length], fun i inside => ?_⟩
    have found : vs[i]? = some vs[i] := List.getElem?_eq_getElem (length ▸ inside)
    obtain ⟨x, there, bound⟩ := paired found
    refine ⟨_, found, ?_⟩
    rw [cell_numbered N (by omega) (Nat.lt_of_lt_of_le inside small), there]
    exact ((survives_iff bound).mpr (survive _ (List.mem_of_getElem? found))).symm

/-! ## The lists of the config -/

/-- What the config has under the key. -/
def entry (config : Json) (key : String) : Json := (config.find? key).getD .null

def isArray : Json → Bool
  | .array _ => true
  | _ => false

/-- The texts that the config lists; one text is a list of its own. -/
def texts : Json → List String
  | .string s => [s]
  | .array items => items.flatMap texts'
  | _ => []
where
  texts' : Json → List String
    | .string s => [s]
    | _ => []

theorem getStrings_one {j : Json} {l : List String} : (Json.array [j]).getStrings = .ok l ↔ ∃ s, j = .string s ∧ l = [s] := by
  rw [Json.getStrings, Json.elements, List.mapM_cons, List.mapM_nil]
  cases j <;> simp [Json.getString, bind, Except.bind, pure, Except.pure, eq_comm]

/-- Behind the braces there is one text: what was one, or the second of two. -/
theorem getStrings_braced {j : Json} {l : List String} (read : j.braced.getStrings = .ok l) :
    (∃ s, j = .string s ∧ l = [s]) ∨ ∃ a b, j = .array [.string a, .string b] ∧ l = [b] := by
  unfold Json.braced at read
  split at read
  · next key value =>
    obtain ⟨b, rfl, rfl⟩ := getStrings_one.mp read
    exact .inr ⟨key, b, rfl, rfl⟩
  · exact .inl (getStrings_one.mp read)

theorem braced_length {j : Json} {l : List String} (read : j.braced.getStrings = .ok l) : l.length = 1 := by
  obtain ⟨s, -, rfl⟩ | ⟨a, b, -, rfl⟩ := getStrings_braced read
  · rfl
  · rfl

/-- All the texts are kept where they are no list. -/
theorem texts_kept_iff {j : Json} {l : List String} (read : j.braced.getStrings = .ok l) :
    l = texts j ↔ isArray j = false := by
  obtain ⟨s, rfl, rfl⟩ | ⟨a, b, rfl, rfl⟩ := getStrings_braced read
  · exact iff_of_true rfl rfl
  · exact iff_of_false (fun same => by cases congrArg List.length same) (by simp [isArray])

theorem texts_one_iff {j : Json} {l : List String} (read : j.braced.getStrings = .ok l) :
    (texts j).length = 1 ↔ isArray j = false := by
  obtain ⟨s, rfl, rfl⟩ | ⟨a, b, rfl, rfl⟩ := getStrings_braced read
  · exact iff_of_true rfl rfl
  · exact iff_of_false (by simp [texts, texts.texts']) (by simp [isArray])

theorem ofConfig_entries {config : Json} {table : String} {r : Insertion} (made : ofConfig config table = .ok r) :
    (entry config "columns").braced.getStrings = .ok r.columns ∧ (entry config "values").braced.getStrings = .ok r.values := by
  unfold ofConfig at made
  obtain ⟨jc, columns, made⟩ := bind_eq_ok.mp made
  obtain ⟨lc, readColumns, made⟩ := bind_eq_ok.mp made
  obtain ⟨jv, values, made⟩ := bind_eq_ok.mp made
  obtain ⟨lv, readValues, made⟩ := bind_eq_ok.mp made
  cases made
  rw [entry, entry, Json.at_eq_ok.mp columns, Json.at_eq_ok.mp values]
  exact ⟨readColumns, readValues⟩

theorem ofConfig_table {config : Json} {table : String} {r : Insertion} (made : ofConfig config table = .ok r) :
    r.table = table := by
  unfold ofConfig at made
  obtain ⟨_, -, made⟩ := bind_eq_ok.mp made
  obtain ⟨_, -, made⟩ := bind_eq_ok.mp made
  obtain ⟨_, -, made⟩ := bind_eq_ok.mp made
  obtain ⟨_, -, made⟩ := bind_eq_ok.mp made
  cases made
  rfl

/-- The statement is for the columns that the config lists, with a placeholder for each, there are as many templates,
and what is inserted is a value of its own for each. -/
structure Follows (r : Insertion) (placeholder : UInt32 → String) (columns : List String) (vs : List Substituted)
    (inserts : Prop) : Prop where
  listed : r.columns = columns
  placeholders : (r.placeholders placeholder).length = columns.length
  templates : vs.length = columns.length
  inserts : inserts

/-- For a config that the constructor takes, from what the insertion itself does. -/
theorem follows_iff {ω : Type} {substitute : ω → Bytes → Except Exn Substituted × ω} {world world' : ω}
    {config : Json} {table : String} {r : Insertion} (made : ofConfig config table = .ok r) (placeholder : UInt32 → String)
    {vs : List Substituted} (substituted : Substitutes substitute world (texts (entry config "values")) vs world')
    {limit : Nat} (some_ : 1 < limit) {inserts survive : Prop}
    (row : Substitutes substitute world r.values vs world' →
      (inserts ↔ r.values.length = r.columns.length ∧ r.columns.length < limit ∧ survive)) :
    Follows r placeholder (texts (entry config "columns")) vs inserts ↔
      isArray (entry config "columns") = false ∧ isArray (entry config "values") = false ∧ survive := by
  obtain ⟨columns, values⟩ := ofConfig_entries made
  have oneColumn := braced_length columns
  have oneValue := braced_length values
  constructor
  · rintro ⟨listed, -, templates, inserted⟩
    have single : (texts (entry config "values")).length = 1 := by
      rw [← substituted.length, templates, ← listed, oneColumn]
    have noList := (texts_one_iff values).mp single
    rw [← (texts_kept_iff values).mpr noList] at substituted
    exact ⟨(texts_kept_iff columns).mp listed, noList, ((row substituted).mp inserted).2.2⟩
  · rintro ⟨noColumns, noValues, survive⟩
    have listed := (texts_kept_iff columns).mpr noColumns
    rw [← (texts_kept_iff values).mpr noValues] at substituted
    exact {
      listed
      placeholders := by rw [placeholders_length, listed]
      templates := by rw [substituted.length, oneValue, ← listed, oneColumn]
      inserts := (row substituted).mpr ⟨by rw [oneValue, oneColumn], by omega, survive⟩ }

end Insertion

end M2eBridge
