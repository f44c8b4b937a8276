import M2eBridge.Connectors.SqliteConnector

/-!
# The PostgreSQL connector

`PostgreSQLConnector`: its config, the prepared statement, and `do_send`, which passes all
values in one call. The placeholders of the statement carry numbers of their own.
`inserts_iff` says for both databases when the row is the one of the config.
-/

namespace M2eBridge

structure PostgreSQLConnector where
  base : Connector
  dbName : String
  dbHost : String
  dbPort : UInt32
  insertion : Insertion

namespace PostgreSQLConnector

/-- `PostgreSQLConnector::PostgreSQLConnector`. -/
def ofConfig (pipeid : String) (mode : ConnectorMode) (config : Json) :
    Except Exn PostgreSQLConnector := do
  let base ← Connector.ofConfig pipeid mode config
  let dbName ← (← config.at' "db_name").getString
  let dbHost ← (← config.at' "db_host").getString
  let dbPort ← (← config.at' "db_port").getUnsignedInt
  let table ← (← config.at' "table").getString
  .ok { base, dbName, dbHost, dbPort, insertion := ← Insertion.ofConfig config table }

theorem ofConfig_insertion {pipeid : String} {mode : ConnectorMode} {config : Json} {c : PostgreSQLConnector}
    (made : ofConfig pipeid mode config = .ok c) : Insertion.ofConfig config c.insertion.table = .ok c.insertion := by
  unfold ofConfig at made
  obtain ⟨base, -, made⟩ := bind_eq_ok.mp made
  obtain ⟨_, -, made⟩ := bind_eq_ok.mp made
  obtain ⟨dbName, -, made⟩ := bind_eq_ok.mp made
  obtain ⟨_, -, made⟩ := bind_eq_ok.mp made
  obtain ⟨dbHost, -, made⟩ := bind_eq_ok.mp made
  obtain ⟨_, -, made⟩ := bind_eq_ok.mp made
  obtain ⟨dbPort, -, made⟩ := bind_eq_ok.mp made
  obtain ⟨_, -, made⟩ := bind_eq_ok.mp made
  obtain ⟨table, -, made⟩ := bind_eq_ok.mp made
  obtain ⟨insertion, own, made⟩ := bind_eq_ok.mp made
  cases made
  rw [Insertion.ofConfig_table own]
  exact own

def placeholder (vcnt : UInt32) : String := "$" ++ toString vcnt.toNat

def connectionString (c : PostgreSQLConnector) (ab : AuthBundle) : Bytes :=
  bytesOf ("dbname=" ++ c.dbName ++ " user=") ++ ab.username ++ bytesOf " password=" ++ ab.password ++
    bytesOf (" host=" ++ c.dbHost ++ " port=" ++ toString c.dbPort.toNat)

/-- `do_connect`: the connection that it asks for, and the statement that it prepares. -/
def doConnect (o : SqliteOutcomes) (c : PostgreSQLConnector) : Except Exn (Bytes × String) := do
  match ← (AuthbundleTable.get o (bytesOf c.base.authbundleId)).1 with
  | none => .error ⟨.runtimeError, "Not able to retrieve authbundle!"⟩
  | some ab => .ok (c.connectionString ab, c.insertion.buildStatement placeholder)

/-- What the library keeps: the bytes that it takes of a text, a range, unless that is empty and without an address,
and any number. -/
def library (text : Bytes → Bytes) (nullEmpty : Bool) : Insertion.Library where
  text s := some (text s)
  blob data := if nullEmpty ∧ data = [] then none else some data
  real _ _ := true

section Send

variable {ω : Type} (substitute : ω → Bytes → Except Exn Substituted × ω) (library : Insertion.Library)

/-- The loop over the templates. -/
def paramsLoop : List String → List SqlValue → ω → Except Exn (List SqlValue) × ω
  | [], p, world => (.ok p, world)
  | vtemplate :: rest, p, world =>
    match substitute world (bytesOf vtemplate) with
    | (.error e, world) => (.error e, world)
    | (.ok v, world) =>
      match Insertion.dispatch library .boolean v with
      | .error e => (.error e, world)
      | .ok value => paramsLoop rest (p ++ [value]) world

/-- `do_send`, and the parameters of the prepared statement if it comes to its execution. -/
def doSend (transact : List SqlValue → Except Exn Unit) (c : PostgreSQLConnector) (world : ω) :
    Except Exn Unit × Option (List SqlValue) × ω :=
  match paramsLoop substitute library c.insertion.values [] world with
  | (.error e, world) => (.error e, none, world)
  | (.ok p, world) => (transact p, some p, world)

variable {substitute library}

/-! ## The row -/

/-- Value `k` is parameter `k + 1`, and the placeholder of a column says which one it takes. -/
def numbering : Insertion.Numbering where
  parameter i := (UInt32.ofNat (i + 1)).toNat
  number k := k + 1
  limit := 2 ^ 32 - 1
  same k inside := by
    rw [UInt32.toNat_ofNat']
    omega
  apart {j k} _ _ equal := by omega
  lost k := by
    rw [UInt32.toNat_ofNat']
    omega

/-- The statement is executed with a value of its own for each column. -/
def Inserts (c : PostgreSQLConnector) (vs : List Substituted) (executed : Option (List SqlValue)) : Prop :=
  ∃ p, executed = some p ∧
    Insertion.Corresponds numbering .boolean c.insertion.columns.length vs (Insertion.numbered numbering p)

theorem paramsLoop_all {world world' : ω} {templates : List String} {vs : List Substituted} {xs : List SqlValue}
    (substituted : Insertion.Substitutes substitute world templates vs world')
    (all : List.Forall₂ (fun v x => Insertion.dispatch library .boolean v = .ok x) vs xs) (p : List SqlValue) :
    paramsLoop substitute library templates p world = (.ok (p ++ xs), world') := by
  induction substituted generalizing xs p with
  | nil =>
    cases all
    simp [paramsLoop]
  | cons first rest ih =>
    cases all with
    | @cons _ x _ xs bound all =>
      simp only [paramsLoop, first, bound, ih all]
      simp

theorem paramsLoop_document {world world' : ω} {templates : List String} {vs : List Substituted} {j : Json}
    (substituted : Insertion.Substitutes substitute world templates vs world') (document : .json j ∈ vs)
    (p : List SqlValue) : ∃ e w', paramsLoop substitute library templates p world = (.error e, w') := by
  induction substituted generalizing p with
  | nil => cases document
  | @cons world world' _ vtemplate v templates vs first rest ih =>
    simp only [paramsLoop, first]
    cases bound : Insertion.dispatch library .boolean v with
    | error e => exact ⟨e, _, rfl⟩
    | ok x =>
      have behind : .json j ∈ vs := by
        rcases List.mem_cons.mp document with rfl | behind
        · cases bound
        · exact behind
      exact ih behind _

/-- The row is the one of the config exactly if there are as many templates as columns, an
`unsigned` counts them, and every value is passed as it is. -/
theorem row_iff {transact : List SqlValue → Except Exn Unit} {c : PostgreSQLConnector} {world world' : ω}
    {vs : List Substituted} (substituted : Insertion.Substitutes substitute world c.insertion.values vs world') :
    c.Inserts vs (doSend substitute library transact c world).2.1 ↔
      c.insertion.values.length = c.insertion.columns.length ∧ c.insertion.columns.length < 2 ^ 32 ∧
        ∀ v ∈ vs, Insertion.Survives library v := by
  unfold doSend Inserts
  rcases Insertion.dispatched library .boolean vs with ⟨xs, all⟩ | ⟨j, document⟩
  · have row := Insertion.corresponds_iff numbering c.insertion.columns.length all
    have small : c.insertion.columns.length ≤ numbering.limit ↔ c.insertion.columns.length < 2 ^ 32 := by
      simp [numbering]
      omega
    rw [substituted.length, small] at row
    simpa [paramsLoop_all substituted all []] using row
  · obtain ⟨e, w', looped⟩ : ∃ e w', paramsLoop substitute library c.insertion.values [] world = (.error e, w') :=
      paramsLoop_document substituted document []
    refine iff_of_false ?_ fun fine => fine.2.2 _ document
    rintro ⟨p, executed, -⟩
    simp [looped] at executed

end Send

end PostgreSQLConnector

/-! ## Both databases -/

/-- **The rows of the two connectors.** For a config that the constructors take: the statement has the columns that it
lists, a placeholder for each and as many values bound to them, each column getting the value of its own template,
exactly if the config has a text where the lists should be, and its value is one that the database library takes as it
is. Of a list of two the braces leave the second. -/
theorem inserts_iff {ω : Type} (substitute : ω → Bytes → Except Exn Substituted × ω) (config : Json) (pipeid : String)
    (mode : ConnectorMode) (vs : List Substituted) (world world' : ω)
    (substituted : Insertion.Substitutes substitute world (Insertion.texts (Insertion.entry config "values")) vs world') :
    (∀ (limit : Nat) (nullEmpty : Bool) (o : SqliteOutcomes) (c : SQLiteConnector), o.opening = .ok → o.prepares = true →
      SQLiteConnector.ofConfig pipeid mode config = .ok c →
        c.doConnect.statement =
          ("INSERT INTO " ++ c.insertion.table ++ "(" ++ ", ".intercalate c.insertion.columns ++ ")") ++
            (" VALUES(" ++ ", ".intercalate (c.insertion.placeholders SQLiteConnector.placeholder) ++ ")") ∧
        (c.insertion.Follows SQLiteConnector.placeholder (Insertion.texts (Insertion.entry config "columns")) vs
            (c.Inserts vs (c.doConnect.doSend substitute (SQLiteConnector.library limit nullEmpty) o world).2.1) ↔
          Insertion.isArray (Insertion.entry config "columns") = false ∧
            Insertion.isArray (Insertion.entry config "values") = false ∧
            ∀ v ∈ vs, Insertion.Survives (SQLiteConnector.library limit nullEmpty) v)) ∧
    ∀ (text : Bytes → Bytes) (nullEmpty : Bool) (transact : List SqlValue → Except Exn Unit) (c : PostgreSQLConnector),
      PostgreSQLConnector.ofConfig pipeid mode config = .ok c →
        c.insertion.buildStatement PostgreSQLConnector.placeholder =
          ("INSERT INTO " ++ c.insertion.table ++ "(" ++ ", ".intercalate c.insertion.columns ++ ")") ++
            (" VALUES(" ++ ", ".intercalate (c.insertion.placeholders PostgreSQLConnector.placeholder) ++ ")") ∧
        (c.insertion.Follows PostgreSQLConnector.placeholder (Insertion.texts (Insertion.entry config "columns")) vs
            (c.Inserts vs (c.doSend substitute (PostgreSQLConnector.library text nullEmpty) transact world).2.1) ↔
          Insertion.isArray (Insertion.entry config "columns") = false ∧
            Insertion.isArray (Insertion.entry config "values") = false ∧
            ∀ v ∈ vs, Insertion.Survives (PostgreSQLConnector.library text nullEmpty) v) := by
  constructor
  · intro limit nullEmpty o c opening prepares made
    refine ⟨c.insertion.buildStatement_eq _, ?_⟩
    exact Insertion.follows_iff (SQLiteConnector.ofConfig_insertion made) _ substituted (by decide) fun own =>
      SQLiteConnector.row_iff opening prepares own
  · intro text nullEmpty transact c made
    refine ⟨c.insertion.buildStatement_eq _, ?_⟩
    exact Insertion.follows_iff (PostgreSQLConnector.ofConfig_insertion made) _ substituted (by decide) fun own =>
      PostgreSQLConnector.row_iff own

namespace Insertion

/-- An engine for templates without placeholders. -/
def echo (world : Unit) (vtemplate : Bytes) : Except Exn Substituted × Unit := (.ok (.string vtemplate), world)

theorem substitutes_echo (templates : List String) :
    Substitutes echo () templates (templates.map fun vtemplate => .string (bytesOf vtemplate)) () := by
  induction templates with
  | nil => exact .nil
  | cons vtemplate rest ih => exact .cons rfl ih

/-- A config for both databases. -/
def rowConfig (columns values : Json) : Json :=
  .object [("columns", columns), ("db_host", .string "h"), ("db_name", .string "n"), ("db_path", .string "d"),
    ("db_port", .integer 5432), ("table", .string "t"), ("values", values)]

def oneColumn (column value : String) : Insertion := { table := "t", columns := [column], values := [value] }

end Insertion

theorem inserts_iff_one :
    (SQLiteConnector.mk .plain "d" (.oneColumn "a" "x") "").Inserts [.string (bytesOf "x")]
        ((SQLiteConnector.mk .plain "d" (.oneColumn "a" "x") "").doConnect.doSend Insertion.echo
          (SQLiteConnector.library 1000000000 false) .good ()).2.1 ∧
      (PostgreSQLConnector.mk .plain "n" "h" 5432 (.oneColumn "a" "x")).Inserts [.string (bytesOf "x")]
        ((PostgreSQLConnector.mk .plain "n" "h" 5432 (.oneColumn "a" "x")).doSend Insertion.echo
          (PostgreSQLConnector.library id false) (fun _ => .ok ()) ()).2.1 := by
  have substituted : Insertion.Substitutes Insertion.echo ()
      (Insertion.texts (Insertion.entry (Insertion.rowConfig (.string "a") (.string "x")) "values"))
      [.string (bytesOf "x")] () := Insertion.substitutes_echo ["x"]
  have rows := inserts_iff Insertion.echo (Insertion.rowConfig (.string "a") (.string "x")) "p" .output _ () () substituted
  constructor
  · refine ((rows.1 1000000000 false .good _ rfl rfl rfl).2.mpr ⟨rfl, rfl, ?_⟩).inserts
    have clean : (SQLiteConnector.library 1000000000 false).text (bytesOf "x") = some (bytesOf "x") := by decide
    simpa [Insertion.Survives] using clean
  · refine ((rows.2 id false _ _ rfl).2.mpr ⟨rfl, rfl, ?_⟩).inserts
    simp [Insertion.Survives, PostgreSQLConnector.library]

/-- Of two columns one is left, and of two templates. -/
theorem lost_column :
    ¬ ∀ (config : Json) (c : SQLiteConnector), SQLiteConnector.ofConfig "p" .output config = .ok c →
      ∀ vs, Insertion.Substitutes Insertion.echo () (Insertion.texts (Insertion.entry config "values")) vs () →
        c.insertion.Follows SQLiteConnector.placeholder (Insertion.texts (Insertion.entry config "columns")) vs
          (c.Inserts vs (c.doConnect.doSend Insertion.echo (SQLiteConnector.library 1000000000 false) .good ()).2.1) := by
  intro all
  have follows := all (Insertion.rowConfig (.array [.string "a", .string "b"]) (.array [.string "x", .string "y"]))
    ⟨.plain, "d", .oneColumn "b" "y", ""⟩ rfl _ (Insertion.substitutes_echo ["x", "y"])
  cases congrArg List.length follows.listed

end M2eBridge
