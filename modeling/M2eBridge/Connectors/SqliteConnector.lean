import M2eBridge.Connectors.Insertion
import M2eBridge.Database.Authbundle

/-!
# The SQLite connector

`SQLiteConnector`: what its constructor takes of a config, the statement, and `do_send`,
which opens the database for one row. A value is bound as soon as its template has been
substituted, so that an exception of a template or of the dispatch leaves the statement
and the connection behind.
-/

namespace M2eBridge

structure SQLiteConnector where
  base : Connector
  dbPath : String
  insertion : Insertion
  statement : String := ""

namespace SQLiteConnector

/-- `SQLiteConnector::SQLiteConnector`. -/
def ofConfig (pipeid : String) (mode : ConnectorMode) (config : Json) :
    Except Exn SQLiteConnector := do
  let base ← Connector.ofConfig pipeid mode config
  let dbPath ← (← config.at' "db_path").getString
  let table ← (← config.at' "table").getString
  .ok { base, dbPath, insertion := ← Insertion.ofConfig config table }

theorem ofConfig_insertion {pipeid : String} {mode : ConnectorMode} {config : Json} {c : SQLiteConnector}
    (made : ofConfig pipeid mode config = .ok c) : Insertion.ofConfig config c.insertion.table = .ok c.insertion := by
  unfold ofConfig at made
  obtain ⟨base, -, made⟩ := bind_eq_ok.mp made
  obtain ⟨_, -, made⟩ := bind_eq_ok.mp made
  obtain ⟨dbPath, -, made⟩ := bind_eq_ok.mp made
  obtain ⟨_, -, made⟩ := bind_eq_ok.mp made
  obtain ⟨table, -, made⟩ := bind_eq_ok.mp made
  obtain ⟨insertion, own, made⟩ := bind_eq_ok.mp made
  cases made
  rw [Insertion.ofConfig_table own]
  exact own

/-- A placeholder is numbered by its place. -/
def placeholder (_ : UInt32) : String := "?"

def doConnect (c : SQLiteConnector) : SQLiteConnector :=
  { c with statement := c.insertion.buildStatement placeholder }

/-- `std::get<bool>` is bound as a number. -/
def ofBool (b : Bool) : SqlValue := .integer (if b then 1 else 0)

/-- A floating point item that is no number. -/
def isNaN : CborWidth → UInt64 → Bool
  | .w8, _ => false
  | .w16, bits => bits.toNat / 2 ^ 10 % 2 ^ 5 = 2 ^ 5 - 1 ∧ bits.toNat % 2 ^ 10 ≠ 0
  | .w32, bits => bits.toNat / 2 ^ 23 % 2 ^ 8 = 2 ^ 8 - 1 ∧ bits.toNat % 2 ^ 23 ≠ 0
  | .w64, bits => bits.toNat / 2 ^ 52 % 2 ^ 11 = 2 ^ 11 - 1 ∧ bits.toNat % 2 ^ 52 ≠ 0

/-- What SQLite keeps: a text is bound with the length `-1`, the size of a range is passed as an `int`, of which a
negative one is not defined, a length over the limit is refused, and NaN is stored as NULL. Of an empty range the
address may be null, which is NULL as well. -/
def library (limit : Nat) (nullEmpty : Bool) : Insertion.Library where
  text s := if (cString s).length ≤ limit then some (cString s) else none
  blob data :=
    let size := (UInt32.ofNat data.length).toInt32.toInt
    if (nullEmpty ∧ data = []) ∨ size < 0 ∨ limit < size then none else some (data.take size.toNat)
  real width bits := !isNaN width bits

section Send

variable {ω : Type} (substitute : ω → Bytes → Except Exn Substituted × ω) (library : Insertion.Library)

/-- The loop over the templates; `pix` is passed as an `int`. -/
def bindLoop : List String → UInt32 → Sqlite → ω → Except Exn Unit × Sqlite × ω
  | [], _, d, world => (.ok (), d, world)
  | vtemplate :: rest, pix, d, world =>
    match substitute world (bytesOf vtemplate) with
    | (.error e, world) => (.error e, d, world)
    | (.ok v, world) =>
      match Insertion.dispatch library ofBool v with
      | .error e => (.error e, d, world)
      | .ok value => bindLoop rest (pix + 1) (d.use (.bind (pix + 1).toInt32.toInt value)) world

def cannotOpen (dbPath : String) : Exn := ⟨.runtimeError, "Can't open database: " ++ dbPath⟩

/-- An exception with the message of the connection. -/
def fail (o : SqliteOutcomes) (d : Sqlite) (world : ω) : Except Exn Unit × Sqlite × ω :=
  (.error ⟨.runtimeError, o.errmsg⟩, d.use .errmsg, world)

/-- What comes behind the loop. -/
def finish (o : SqliteOutcomes) (d : Sqlite) (world : ω) : Except Exn Unit × Sqlite × ω :=
  let d := d.use .step
  if o.stepped ≠ .done then fail o d world
  else
    let d := d.finalize
    if !o.finalizes then fail o d world
    else
      match d.close o.closes with
      | (false, d) => fail o d world
      | (true, d) => (.ok (), d, world)

def doSend (o : SqliteOutcomes) (c : SQLiteConnector) (world : ω) : Except Exn Unit × Sqlite × ω :=
  let d := ({} : Sqlite).openV2 o.opening
  if o.opening ≠ .ok then (.error (cannotOpen c.dbPath), d, world)
  else
    let d := d.prepare (bytesOf c.statement) o.prepares
    -- the message is asked for after the close
    if !o.prepares then fail o (d.close o.closes).2 world
    else
      match bindLoop substitute library c.insertion.values 0 d world with
      | (.error e, d, world) => (.error e, d, world)
      | (.ok (), d, world) => finish o d world

/-! ## The handles -/

/-- Every template is substituted, and by something that can be bound. -/
def AllBound : List String → ω → Prop
  | [], _ => True
  | vtemplate :: rest, world =>
    ∃ v, (substitute world (bytesOf vtemplate)).1 = .ok v ∧ (∀ j, v ≠ .json j) ∧
      AllBound rest (substitute world (bytesOf vtemplate)).2

variable {substitute library}

/-- The state before the loop. -/
def prepared (c : SQLiteConnector) : Sqlite := (({} : Sqlite).openV2 .ok).prepare (bytesOf c.statement) true

theorem doSend_prepared {o : SqliteOutcomes} (opening : o.opening = .ok) (prepares : o.prepares = true)
    (c : SQLiteConnector) (world : ω) :
    doSend substitute library o c world =
      match bindLoop substitute library c.insertion.values 0 c.prepared world with
      | (.error e, d, world) => (.error e, d, world)
      | (.ok (), d, world) => finish o d world := by
  simp [doSend, opening, prepares, prepared]

/-- The loop leaves the handles as they are. -/
theorem holding_bindLoop {templates : List String} {pix : UInt32} {d : Sqlite} {world : ω} {statement : Bool}
    (held : d.Holding statement) : (bindLoop substitute library templates pix d world).2.1.Holding statement := by
  induction templates generalizing pix d world with
  | nil => exact held
  | cons vtemplate rest ih =>
    unfold bindLoop
    split
    · exact held
    · split
      · exact held
      · exact ih (held.use _)

theorem bindLoop_ok_iff {templates : List String} {pix : UInt32} {d : Sqlite} {world : ω} :
    (bindLoop substitute library templates pix d world).1 = .ok () ↔ AllBound substitute templates world := by
  induction templates generalizing pix d world with
  | nil => simp [bindLoop, AllBound]
  | cons vtemplate rest ih =>
    unfold bindLoop AllBound
    generalize substitute world (bytesOf vtemplate) = substituted
    obtain ⟨result, world'⟩ := substituted
    cases result with
    | error e => simp
    | ok v =>
      have bindable := Insertion.dispatch_ok_iff library ofBool v
      cases bound : Insertion.dispatch library ofBool v with
      | error e =>
        have document : ¬ ∀ j, v ≠ .json j := by rw [← bindable]; simp [bound]
        simp [document, bound]
      | ok value =>
        have plain : ∀ j, v ≠ .json j := bindable.mp ⟨value, bound⟩
        simp only [bound, ih, Except.ok.injEq, exists_eq_left', plain, ne_eq, not_false_eq_true, implies_true, true_and]

theorem finish_released_iff {o : SqliteOutcomes} {d : Sqlite} (held : d.Holding true) (world : ω) :
    (finish o d world).2.1.Released ↔ o.stepped = .done ∧ o.finalizes = true ∧ o.closes = true := by
  have stepped := held.use .step
  unfold finish
  by_cases row : o.stepped = .done
  · cases finalizes : o.finalizes with
    | false => simpa [row, finalizes, fail] using (stepped.finalize.use .errmsg).not_released
    | true =>
      cases closes : o.closes with
      | false =>
        have refused := stepped.finalize.close_refused false (.inr rfl)
        simpa [row, finalizes, closes, refused, fail] using ((stepped.finalize.use .close).use .errmsg).not_released
      | true =>
        obtain ⟨d', closed, released⟩ := stepped.finalize.close
        simpa [row, finalizes, closes, closed] using released
  · simpa [row, fail] using (stepped.use .errmsg).not_released

/-- **What `do_send` leaves behind.** Nothing, exactly if the open gives no handle, or if
every call succeeds and every template gives something that can be bound. -/
theorem doSend_released_iff (o : SqliteOutcomes) (c : SQLiteConnector) (world : ω) :
    (doSend substitute library o c world).2.1.Released ↔
      o.opening = .failed false ∨
        o.opening = .ok ∧ o.prepares = true ∧ AllBound substitute c.insertion.values world ∧ o.stepped = .done ∧
          o.finalizes = true ∧ o.closes = true := by
  cases opening : o.opening with
  | failed handle => simp [doSend, opening, Sqlite.openV2_failed_iff]
  | ok =>
    cases prepares : o.prepares with
    | false =>
      have opened := Sqlite.holding_openV2.prepare (bytesOf c.statement) false
      simpa [doSend, opening, prepares, fail] using opened.close_use_not_released o.closes .errmsg
    | true =>
      have held : c.prepared.Holding true := Sqlite.holding_openV2.prepare (bytesOf c.statement) true
      have looped : (bindLoop substitute library c.insertion.values 0 c.prepared world).2.1.Holding true :=
        holding_bindLoop held
      have all : (bindLoop substitute library c.insertion.values 0 c.prepared world).1 = .ok () ↔
          AllBound substitute c.insertion.values world := bindLoop_ok_iff
      rw [doSend_prepared opening prepares]
      generalize bindLoop substitute library c.insertion.values 0 c.prepared world = ended at looped all ⊢
      obtain ⟨result, d, world'⟩ := ended
      cases result with
      | error e =>
        have broken : ¬ AllBound substitute c.insertion.values world := fun bound => by cases all.mpr bound
        simpa [broken] using looped.not_released
      | ok done =>
        have bound : AllBound substitute c.insertion.values world := all.mp rfl
        simpa [bound] using finish_released_iff looped world'

/-! ## The row -/

theorem index_toInt (k : Nat) : (UInt32.ofNat k).toInt32.toInt = Int.bmod k (2 ^ 32) := by
  show (BitVec.ofNat 32 k).toInt = _
  exact BitVec.toInt_ofNat' ..

/-- Parameter `i + 1` is the one of column `i`, and value `k` is bound to `k + 1` as far as an `int` goes. -/
def numbering : Insertion.Numbering where
  parameter i := i + 1
  number k := (UInt32.ofNat (k + 1)).toInt32.toInt
  limit := 2 ^ 31 - 1
  same k inside := by
    rw [index_toInt, Int.bmod]
    omega
  apart {j k} hj hk equal := by
    rw [index_toInt, index_toInt, Int.bmod, Int.bmod] at equal
    omega
  lost k := by
    rw [index_toInt, Int.bmod]
    omega

/-- The loop binds the values one after another. -/
theorem bindLoop_all {world world' : ω} {templates : List String} {vs : List Substituted} {xs : List SqlValue}
    (substituted : Insertion.Substitutes substitute world templates vs world')
    (all : List.Forall₂ (fun v x => Insertion.dispatch library ofBool v = .ok x) vs xs) (k : Nat) (d : Sqlite) :
    bindLoop substitute library templates (.ofNat k) d world =
      (.ok (), d.bindAll (xs.mapIdx fun j x => (numbering.number (k + j), x)), world') := by
  induction substituted generalizing xs k d with
  | nil =>
    cases all
    rfl
  | @cons _ _ _ vtemplate v templates vs first rest ih =>
    cases all with
    | @cons _ x _ xs bound all =>
      have next : UInt32.ofNat k + 1 = .ofNat (k + 1) := (UInt32.ofNat_add k 1).symm
      have later := ih all (k + 1) (d.use (.bind (numbering.number k) x))
      simp only [bindLoop, first, bound, next]
      refine later.trans ?_
      have shift : ∀ j, k + 1 + j = k + (j + 1) := by omega
      simp only [List.mapIdx_cons, Nat.add_zero, shift]
      rfl

/-- A document ends the loop. -/
theorem bindLoop_document (library : Insertion.Library) {world world' : ω} {templates : List String} {vs : List Substituted} {j : Json}
    (substituted : Insertion.Substitutes substitute world templates vs world') (document : .json j ∈ vs) (pix : UInt32)
    {d : Sqlite} (before : .step ∉ d.calls) :
    ∃ e d' w', bindLoop substitute library templates pix d world = (.error e, d', w') ∧ .step ∉ d'.calls := by
  induction substituted generalizing pix d with
  | nil => cases document
  | @cons world _ _ vtemplate v templates vs first rest ih =>
    simp only [bindLoop, first]
    cases bound : Insertion.dispatch library ofBool v with
    | error e => exact ⟨e, d, _, rfl, before⟩
    | ok x =>
      have behind : .json j ∈ vs := by
        rcases List.mem_cons.mp document with rfl | behind
        · cases bound
        · exact behind
      exact ih behind _ (by simp [before])

theorem finish_calls (o : SqliteOutcomes) (d : Sqlite) (world : ω) :
    .step ∈ (finish o d world).2.1.calls ∧ (finish o d world).2.1.binds = d.binds := by
  unfold finish
  split
  · simp [fail, SqliteCall.bound]
  · split
    · simp [fail, Sqlite.binds, List.filterMap_append, SqliteCall.bound]
    · have calls := Sqlite.close_calls (d.use .step).finalize o.closes
      rcases closed : (d.use .step).finalize.close o.closes with ⟨result, d'⟩
      simp only [closed, Sqlite.finalize_calls, Sqlite.use_calls] at calls
      cases result <;> simp [closed, calls, fail, Sqlite.binds, SqliteCall.bound]

/-- The statement is stepped with a value of its own for each column. -/
def Inserts (c : SQLiteConnector) (vs : List Substituted) (d : Sqlite) : Prop :=
  SqliteCall.step ∈ d.calls ∧ Insertion.Corresponds numbering ofBool c.insertion.columns.length vs d.binds

/-- The row is the one of the config exactly if there are as many templates as columns, an
`int` counts them, and every value is bound as it is. -/
theorem row_iff {o : SqliteOutcomes} {c : SQLiteConnector} {world world' : ω} {vs : List Substituted}
    (opening : o.opening = .ok) (prepares : o.prepares = true)
    (substituted : Insertion.Substitutes substitute world c.insertion.values vs world') :
    c.Inserts vs (doSend substitute library o c world).2.1 ↔
      c.insertion.values.length = c.insertion.columns.length ∧ c.insertion.columns.length < 2 ^ 31 ∧
        ∀ v ∈ vs, Insertion.Survives library v := by
  rw [doSend_prepared opening prepares, Inserts]
  rcases Insertion.dispatched library ofBool vs with ⟨xs, all⟩ | ⟨j, document⟩
  · have looped : bindLoop substitute library c.insertion.values 0 c.prepared world =
        (.ok (), c.prepared.bindAll (Insertion.numbered numbering xs), world') := by
      simpa [Insertion.numbered] using bindLoop_all substituted all 0 c.prepared
    obtain ⟨stepped, bound⟩ := finish_calls o (c.prepared.bindAll (Insertion.numbered numbering xs)) world'
    have fresh : (c.prepared.bindAll (Insertion.numbered numbering xs)).binds = Insertion.numbered numbering xs := by
      rw [Sqlite.bindAll_binds]
      rfl
    have row := Insertion.corresponds_iff numbering c.insertion.columns.length all
    have small : c.insertion.columns.length ≤ numbering.limit ↔ c.insertion.columns.length < 2 ^ 31 := by
      simp [numbering]
      omega
    simp only [looped]
    rw [and_iff_right stepped, bound, fresh, row, substituted.length, small]
  · have before : .step ∉ c.prepared.calls := by simp [prepared, Sqlite.prepare, Sqlite.openV2, Sqlite.use]
    obtain ⟨e, d', w', looped, never⟩ := bindLoop_document library substituted document 0 before
    simp only [looped]
    exact ⟨fun row => absurd row.1 never, fun fine => (fine.2.2 _ document).elim⟩

end Send

end SQLiteConnector

end M2eBridge
