import M2eBridge.Database.Authbundle
import Mathlib.Data.List.Find
import Mathlib.Data.List.TakeWhile
import Mathlib.Logic.Function.Basic

/-!
# The table of authentication bundles

`authbundles` has `authbundle_id` as its primary key. `perform` is what `AuthbundleTable` makes
of such a table, with any of its calls to SQLite failing; `Bundles.perform` is what it is for, on
a map from ids to bundles. The one does what the other does in every sequence of calls
(`store_refines`).
-/

namespace M2eBridge

namespace Sqlite

variable {d : Sqlite} {statement : Bool}

/-- The tables' close succeeds iff there is no statement in its way. -/
theorem Holding.closeDb_result (held : d.Holding statement) (closes : Bool) :
    (d.closeDb closes).1 = if closes && !statement then .ok () else .error cannotClose := by
  have started : ¬ d.connection = .unopened := by rw [held.opened]; simp
  rw [closeDb, if_neg started]
  cases clean : closes && !statement with
  | true =>
    have closed : d.close closes = (true, { d.use .close with connection := .closed }) := by
      simp [Sqlite.close, held.outstanding, clean]
    rw [closed]
    rfl
  | false =>
    have refused : d.close closes = (false, d.use .close) := by simp [Sqlite.close, held.outstanding, clean]
    rw [refused]
    rfl

/-- It steps no statement. -/
theorem step_mem_closeDb (d : Sqlite) (closes : Bool) :
    SqliteCall.step ∈ (d.closeDb closes).2.calls ↔ SqliteCall.step ∈ d.calls := by
  unfold closeDb
  split
  · rfl
  · split
    case h_1 d' closed =>
      have calls : d'.calls = d.calls ++ [.close] := by rw [← close_calls d closes, closed]
      simp [calls]
    case h_2 d' closed =>
      have calls : d'.calls = d.calls ++ [.close] := by rw [← close_calls d closes, closed]
      simp [calls]

end Sqlite

namespace AuthbundleStore

open AuthbundleTable (insertBinds ofRow)
open Function (update)

/-- A row of `authbundles`, `none` for NULL. -/
structure Row where
  authbundleId : Option Bytes
  serviceType : Option Bytes
  authType : Option Bytes
  username : Option Bytes
  password : Option Bytes
  keyname : Option Bytes
  description : Option Bytes
  keydata : Option Bytes

/-- The columns in the order of the query; of an empty blob SQLite gives a null pointer. -/
def Row.columns (r : Row) : List (Option Bytes) :=
  [ r.authbundleId, r.serviceType, r.authType, r.username, r.password, r.keyname, r.description,
    if r.keydata = some [] then none else r.keydata ]

structure Table where
  rows : List Row
  /-- `authbundle_id TEXT PRIMARY KEY`, which any number of rows may leave NULL. -/
  keyed : (rows.filterMap Row.authbundleId).Nodup

def Table.empty : Table := ⟨[], List.nodup_nil⟩

def bytesOfValue : SqlValue → Bytes
  | .text s => s
  | .blob data => data
  | _ => []

/-- The row of the values that are bound. -/
def rowOf (binds : List (Int × SqlValue)) : Row :=
  let value := fun k : Int => (binds.lookup k).map bytesOfValue
  { authbundleId := value 1
    serviceType := value 2
    authType := value 3
    username := value 4
    password := value 5
    keyname := value 6
    description := value 7
    keydata := value 8 }

/-- `INSERT`: a key that there is already is refused. -/
def Table.insert (t : Table) (r : Row) : Option Table :=
  if fresh : ∃ key ∈ r.authbundleId, key ∈ t.rows.filterMap Row.authbundleId then none
  else some {
    rows := r :: t.rows
    keyed := by
      cases key : r.authbundleId with
      | none =>
        rw [List.filterMap_cons_none key]
        exact t.keyed
      | some key' =>
        rw [List.filterMap_cons_some key]
        exact List.nodup_cons.mpr ⟨fun there => fresh ⟨key', key, there⟩, t.keyed⟩ }

/-- `DELETE ... WHERE authbundle_id = ?`: nothing is equal to NULL. -/
def Table.delete (t : Table) (id : Option Bytes) : Table where
  rows := t.rows.filter fun r => ¬ (id.isSome = true ∧ r.authbundleId = id)
  keyed := (List.filter_sublist.filterMap Row.authbundleId).nodup t.keyed

/-- `SELECT ... WHERE authbundle_id = ?`. -/
def Table.select (t : Table) (id : Bytes) : Option Row := t.rows.find? fun r => r.authbundleId = some id

/-! ## The calls -/

/-- What the calls to SQLite come to, but for what the table says itself. -/
structure Faults where
  opening : OpenOutcome
  prepares : Bool
  /-- A parameter whose bind fails is left NULL. -/
  binds : Int → Bool
  /-- `sqlite3_step` meets no error that the table has nothing to do with. -/
  steps : Bool
  finalizes : Bool
  closes : Bool
  errmsg : String

def Faults.outcomes (f : Faults) (stepped : StepOutcome) : SqliteOutcomes where
  opening := f.opening
  prepares := f.prepares
  binds := f.binds 1
  stepped := if f.steps then stepped else .failed
  finalizes := f.finalizes
  closes := f.closes
  errmsg := f.errmsg

inductive Call where
  | insert (b : AuthBundle)
  | remove (authbundleId : Bytes)
  | get (authbundleId : Bytes)

inductive Reply where
  | flag (result : Except Exn Bool)
  /-- What `get` returns, with the bundle that it fills in. -/
  | bundle (result : Except Exn (Option AuthBundle))

/-- The values that get to the statement: `insert` and `remove` do not look at what a bind returns. -/
def Faults.bound (f : Faults) (values : List (Int × SqlValue)) : List (Int × SqlValue) :=
  values.filter fun value => f.binds value.1

/-- The table behind the calls: the statement has an effect where it is stepped without an error. -/
def Faults.effect (f : Faults) (d : Sqlite) (t done : Table) : Table :=
  if SqliteCall.step ∈ d.calls ∧ f.steps = true then done else t

def perform (f : Faults) : Call → Table → Reply × Table
  | .insert b, t =>
    let inserted := t.insert (rowOf (f.bound (insertBinds b)))
    let (result, d) := AuthbundleTable.insert (f.outcomes (if inserted.isSome then .done else .failed)) b
    (.flag result, f.effect d t (inserted.getD t))
  | .remove id, t =>
    let (result, d) := AuthbundleTable.remove (f.outcomes .done) id
    (.flag result, f.effect d t (t.delete (rowOf (f.bound [(1, .text (cString id))])).authbundleId))
  | .get id, t =>
    let (result, _) := AuthbundleTable.get (f.outcomes (((t.select id).map fun r => .row r.columns).getD .done)) id
    (.bundle result, t)

/-- Calls one after another, each with what SQLite makes of it. -/
def performAll : List (Faults × Call) → Table → List Reply × Table
  | [], t => ([], t)
  | (f, call) :: rest, t =>
    let (reply, t) := perform f call t
    let (replies, t) := performAll rest t
    (reply :: replies, t)

/-! ## What the table is for -/

/-- The bundles by their ids. -/
abbrev Bundles := Bytes → Option AuthBundle

/-- What is kept of a bundle: its texts end at their first NUL, its key data does not, and what is not bound
is read back as empty. -/
def kept (f : Faults) (b : AuthBundle) : AuthBundle where
  authbundleId := if f.binds 1 then cString b.authbundleId else []
  serviceType := if f.binds 2 then b.serviceType else .none
  authType := if f.binds 3 then b.authType else .none
  username := if f.binds 4 then cString b.username else []
  password := if f.binds 5 then cString b.password else []
  keyname := if f.binds 6 then cString b.keyname else []
  description := if f.binds 7 then cString b.description else []
  keydata := if f.binds 8 then b.keydata else []

/-- A reply is an exception where the database can not be opened, or not be closed again. -/
def Faults.reply {α : Type} (f : Faults) (closes : Bool) (result : α) : Except Exn α :=
  if f.opening ≠ .ok then .error Sqlite.cannotOpen else if closes then .ok result else .error Sqlite.cannotClose

/-- The statement of `insert` and of `remove` is carried out. -/
def Faults.Reaches (f : Faults) : Prop := f.opening = .ok ∧ f.prepares = true ∧ f.steps = true

instance (f : Faults) : Decidable f.Reaches := inferInstanceAs (Decidable (_ ∧ _))

def Bundles.perform (f : Faults) : Call → Bundles → Reply × Bundles
  | .insert b, m =>
    -- without its id a bundle goes to a row that no id selects
    let inserts := f.Reaches ∧ (f.binds 1 = true → m (cString b.authbundleId) = none)
    (.flag (f.reply f.closes (decide inserts)),
      if inserts ∧ f.binds 1 = true then update m (cString b.authbundleId) (some (kept f b)) else m)
  | .remove id, m =>
    (.flag (f.reply f.closes (decide f.Reaches)), if f.Reaches ∧ f.binds 1 = true then update m (cString id) none else m)
  -- a parameter that is not bound leaves the statement, and with that the database does not close
  | .get id, m =>
    (.bundle (f.reply (f.closes && (!f.prepares || f.binds 1)) (if f.Reaches ∧ f.binds 1 = true then m id else none)), m)

def Bundles.performAll : List (Faults × Call) → Bundles → List Reply × Bundles
  | [], m => ([], m)
  | (f, call) :: rest, m =>
    let (reply, m) := Bundles.perform f call m
    let (replies, m) := performAll rest m
    (reply :: replies, m)

/-- The map of a table. -/
def Table.bundles (t : Table) : Bundles := fun id => (t.select id).map fun r => ofRow r.columns

/-! ## The calls, by what they come to -/

/-- `insert` and `remove` step their statement where it is prepared. -/
theorem execute_result (o : SqliteOutcomes) (sql : Bytes) (values : List (Int × SqlValue)) :
    (AuthbundleTable.execute o sql values {}).1 =
        (if o.opening ≠ .ok then .error Sqlite.cannotOpen
          else if o.closes then .ok (decide (o.prepares = true ∧ o.stepped = .done)) else .error Sqlite.cannotClose) ∧
      (SqliteCall.step ∈ (AuthbundleTable.execute o sql values {}).2.calls ↔ o.opening = .ok ∧ o.prepares = true) := by
  unfold AuthbundleTable.execute
  cases opening : o.opening with
  | failed handle =>
    rw [← opening, Sqlite.openDb_failed opening, opening]
    cases handle <;> simp [Sqlite.openV2]
  | ok =>
    rw [← opening, Sqlite.openDb_ok opening, opening]
    have held := Sqlite.holding_openV2.prepare sql o.prepares
    cases prepares : o.prepares with
    | true =>
      rw [prepares] at held
      have ended := ((held.bindAll values).use .step).finalize
      simp only [if_true, Sqlite.step_mem_closeDb, ended.closeDb_result]
      cases o.closes <;> simp [Except.map]
    | false =>
      rw [prepares] at held
      have ended := held.use .errmsg
      simp only [Bool.false_eq_true, if_false, Sqlite.step_mem_closeDb, ended.closeDb_result]
      cases o.closes <;> simp [Except.map, Sqlite.prepare, Sqlite.openV2]

/-- The row that a step gives. -/
def rowStepped : StepOutcome → Option (List (Option Bytes))
  | .row columns => some columns
  | _ => none

/-- `get` closes the database unless its parameter was not bound. -/
theorem get_result (o : SqliteOutcomes) (id : Bytes) :
    (AuthbundleTable.get o id).1 =
      if o.opening ≠ .ok then .error Sqlite.cannotOpen
      else if o.closes && (!o.prepares || o.binds) then
        .ok (if o.prepares = true ∧ o.binds = true then (rowStepped o.stepped).map ofRow else none)
      else .error Sqlite.cannotClose := by
  unfold AuthbundleTable.get Sqlite.getRow
  cases opening : o.opening with
  | failed handle =>
    rw [← opening, Sqlite.openDb_failed opening, opening]
    simp
  | ok =>
    rw [← opening, Sqlite.openDb_ok opening, opening]
    have held := Sqlite.holding_openV2.prepare AuthbundleTable.getSql o.prepares
    cases prepares : o.prepares with
    | false =>
      rw [prepares] at held
      have ended := held.use .errmsg
      simp only [Bool.false_eq_true, if_false, ended.closeDb_result]
      cases o.closes <;> simp [Except.map]
    | true =>
      rw [prepares] at held
      have bound := held.use (.bind 1 (.text id))
      cases binds : o.binds with
      | false =>
        have ended := bound.use .errmsg
        simp only [if_true, Bool.false_eq_true, if_false, ended.closeDb_result]
        cases o.closes <;> simp [Except.map]
      | true =>
        have stepped := bound.use .step
        cases o.stepped with
        | row columns =>
          have ended := (stepped.useAll SqliteCall.column (List.range 8)).finalize
          simp only [if_true, ended.closeDb_result]
          cases o.closes <;> simp [Except.map, rowStepped]
        | done | failed =>
          have ended := stepped.finalize
          simp only [if_true, ended.closeDb_result]
          cases o.closes <;> simp [Except.map, rowStepped]

/-! ## The statements, on the map -/

theorem cString_cString (s : Bytes) : cString (cString s) = cString s := List.takeWhile_idem

theorem lookup_bound (f : Faults) (values : List (Int × SqlValue)) (k : Int) :
    (f.bound values).lookup k = if f.binds k then values.lookup k else none := by
  induction values with
  | nil => simp [Faults.bound]
  | cons value rest ih =>
    obtain ⟨k', v⟩ := value
    rw [List.lookup_cons]
    cases bound : f.binds k' with
    | true =>
      have kept : f.bound ((k', v) :: rest) = (k', v) :: f.bound rest := List.filter_cons_of_pos bound
      rw [kept, List.lookup_cons]
      cases same : k == k' with
      | true => simp [beq_iff_eq.mp same, bound]
      | false => exact ih
    | false =>
      have dropped : f.bound ((k', v) :: rest) = f.bound rest := List.filter_cons_of_neg (by simp [bound])
      rw [dropped, ih]
      cases same : k == k' with
      | true => simp [beq_iff_eq.mp same, bound]
      | false => rfl

theorem rowOf_bound (f : Faults) (b : AuthBundle) : rowOf (f.bound (insertBinds b)) =
    { authbundleId := if f.binds 1 then some (cString b.authbundleId) else none
      serviceType := if f.binds 2 then some (cString b.serviceType.toBytes) else none
      authType := if f.binds 3 then some (cString b.authType.toBytes) else none
      username := if f.binds 4 then some (cString b.username) else none
      password := if f.binds 5 then some (cString b.password) else none
      keyname := if f.binds 6 then some (cString b.keyname) else none
      description := if f.binds 7 then some (cString b.description) else none
      keydata := if f.binds 8 then some b.keydata else none } := by
  simp only [rowOf, lookup_bound, apply_ite (Option.map bytesOfValue), Option.map_none]
  rfl

/-- A text column, read back. -/
theorem getString_column (bound : Bool) (s : Bytes) :
    Sqlite.getString (if bound then some (cString s) else none) = if bound then cString s else [] := by
  cases bound
  · rfl
  · exact cString_cString s

/-- What is read back is what is kept. -/
theorem ofRow_rowOf (f : Faults) (b : AuthBundle) : ofRow (rowOf (f.bound (insertBinds b))).columns = kept f b := by
  have service : cString b.serviceType.toBytes = b.serviceType.toBytes := by
    cases b.serviceType <;> decide
  have auth : cString b.authType.toBytes = b.authType.toBytes := by
    cases b.authType <;> decide
  have serviceRead : getServiceType (if f.binds 2 then cString b.serviceType.toBytes else []) =
      if f.binds 2 then b.serviceType else .none := by
    rw [service]
    split
    · exact getServiceType_toBytes _
    · rfl
  have authRead : getAuthType (if f.binds 3 then cString b.authType.toBytes else []) =
      if f.binds 3 then b.authType else .none := by
    rw [auth]
    split
    · exact getAuthType_toBytes _
    · rfl
  have keydata (data : Option Bytes) : (if data = some [] then none else data).getD [] = data.getD [] := by
    split
    case isTrue empty => rw [empty]; rfl
    case isFalse => rfl
  rw [rowOf_bound]
  simp only [ofRow, Row.columns, kept]
  simp only [List.getElem?_cons_zero, List.getElem?_cons_succ, Option.join_some, getString_column, serviceRead, authRead,
    keydata]
  congr 1
  cases f.binds 8 <;> rfl

theorem select_none_iff {t : Table} {id : Bytes} : t.select id = none ↔ id ∉ t.rows.filterMap Row.authbundleId := by
  simp [Table.select]

theorem bundles_none_iff {t : Table} {id : Bytes} : t.bundles id = none ↔ id ∉ t.rows.filterMap Row.authbundleId := by
  rw [← select_none_iff, Table.bundles, Option.map_eq_none_iff]

/-- A row is inserted where there is none of its key. -/
theorem insert_bundles (t : Table) {r : Row} {key : Bytes} (keyed : r.authbundleId = some key) :
    ((t.insert r).isSome ↔ t.bundles key = none) ∧
      ∀ t', t.insert r = some t' → t'.bundles = update t.bundles key (some (ofRow r.columns)) := by
  have there : (∃ own ∈ r.authbundleId, own ∈ t.rows.filterMap Row.authbundleId) ↔ key ∈ t.rows.filterMap Row.authbundleId := by
    simp [keyed]
  unfold Table.insert
  split
  case isTrue taken => exact ⟨iff_of_false nofun fun free => bundles_none_iff.mp free (there.mp taken), nofun⟩
  case isFalse fresh =>
    refine ⟨iff_of_true rfl (bundles_none_iff.mpr fun taken => fresh (there.mpr taken)), fun t' same => ?_⟩
    cases same
    funext id
    by_cases own : id = key
    · subst own
      simp [Table.bundles, Table.select, keyed]
    · have other : key ≠ id := fun same => own same.symm
      simp [Table.bundles, Table.select, keyed, own, other]

/-- A row without a key is always inserted, and no id selects it. -/
theorem insert_unkeyed (t : Table) {r : Row} (unkeyed : r.authbundleId = none) :
    ∃ t', t.insert r = some t' ∧ t'.bundles = t.bundles := by
  have fresh : ¬ ∃ key ∈ r.authbundleId, key ∈ t.rows.filterMap Row.authbundleId := by simp [unkeyed]
  refine ⟨_, by rw [Table.insert, dif_neg fresh], ?_⟩
  funext id
  simp [Table.bundles, Table.select, unkeyed]

theorem delete_bundles (t : Table) (id : Bytes) : (t.delete (some id)).bundles = update t.bundles id none := by
  funext key
  by_cases own : key = id
  · subst own
    rw [Function.update_self, bundles_none_iff]
    simp [Table.delete]
  · rw [Function.update_of_ne own, Table.bundles, Table.bundles, Table.select, Table.select, Table.delete, List.find?_filter]
    congr 1
    refine List.find?_congr fun r _ => ?_
    by_cases here : r.authbundleId = some key <;> simp [here, own]

/-- With NULL for the id nothing is deleted. -/
theorem delete_unbound (t : Table) : (t.delete none).bundles = t.bundles := by
  simp [Table.delete]

/-! ## The refinement -/

theorem execute_reply (f : Faults) (stepped : StepOutcome) (sql : Bytes) (values : List (Int × SqlValue)) :
    (AuthbundleTable.execute (f.outcomes stepped) sql values {}).1 =
      f.reply f.closes (decide (f.Reaches ∧ stepped = .done)) := by
  rw [(execute_result (f.outcomes stepped) sql values).1]
  simp only [Faults.outcomes, Faults.reply, Faults.Reaches]
  obtain ⟨opening, prepares, _, steps, _, _, _⟩ := f
  cases opening with
  | failed handle => simp
  | ok => cases prepares <;> cases steps <;> simp

theorem execute_effect (f : Faults) (stepped : StepOutcome) (sql : Bytes) (values : List (Int × SqlValue)) (t done : Table) :
    f.effect (AuthbundleTable.execute (f.outcomes stepped) sql values {}).2 t done = if f.Reaches then done else t := by
  have steps := (execute_result (f.outcomes stepped) sql values).2
  have reached : (SqliteCall.step ∈ (AuthbundleTable.execute (f.outcomes stepped) sql values {}).2.calls ∧ f.steps = true) ↔
      f.Reaches := by
    rw [steps]
    exact and_assoc
  rw [Faults.effect, if_congr reached rfl rfl]

theorem get_reply (f : Faults) (row : Option Row) (id : Bytes) :
    (AuthbundleTable.get (f.outcomes ((row.map fun r => .row r.columns).getD .done)) id).1 =
      f.reply (f.closes && (!f.prepares || f.binds 1))
        (if f.Reaches ∧ f.binds 1 = true then row.map fun r => ofRow r.columns else none) := by
  have stepped : (rowStepped (if f.steps = true then (row.map fun r => .row r.columns).getD .done else .failed)).map ofRow =
      if f.steps = true then row.map fun r => ofRow r.columns else none := by
    cases f.steps <;> cases row <;> rfl
  rw [get_result]
  simp only [Faults.outcomes, Faults.reply, Faults.Reaches, stepped]
  obtain ⟨opening, prepares, binds, steps, _, _, _⟩ := f
  cases opening with
  | failed handle => simp
  | ok => cases prepares <;> cases steps <;> cases binds 1 <;> simp

/-- A call does to the table what it does to the map. -/
theorem perform_refines (f : Faults) (call : Call) (t : Table) :
    (perform f call t).1 = (Bundles.perform f call t.bundles).1 ∧
      (perform f call t).2.bundles = (Bundles.perform f call t.bundles).2 := by
  cases call with
  | insert b =>
    simp only [perform, Bundles.perform, AuthbundleTable.insert, execute_reply, execute_effect]
    have id : (rowOf (f.bound (insertBinds b))).authbundleId =
        if f.binds 1 then some (cString b.authbundleId) else none := by
      rw [rowOf_bound]
    cases bound : f.binds 1 with
    | false =>
      obtain ⟨t', inserted, same⟩ := insert_unkeyed t (id.trans (by rw [bound]; rfl))
      refine ⟨by simp [inserted], ?_⟩
      by_cases reached : f.Reaches <;> simp [reached, inserted, same]
    | true =>
      obtain ⟨inserts, behind⟩ := insert_bundles t (id.trans (by rw [bound]; rfl))
      rw [ofRow_rowOf] at behind
      cases inserted : t.insert (rowOf (f.bound (insertBinds b))) with
      | none =>
        have taken : t.bundles (cString b.authbundleId) ≠ none := fun free => by
          rw [inserted] at inserts
          cases inserts.mpr free
        simp [taken]
      | some t' =>
        have free : t.bundles (cString b.authbundleId) = none := inserts.mp (by rw [inserted]; rfl)
        refine ⟨by simp [free], ?_⟩
        by_cases reached : f.Reaches
        · simp [reached, free, behind t' inserted]
        · simp [reached]
  | remove id =>
    simp only [perform, Bundles.perform, AuthbundleTable.remove, execute_reply, execute_effect]
    have key : (rowOf (f.bound [(1, .text (cString id))])).authbundleId = if f.binds 1 then some (cString id) else none := by
      simp only [rowOf, lookup_bound, apply_ite (Option.map bytesOfValue), Option.map_none]
      rfl
    refine ⟨by simp, ?_⟩
    rw [key]
    cases bound : f.binds 1 <;> by_cases reached : f.Reaches <;> simp [reached, delete_bundles, delete_unbound]
  | get id => exact ⟨congrArg Reply.bundle (get_reply f (t.select id) id), rfl⟩

theorem performAll_refines (calls : List (Faults × Call)) (t : Table) :
    (performAll calls t).1 = (Bundles.performAll calls t.bundles).1 ∧
      (performAll calls t).2.bundles = (Bundles.performAll calls t.bundles).2 := by
  induction calls generalizing t with
  | nil => exact ⟨rfl, rfl⟩
  | cons first rest ih =>
    obtain ⟨f, call⟩ := first
    obtain ⟨reply, map⟩ := perform_refines f call t
    obtain ⟨replies, behind⟩ := ih (perform f call t).2
    rw [map] at replies behind
    refine ⟨?_, behind⟩
    simp only [performAll, Bundles.performAll, reply, replies]

/-- **The table is a map.** Whatever calls are made, and whichever of the calls to SQLite fail in them, the replies
are those of a map from ids to bundles, and the table ends as that map does. -/
theorem store_refines (calls : List (Faults × Call)) :
    (performAll calls .empty).1 = (Bundles.performAll calls fun _ => none).1 ∧
      (performAll calls .empty).2.bundles = (Bundles.performAll calls fun _ => none).2 :=
  performAll_refines calls .empty

end AuthbundleStore

end M2eBridge
