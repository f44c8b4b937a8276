import M2eBridge.Substitutions.Template

/-!
# The calls to SQLite

What the bridge's calls do to the handles: a connection that is opened and closed, and a
prepared statement that is to be finalized before the connection can be closed. What a
call comes to is the environment's. Any call on a connection that was closed is a misuse.
-/

namespace M2eBridge

inductive SqlValue where
  | null
  | integer (n : Int)
  | real (width : CborWidth) (bits : UInt64)
  | boolean (b : Bool)
  | text (s : Bytes)
  | blob (data : Bytes)
  deriving DecidableEq

inductive SqliteCall where
  | openV2
  | prepare (sql : Bytes)
  | bind (ix : Int) (value : SqlValue)
  | step
  | column (ix : Nat)
  | finalize
  | close
  | errmsg
  deriving DecidableEq

/-- The index and the value of a bind. -/
def SqliteCall.bound : SqliteCall → Option (Int × SqlValue)
  | .bind ix value => some (ix, value)
  | _ => none

/-- A failed `sqlite3_open_v2` gives a handle too, unless there is no memory for one. -/
inductive OpenOutcome where
  | ok
  | failed (handle : Bool)
  deriving DecidableEq

inductive StepOutcome where
  | done
  /-- The columns of the row, `none` for a null pointer. -/
  | row (columns : List (Option Bytes))
  | failed
  deriving DecidableEq

/-- What the calls of a function come to. -/
structure SqliteOutcomes where
  opening : OpenOutcome
  prepares : Bool
  binds : Bool
  stepped : StepOutcome
  finalizes : Bool
  closes : Bool
  errmsg : String

/-- All calls succeed. -/
def SqliteOutcomes.good : SqliteOutcomes :=
  { opening := .ok, prepares := true, binds := true, stepped := .done, finalizes := true, closes := true, errmsg := "" }

inductive Connection where
  | unopened
  | opened
  | closed
  deriving DecidableEq

structure Sqlite where
  connection : Connection := .unopened
  /-- There is a prepared statement that is not finalized. -/
  outstanding : Bool := false
  misused : Bool := false
  calls : List SqliteCall := []

namespace Sqlite

/-- What an end of a function is to leave. -/
structure Released (d : Sqlite) : Prop where
  finalized : d.outstanding = false
  closed : d.connection ≠ .opened
  sound : d.misused = false

/-- A call that changes no handle. -/
def use (d : Sqlite) (call : SqliteCall) : Sqlite :=
  { d with calls := d.calls ++ [call], misused := d.misused || d.connection == .closed }

def openV2 (d : Sqlite) : OpenOutcome → Sqlite
  | .ok | .failed true => { d.use .openV2 with connection := .opened }
  | .failed false => d.use .openV2

def prepare (d : Sqlite) (sql : Bytes) (prepares : Bool) : Sqlite :=
  { d.use (.prepare sql) with outstanding := prepares }

/-- `sqlite3_finalize` frees the statement whatever it returns. -/
def finalize (d : Sqlite) : Sqlite := { d.use .finalize with outstanding := false }

/-- `sqlite3_close` is refused while a statement is outstanding. -/
def close (d : Sqlite) (closes : Bool) : Bool × Sqlite :=
  if closes && !d.outstanding then (true, { d.use .close with connection := .closed }) else (false, d.use .close)

/-- The same call for one thing after another. -/
def useAll {α : Type} (d : Sqlite) (call : α → SqliteCall) (things : List α) : Sqlite :=
  things.foldl (fun d thing => d.use (call thing)) d

def bindAll (d : Sqlite) (values : List (Int × SqlValue)) : Sqlite := d.useAll (fun bound => .bind bound.1 bound.2) values

/-- The values that were bound, with the indices of their parameters. -/
def binds (d : Sqlite) : List (Int × SqlValue) := d.calls.filterMap SqliteCall.bound

@[simp] theorem use_calls (d : Sqlite) (call : SqliteCall) : (d.use call).calls = d.calls ++ [call] := rfl

@[simp] theorem use_binds (d : Sqlite) (call : SqliteCall) : (d.use call).binds = d.binds ++ call.bound.toList := by
  rw [binds, use_calls, List.filterMap_append, ← binds]
  cases call <;> rfl

@[simp] theorem finalize_calls (d : Sqlite) : d.finalize.calls = d.calls ++ [.finalize] := rfl

@[simp] theorem close_calls (d : Sqlite) (closes : Bool) : (d.close closes).2.calls = d.calls ++ [.close] := by
  unfold close
  split <;> rfl

@[simp] theorem bindAll_binds (d : Sqlite) (values : List (Int × SqlValue)) : (d.bindAll values).binds = d.binds ++ values := by
  unfold bindAll useAll
  induction values generalizing d with
  | nil => simp
  | cons bound rest ih =>
    rw [List.foldl_cons, ih, use_binds]
    simp [SqliteCall.bound]

/-! ## The tables -/

def cannotOpen : Exn := ⟨.runtimeError, "Can't open database"⟩

def cannotClose : Exn := ⟨.runtimeError, "Can't close database"⟩

/-- `open_db` of the tables. -/
def openDb (d : Sqlite) (opening : OpenOutcome) : Except Exn Unit × Sqlite :=
  (if opening = .ok then .ok () else .error cannotOpen, d.openV2 opening)

/-- `close_db` of the tables. -/
def closeDb (d : Sqlite) (closes : Bool) : Except Exn Unit × Sqlite :=
  if d.connection = .unopened then (.ok (), d)
  else
    match d.close closes with
    | (true, d) => (.ok (), d)
    | (false, d) => (.error cannotClose, d.use .errmsg)

/-- `get_string` of the tables. -/
def getString (val : Option Bytes) : Bytes := cString (val.getD [])

/-! ## The handles between the calls -/

/-- The connection is open, all went well with it, and it has a statement or not. -/
structure Holding (d : Sqlite) (statement : Bool) : Prop where
  opened : d.connection = .opened
  outstanding : d.outstanding = statement
  sound : d.misused = false

variable {d : Sqlite} {statement : Bool}

theorem holding_openV2 : (openV2 {} .ok).Holding false := ⟨rfl, rfl, rfl⟩

namespace Holding

theorem use (held : d.Holding statement) (call : SqliteCall) : (d.use call).Holding statement :=
  ⟨held.opened, held.outstanding, by simp [Sqlite.use, held.sound, held.opened]⟩

theorem prepare (held : d.Holding statement) (sql : Bytes) (prepares : Bool) :
    (d.prepare sql prepares).Holding prepares :=
  ⟨held.opened, rfl, (held.use (.prepare sql)).sound⟩

theorem finalize (held : d.Holding statement) : d.finalize.Holding false :=
  ⟨held.opened, rfl, (held.use .finalize).sound⟩

theorem useAll {α : Type} (held : d.Holding statement) (call : α → SqliteCall) (things : List α) :
    (d.useAll call things).Holding statement := by
  induction things generalizing d with
  | nil => exact held
  | cons thing rest ih => exact ih (held.use (call thing))

theorem bindAll (held : d.Holding statement) (values : List (Int × SqlValue)) : (d.bindAll values).Holding statement :=
  held.useAll _ values

theorem not_released (held : d.Holding statement) : ¬ d.Released := fun released => released.closed held.opened

theorem close (held : d.Holding false) : ∃ d', d.close true = (true, d') ∧ d'.Released := by
  have closed : d.close true = (true, { d.use .close with connection := .closed }) := by
    simp [Sqlite.close, held.outstanding]
  exact ⟨_, closed, held.outstanding, by simp, (held.use .close).sound⟩

/-- A close that fails, or that is refused for a statement, changes nothing. -/
theorem close_refused (held : d.Holding statement) (closes : Bool) (refused : statement = true ∨ closes = false) :
    d.close closes = (false, d.use .close) := by
  rcases refused with rfl | rfl
  · simp [Sqlite.close, held.outstanding]
  · simp [Sqlite.close]

/-- A call behind a close is one too many, or the close has failed. -/
theorem close_use_not_released (held : d.Holding statement) (closes : Bool) (call : SqliteCall) :
    ¬ ((d.close closes).2.use call).Released := by
  intro released
  by_cases closed : (closes && !d.outstanding) = true
  · have sound := released.sound
    simp [Sqlite.close, closed, Sqlite.use] at sound
  · have open_ := released.closed
    simp [Sqlite.close, closed, Sqlite.use, held.opened] at open_

/-- The tables leave nothing behind iff the statement is gone and the close succeeds. -/
theorem closeDb_iff (held : d.Holding statement) (closes : Bool) :
    (d.closeDb closes).2.Released ↔ statement = false ∧ closes = true := by
  have started : ¬ d.connection = .unopened := by rw [held.opened]; simp
  by_cases clean : statement = false ∧ closes = true
  · obtain ⟨rfl, rfl⟩ := clean
    obtain ⟨d', closed, released⟩ := held.close
    rw [closeDb, if_neg started, closed]
    exact ⟨fun _ => ⟨rfl, rfl⟩, fun _ => released⟩
  · have refused : statement = true ∨ closes = false := by
      cases statement <;> cases closes <;> simp_all
    rw [closeDb, if_neg started, held.close_refused closes refused]
    exact ⟨fun released => absurd released ((held.use _).use _).not_released, fun both => absurd both clean⟩

end Holding

/-- Of an open that fails, a handle may be left. -/
theorem openV2_failed_iff (handle : Bool) : (openV2 {} (.failed handle)).Released ↔ handle = false := by
  cases handle with
  | false => exact ⟨fun _ => rfl, fun _ => ⟨rfl, by decide, rfl⟩⟩
  | true => exact ⟨fun released => absurd rfl released.closed, fun none => by cases none⟩

end Sqlite

end M2eBridge
