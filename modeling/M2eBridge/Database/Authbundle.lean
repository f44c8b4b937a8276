import M2eBridge.Database.Sqlite

/-!
# Authentication bundles

`AuthbundleTable`: the three functions that read and write a bundle, with the calls to
SQLite that they make on each of their paths. The table is opened and closed by every one
of them.
-/

namespace M2eBridge

inductive ServiceType where
  | gcp
  | mqtt311
  | mqtt50
  | email
  | aws
  | http
  | azure
  | slack
  | none
  deriving DecidableEq, Repr

inductive BundleAuthType where
  | jwtEs256
  | password
  | serviceKey
  | accessKey
  | basic
  | bearer
  | none
  deriving DecidableEq, Repr

/-- `get_service_type`. -/
def getServiceType (val : Bytes) : ServiceType :=
  if val = bytesOf "gcp" then .gcp
  else if val = bytesOf "mqtt311" then .mqtt311
  else if val = bytesOf "mqtt50" then .mqtt50
  else if val = bytesOf "email" then .email
  else if val = bytesOf "aws" then .aws
  else if val = bytesOf "http" then .http
  else if val = bytesOf "azure" then .azure
  else if val = bytesOf "slack" then .slack
  else .none

def ServiceType.toBytes : ServiceType → Bytes
  | .gcp => bytesOf "gcp"
  | .mqtt311 => bytesOf "mqtt311"
  | .mqtt50 => bytesOf "mqtt50"
  | .email => bytesOf "email"
  | .aws => bytesOf "aws"
  | .http => bytesOf "http"
  | .azure => bytesOf "azure"
  | .slack => bytesOf "slack"
  | .none => bytesOf ""

/-- `get_auth_type`. -/
def getAuthType (val : Bytes) : BundleAuthType :=
  if val = bytesOf "jwt_es256" then .jwtEs256
  else if val = bytesOf "password" then .password
  else if val = bytesOf "service_key" then .serviceKey
  else if val = bytesOf "access_key" then .accessKey
  else if val = bytesOf "bearer" then .bearer
  else if val = bytesOf "basic" then .basic
  else .none

def BundleAuthType.toBytes : BundleAuthType → Bytes
  | .jwtEs256 => bytesOf "jwt_es256"
  | .password => bytesOf "password"
  | .serviceKey => bytesOf "service_key"
  | .accessKey => bytesOf "access_key"
  | .basic => bytesOf "basic"
  | .bearer => bytesOf "bearer"
  | .none => bytesOf ""

/-- A type is stored under the name that it is read by. -/
theorem getServiceType_toBytes (t : ServiceType) : getServiceType t.toBytes = t := by
  cases t <;> decide

theorem getAuthType_toBytes (t : BundleAuthType) : getAuthType t.toBytes = t := by
  cases t <;> decide

structure AuthBundle where
  authbundleId : Bytes
  serviceType : ServiceType
  authType : BundleAuthType
  username : Bytes
  password : Bytes
  keyname : Bytes
  keydata : Bytes
  description : Bytes
  deriving DecidableEq

namespace AuthbundleTable

def insertSql : Bytes := bytesOf
  "INSERT INTO authbundles (authbundle_id, service_type, auth_type, username, password, keyname, description, keydata)
                             VALUES (?, ?, ?, ?, ?, ?, ?, ?);"

def removeSql : Bytes := bytesOf "DELETE FROM authbundles WHERE authbundle_id = ?;"

def getSql : Bytes := bytesOf
  "SELECT authbundle_id, service_type,
                    auth_type, username, password,
                    keyname, description, keydata
                    FROM authbundles WHERE authbundle_id = ?;"

/-- The columns of a bundle; a text is bound up to its first NUL. -/
def insertBinds (b : AuthBundle) : List (Int × SqlValue) :=
  [ (1, .text (cString b.authbundleId)),
    (2, .text (cString b.serviceType.toBytes)),
    (3, .text (cString b.authType.toBytes)),
    (4, .text (cString b.username)),
    (5, .text (cString b.password)),
    (6, .text (cString b.keyname)),
    (7, .text (cString b.description)),
    (8, .blob b.keydata) ]

/-- What `insert` and `remove` do with their statement. -/
def execute (o : SqliteOutcomes) (sql : Bytes) (values : List (Int × SqlValue)) (d : Sqlite) : Except Exn Bool × Sqlite :=
  match d.openDb o.opening with
  | (.error e, d) => (.error e, d)
  | (.ok (), d) =>
    let d := d.prepare sql o.prepares
    if o.prepares then
      let d := ((d.bindAll values).use .step).finalize
      let (closed, d) := d.closeDb o.closes
      (closed.map fun () => o.stepped = .done, d)
    else
      let (closed, d) := (d.use .errmsg).closeDb o.closes
      (closed.map fun () => false, d)

def insert (o : SqliteOutcomes) (b : AuthBundle) : Except Exn Bool × Sqlite :=
  execute o insertSql (insertBinds b) {}

def remove (o : SqliteOutcomes) (authbundleId : Bytes) : Except Exn Bool × Sqlite :=
  execute o removeSql [(1, .text (cString authbundleId))] {}

/-- The bundle of a row. -/
def ofRow (columns : List (Option Bytes)) : AuthBundle :=
  let column := fun k => (columns[k]?).join
  { authbundleId := Sqlite.getString (column 0)
    serviceType := getServiceType (Sqlite.getString (column 1))
    authType := getAuthType (Sqlite.getString (column 2))
    username := Sqlite.getString (column 3)
    password := Sqlite.getString (column 4)
    keyname := Sqlite.getString (column 5)
    description := Sqlite.getString (column 6)
    keydata := (column 7).getD [] }

end AuthbundleTable

namespace Sqlite

/-- `get` of the tables: the one row with the id, `none` where it returns `false`. -/
def getRow {α : Type} (o : SqliteOutcomes) (sql : Bytes) (ofRow : List (Option Bytes) → α) (width : Nat) (id : Bytes)
    (d : Sqlite) : Except Exn (Option α) × Sqlite :=
  match d.openDb o.opening with
  | (.error e, d) => (.error e, d)
  | (.ok (), d) =>
    let d := d.prepare sql o.prepares
    if o.prepares then
      let d := d.use (.bind 1 (.text id))
      if o.binds then
        let d := d.use .step
        match o.stepped with
        | .row columns =>
          let d := d.useAll SqliteCall.column (List.range width)
          let (closed, d) := d.finalize.closeDb o.closes
          (closed.map fun () => some (ofRow columns), d)
        | _ =>
          let (closed, d) := d.finalize.closeDb o.closes
          (closed.map fun () => none, d)
      else
        -- the statement is not finalized here
        let (closed, d) := (d.use .errmsg).closeDb o.closes
        (closed.map fun () => none, d)
    else
      let (closed, d) := (d.use .errmsg).closeDb o.closes
      (closed.map fun () => none, d)

/-- A table that can not be opened is left as the open leaves it. -/
theorem openDb_failed {o : SqliteOutcomes} {handle : Bool} (failed : o.opening = .failed handle) (d : Sqlite) :
    d.openDb o.opening = (.error cannotOpen, d.openV2 (.failed handle)) := by
  rw [failed]
  rfl

theorem openDb_ok {o : SqliteOutcomes} (ok : o.opening = .ok) (d : Sqlite) :
    d.openDb o.opening = (.ok (), d.openV2 .ok) := by
  rw [ok]
  rfl

/-- `insert` and `remove` leave nothing behind iff the connection can be closed. -/
theorem execute_released_iff (o : SqliteOutcomes) (sql : Bytes) (values : List (Int × SqlValue)) :
    (AuthbundleTable.execute o sql values {}).2.Released ↔
      o.opening = .failed false ∨ o.opening = .ok ∧ o.closes = true := by
  unfold AuthbundleTable.execute
  cases opening : o.opening with
  | failed handle =>
    rw [← opening, openDb_failed opening, opening]
    simp [openV2_failed_iff]
  | ok =>
    rw [← opening, openDb_ok opening, opening]
    have held := holding_openV2.prepare sql o.prepares
    cases prepares : o.prepares with
    | true =>
      have ended := (((held.bindAll values).use .step).finalize).closeDb_iff o.closes
      simpa [prepares] using ended
    | false =>
      have ended := (held.use .errmsg).closeDb_iff o.closes
      simpa [prepares] using ended

/-- `get` also leaves its statement, and with it the connection, where the bind fails. -/
theorem getRow_released_iff {α : Type} (o : SqliteOutcomes) (sql : Bytes) (ofRow : List (Option Bytes) → α) (width : Nat)
    (id : Bytes) :
    (getRow o sql ofRow width id {}).2.Released ↔
      o.opening = .failed false ∨ o.opening = .ok ∧ o.closes = true ∧ (o.prepares = false ∨ o.binds = true) := by
  unfold getRow
  cases opening : o.opening with
  | failed handle =>
    rw [← opening, openDb_failed opening, opening]
    simp [openV2_failed_iff]
  | ok =>
    rw [← opening, openDb_ok opening, opening]
    have held := holding_openV2.prepare sql o.prepares
    cases prepares : o.prepares with
    | false =>
      have ended := (held.use .errmsg).closeDb_iff o.closes
      simpa [prepares] using ended
    | true =>
      have bound := held.use (.bind 1 (.text id))
      cases binds : o.binds with
      | false =>
        have ended := (bound.use .errmsg).closeDb_iff o.closes
        simpa [prepares, binds] using ended
      | true =>
        have stepped := bound.use .step
        cases o.stepped with
        | row columns =>
          have ended := ((stepped.useAll SqliteCall.column (List.range width)).finalize).closeDb_iff o.closes
          simpa [prepares, binds] using ended
        | done =>
          have ended := stepped.finalize.closeDb_iff o.closes
          simpa [prepares, binds] using ended
        | failed =>
          have ended := stepped.finalize.closeDb_iff o.closes
          simpa [prepares, binds] using ended

end Sqlite

/-- `AuthbundleTable::get`. -/
def AuthbundleTable.get (o : SqliteOutcomes) (authbundleId : Bytes) : Except Exn (Option AuthBundle) × Sqlite :=
  Sqlite.getRow o getSql ofRow 8 authbundleId {}

end M2eBridge
