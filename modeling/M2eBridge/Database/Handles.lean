import M2eBridge.Connectors.SqliteConnector
import M2eBridge.Database.Converter

/-!
# The handles of SQLite

What the functions that call SQLite leave behind on each of their ends. `released_iff` says
for each of them on which outcomes of its calls every statement is finalized and the
connection closed, with no call behind the close.
-/

namespace M2eBridge

/-- **What the functions leave behind.** Nothing where the open gives no handle. Where it
succeeds: the sender needs every call to succeed, and a bindable value of every template;
the tables only need the connection to close, and the two readers also that a prepared
statement takes its parameter. An open that fails with a handle leaves that to all of them. -/
theorem released_iff (o : SqliteOutcomes) :
    (∀ {ω : Type} (substitute : ω → Bytes → Except Exn Substituted × ω) (library : Insertion.Library) (c : SQLiteConnector)
        (world : ω),
      (c.doSend substitute library o world).2.1.Released ↔
        o.opening = .failed false ∨
          o.opening = .ok ∧ o.prepares = true ∧ SQLiteConnector.AllBound substitute c.insertion.values world ∧
            o.stepped = .done ∧ o.finalizes = true ∧ o.closes = true) ∧
    (∀ b, (AuthbundleTable.insert o b).2.Released ↔
      o.opening = .failed false ∨ o.opening = .ok ∧ o.closes = true) ∧
    (∀ id, (AuthbundleTable.remove o id).2.Released ↔
      o.opening = .failed false ∨ o.opening = .ok ∧ o.closes = true) ∧
    (∀ id, (AuthbundleTable.get o id).2.Released ↔
      o.opening = .failed false ∨ o.opening = .ok ∧ o.closes = true ∧ (o.prepares = false ∨ o.binds = true)) ∧
    (∀ id, (ConverterTable.get o id).2.Released ↔
      o.opening = .failed false ∨ o.opening = .ok ∧ o.closes = true ∧ (o.prepares = false ∨ o.binds = true)) := by
  refine ⟨fun substitute library c world => SQLiteConnector.doSend_released_iff o c world, fun b => ?_, fun id => ?_,
    fun id => ?_, fun id => ?_⟩
  · exact Sqlite.execute_released_iff o _ _
  · exact Sqlite.execute_released_iff o _ _
  · exact Sqlite.getRow_released_iff o _ _ _ _
  · exact Sqlite.getRow_released_iff o _ _ _ _

/-- A row that is refused: `do_send` throws, with the statement and the connection left. -/
theorem refused_row_leaks :
    ¬ ∀ (o : SqliteOutcomes) (c : SQLiteConnector) (substitute : Unit → Bytes → Except Exn Substituted × Unit),
      (c.doSend substitute (SQLiteConnector.library 1000000000 false) o ()).2.1.Released := by
  intro all
  let o : SqliteOutcomes := { SqliteOutcomes.good with stepped := .failed, errmsg := "UNIQUE constraint failed: t.a" }
  let c : SQLiteConnector :=
    { base := .plain, dbPath := "d", insertion := { table := "t", columns := ["a"], values := ["x"] } }
  have released := all o c fun world vtemplate => (.ok (.string vtemplate), world)
  rcases (SQLiteConnector.doSend_released_iff o c ()).mp released with gone | ⟨-, -, -, stepped, -⟩
  · cases gone
  · cases stepped

end M2eBridge
