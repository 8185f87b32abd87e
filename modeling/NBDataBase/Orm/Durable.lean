import NBDataBase.Lib.Fallback
import NBDataBase.Orm.Runs

/-!
# Orm — what a crash leaves

A crash loses what no transaction has committed.  The exceptions of the builders pass by the commit
of the transaction that they are raised in, and leave it open.

* `Operation.inTransaction`: the operations that run in a transaction.
* `perform_saved`: what an operation does to the open transaction.
* `crash_leaves_start`: after a run, a crash leaves the database of a first part of the run.  The
  rest begins with an operation in a transaction, and none of the rest that runs in a transaction
  returns.
-/

namespace NBDataBase
open Sql

/-- What a crash leaves of the database of a connection. -/
def DbConnection.durable (conn : DbConnection) : Db := conn.saved.getD conn.db

/-- Whether the operation runs in a transaction: the migrations and the arrays of several do. -/
def Operation.inTransaction : Operation → Bool
  | updateTableInDB _ | createTableTableNames _ _ => true
  | writeArray _ array => decide (2 ≤ array.length)
  | insertToDBWithDataArrayUpdate array _ _ _ => decide (2 ≤ array.length)
  | insertStrings _ array _ _ _ => decide (2 ≤ array.length)
  | insertNumbers _ array _ _ _ => decide (2 ≤ array.length)
  | _ => false

/-- Whether the operation raises no exception. -/
def Operation.returns (P : Platform) (op : Operation) (conn : DbConnection) : Bool :=
  (op.perform P conn).1.isOk

/-- What an operation does to the open transaction. -/
def Operation.effect (P : Platform) (op : Operation) (conn : DbConnection) : Fallback.Effect :=
  if op.inTransaction then if op.returns P conn then .drop else .set else .keep

variable {P : Platform}

/-- Outside a transaction nothing is begun or committed; in one an exception leaves what a result
commits. -/
def Settles (inTransaction : Bool) (x : DbConnection → Except Fault Unit × DbConnection) : Prop :=
  ∀ conn, (x conn).2.saved =
    (if inTransaction then if (x conn).1.isOk then Fallback.Effect.drop else .set else .keep).after
      conn.saved conn.db

theorem onConnection_settles (x : Action Unit) : Settles false (ArrayWrite.onConnection x) :=
  fun _ => rfl

theorem inTransactionOn_settles {block : Action Bool} (h : block.Commits) :
    Settles true (inTransactionOn block) := by
  intro conn
  have hno := h conn.db
  unfold inTransactionOn
  rcases hrun : block conn.db with ⟨e | shouldRollback, db⟩
  · simp [DbConnection.beginTransaction, hrun, Except.isOk, Except.toBool, Fallback.Effect.after]
  · rw [hrun] at hno
    cases shouldRollback with
    | true => exact absurd rfl hno
    | false =>
        simp [DbConnection.beginTransaction, DbConnection.commit, hrun, Except.isOk, Except.toBool,
          Fallback.Effect.after]

theorem migration_settles {α : Type} (x : Action α) :
    Settles true (inTransactionOn (do let _ ← x; return false)) :=
  inTransactionOn_settles (commits_bind fun _ => commits_false)

theorem run_settles (R : Runtime) (execute : String → Action Bool) (w : BatchWrite)
    (array : List w.Element) : Settles true (w.run R execute array) :=
  inTransactionOn_settles (commits_bind fun _ => commits_bind fun _ => commits_false)

theorem write_settles (R : Runtime) (execute : String → Action Bool) (w : ArrayWrite)
    (array : List Model) : Settles (decide (2 ≤ array.length)) (w.write R execute array) := by
  rcases array with _ | ⟨data, _ | ⟨data', rest⟩⟩
  · exact fun _ => rfl
  · exact onConnection_settles _
  · have hlength : decide (2 ≤ (data :: data' :: rest).length) = true := by simp
    rw [hlength]
    cases w with
    | insertTable tableClass replace => exact run_settles R execute _ _
    | insertTableName tableName replace => exact run_settles R execute _ _
    | insertColumns tableName columns replace => exact run_settles R execute _ _
    | updateTable tableClass sets => exact run_settles R execute _ _
    | updateTableName tableName sets => exact run_settles R execute _ _

theorem insertUpdate_settles (R : Runtime) (execute : String → Action Bool) (array : List Model)
    (tableName : String) (columns : Option Columns) (update : Bool) :
    Settles (decide (2 ≤ array.length))
      (insertToDBWithDataArrayUpdate R execute array tableName columns update) := by
  have hplain := write_settles R execute (.insertColumns tableName columns false) array
  cases update with
  | false =>
      rcases array with _ | ⟨data, _ | ⟨data', rest⟩⟩
      · exact hplain
      · exact hplain
      · exact hplain
  | true =>
      rcases array with _ | ⟨data, _ | ⟨data', rest⟩⟩
      · exact fun _ => rfl
      · exact onConnection_settles _
      · have hlength : decide (2 ≤ (data :: data' :: rest).length) = true := by simp
        rw [hlength]
        exact run_settles R execute (.upsert tableName columns) _

theorem insertStrings_settles (R : Runtime) (execute : String → Action Bool)
    (dataClass : ModelClass) (array : List String) (tableName columns : String) (replace : Bool) :
    Settles (decide (2 ≤ array.length))
      (insertStrings R execute dataClass array tableName columns replace) := by
  rcases array with _ | ⟨data, _ | ⟨data', rest⟩⟩
  · exact fun _ => rfl
  · exact onConnection_settles _
  · have hlength : decide (2 ≤ (data :: data' :: rest).length) = true := by simp
    rw [hlength]
    exact run_settles R execute (.insertStrings dataClass tableName columns replace) _

theorem insertNumbers_settles (R : Runtime) (execute : String → Action Bool)
    (dataClass : ModelClass) (array : List NSNumber) (tableName columns : String)
    (replace : Bool) : Settles (decide (2 ≤ array.length))
      (insertNumbers R execute dataClass array tableName columns replace) := by
  rcases array with _ | ⟨data, _ | ⟨data', rest⟩⟩
  · exact fun _ => rfl
  · exact onConnection_settles _
  · have hlength : decide (2 ≤ (data :: data' :: rest).length) = true := by simp
    rw [hlength]
    exact run_settles R execute (.insertNumbers dataClass tableName columns replace) _

/-- **What an operation does to the open transaction.** -/
theorem perform_saved (op : Operation) (conn : DbConnection) :
    (op.perform P conn).2.saved = (op.effect P conn).after conn.saved conn.db := by
  cases op with
  | updateTableInDB registedClassesArray => exact migration_settles _ conn
  | createTableTableNames tableClass tableNameArray => exact migration_settles _ conn
  | writeArray write array => exact write_settles _ _ write array conn
  | insertToDBWithDataArrayUpdate array tableName columns update =>
      exact insertUpdate_settles _ _ array tableName columns update conn
  | insertStrings dataClass array tableName columns replace =>
      exact insertStrings_settles _ _ dataClass array tableName columns replace conn
  | insertNumbers dataClass array tableName columns replace =>
      exact insertNumbers_settles _ _ dataClass array tableName columns replace conn
  | _ => rfl

/-- Operations as steps with a fallback. -/
def operations (P : Platform) : Fallback.System Operation DbConnection Db where
  step op conn := (op.perform P conn).2
  now conn := conn.db
  fallback conn := conn.saved
  effect op conn := op.effect P conn
  fallback_step op conn := perform_saved op conn

/-- **A crash leaves** what a first part of the run led to: all of it, unless an operation in a
transaction raised and none that runs in one has returned since. -/
theorem crash_leaves_start (P : Platform) (ops : List Operation) (db : Db) : ∃ kept lost,
    ops = kept ++ lost ∧
    (runOperations P ops ⟨db, none⟩).durable = (runOperations P kept ⟨db, none⟩).db ∧
    (∀ op ∈ lost.head?, op.inTransaction = true) ∧
    ∀ before op after, lost = before ++ op :: after → op.inTransaction = true →
      op.returns P (runOperations P (kept ++ before) ⟨db, none⟩) = false := by
  obtain ⟨kept, lost, hops, hdurable, hhead, hlost, -⟩ :=
    (operations P).durable_start ops (t := ⟨db, none⟩) rfl
  refine ⟨kept, lost, hops, hdurable, ?_, ?_⟩
  · intro op hop
    by_contra hno
    have heffect : op.effect P ((operations P).run kept ⟨db, none⟩) = .set := hhead op hop
    rw [Operation.effect, if_neg hno] at heffect
    cases heffect
  · intro before op after hsplit hin
    by_contra hreturns
    rw [Bool.not_eq_false] at hreturns
    refine hlost before op after hsplit ?_
    rw [← Fallback.System.run_append]
    show op.effect P (runOperations P (kept ++ before) ⟨db, none⟩) = .drop
    rw [Operation.effect, if_pos hin, if_pos hreturns]

/-- The rows that a crash leaves in the table of books. -/
def booksLeft (ops : List Operation) : Option Nat :=
  ((runOperations demoPlatform ops ⟨bookshelf, none⟩).durable "tb_books").map fun tbl =>
    tbl.rows.length

/-- Of two books a column is asked for that they lack, and a book is saved. -/
def uncommitted : List Operation :=
  [.writeArray (.insertColumns "tb_books" (some (.array ["_missing"])) false) [bareBook, bareBook],
    .insertToDBWithModelReplace bareBook false]

example : booksLeft uncommitted = some 0 := by decide +kernel

-- the next migration commits the book
example : booksLeft (uncommitted ++ [.updateTableInDB [some bookClass]]) = some 1 := by
  decide +kernel

end NBDataBase
