import NBDataBase.Orm.Statements

/-!
# Orm — operations on an open database

The operations of `NBDataBase` on a database that `openDB` has opened, from the source, over
FMDB's `executeUpdate:` and `executeQuery:`.

* `Action`: a computation on the database that may raise; what it did before it raised stays.
* `executeUpdate`, `executeQuery`, `tableExists`, `getTableSchema`: FMDB.  A text outside the
  fragment of SQL is executed as `Runtime.sqlite` says.
* The inserts, the upserts, the updates, the deletes and the existence checks.

An operation hands an empty list of values to FMDB as no arguments at all; for a statement
without parameters this is the same.
-/

namespace NBDataBase
open Sql (Db Row)

/-! ### Actions -/

/-- A computation on the database. -/
def Action (α : Type) := Db → Except Fault α × Db

namespace Action

variable {α β : Type}

instance : Monad Action where
  pure a db := (.ok a, db)
  bind x f db :=
    match x db with
    | (.ok a, db') => f a db'
    | (.error e, db') => (.error e, db')

@[simp] theorem pure_run (a : α) (db : Db) : (pure a : Action α) db = (.ok a, db) := rfl

theorem bind_run (x : Action α) (f : α → Action β) (db : Db) :
    (x >>= f) db =
      match x db with
      | (.ok a, db') => f a db'
      | (.error e, db') => (.error e, db') := rfl

theorem bind_ok {x : Action α} {f : α → Action β} {db db' : Db} {a : α}
    (h : x db = (.ok a, db')) : (x >>= f) db = f a db' := by
  rw [bind_run, h]

theorem bind_error {x : Action α} {f : α → Action β} {db db' : Db} {e : Fault}
    (h : x db = (.error e, db')) : (x >>= f) db = (.error e, db') := by
  rw [bind_run, h]

/-- A builder, which does not touch the database. -/
def build (x : Except Fault α) : Action α := fun db => (x, db)

@[simp] theorem build_run (x : Except Fault α) (db : Db) : build x db = (x, db) := rfl

/-- `f` at every element, in order. -/
def each (f : α → Action Unit) : List α → Action Unit
  | [] => pure ()
  | x :: xs => do f x; each f xs

end Action

section

variable (R : Runtime)

/-! ### FMDB -/

/-- `-[FMDatabase executeUpdate:withArgumentsInArray:]`: a text that SQLite does not prepare, too
few arguments and a failed step return NO. -/
def executeUpdate (sql : String) (args : List Obj) : Action Bool := fun db =>
  match Sql.prepare sql with
  | none =>
      match R.sqlite.update sql (args.map (bindObject R)) db with
      | some db' => (.ok true, db')
      | none => (.ok false, db)
  | some st =>
      if args.length < st.params then (.ok false, db)
      else
        match Sql.exec R.conv db st (args.map (bindObject R)) with
        | some db' => (.ok true, db')
        | none => (.ok false, db)

/-- `-[FMDatabase executeQuery:withArgumentsInArray:]`; a query that fails has no rows. -/
def executeQuery (sql : String) (args : List Obj) : Action (List Row) := fun db =>
  match Sql.prepare sql with
  | none => (.ok (R.sqlite.query sql (args.map (bindObject R)) db), db)
  | some st =>
      if args.length < st.params then (.ok [], db)
      else (.ok ((Sql.select R.conv db st (args.map (bindObject R))).getD []), db)

section

variable {R} {sql : String} {st : Sql.Stmt} {args : List Obj} {db db' : Db}

/-- A text outside the fragment. -/
theorem executeUpdate_unread (h : Sql.prepare sql = none) :
    executeUpdate R sql args db =
      (R.sqlite.update sql (args.map (bindObject R)) db).elim (.ok false, db)
        fun db' => (.ok true, db') := by
  simp only [executeUpdate, h]
  cases R.sqlite.update sql (args.map (bindObject R)) db <;> rfl

theorem executeUpdate_refused (h : Sql.prepare sql = none) (hrefused : Sql.Refused sql) :
    executeUpdate R sql args db = (.ok false, db) := by
  rw [executeUpdate_unread h, R.sqlite.refuses hrefused, Option.elim_none]

/-- What a text outside the fragment leaves. -/
theorem executeUpdate_left (h : Sql.prepare sql = none) :
    (executeUpdate R sql args db).2 =
      (R.sqlite.update sql (args.map (bindObject R)) db).getD db := by
  rw [executeUpdate_unread h]
  cases R.sqlite.update sql (args.map (bindObject R)) db <;> rfl

theorem executeUpdate_done (hst : Sql.prepare sql = some st) (hlen : st.params ≤ args.length)
    (hexec : Sql.exec R.conv db st (args.map (bindObject R)) = some db') :
    executeUpdate R sql args db = (.ok true, db') := by
  simp only [executeUpdate, hst, if_neg (Nat.not_lt.mpr hlen), hexec]

theorem executeUpdate_failed (hst : Sql.prepare sql = some st) (hlen : st.params ≤ args.length)
    (hexec : Sql.exec R.conv db st (args.map (bindObject R)) = none) :
    executeUpdate R sql args db = (.ok false, db) := by
  simp only [executeUpdate, hst, if_neg (Nat.not_lt.mpr hlen), hexec]

theorem executeQuery_done (hst : Sql.prepare sql = some st) (hlen : st.params ≤ args.length)
    {rows : List Row} (hselect : Sql.select R.conv db st (args.map (bindObject R)) = some rows) :
    executeQuery R sql args db = (.ok rows, db) := by
  simp only [executeQuery, hst, if_neg (Nat.not_lt.mpr hlen), hselect]
  rfl

end

/-- `-[FMDatabase tableExists:]`: `lower(name)` is compared with `lowercaseString`. -/
def tableExists (tableName : String) : Action Bool := fun db =>
  (.ok (db (R.lowercaseString tableName)).isSome, db)

/-- `-[FMDatabase getTableSchema:]`: the names of the columns. -/
def getTableSchema (tableName : String) : Action (List String) := fun db =>
  (.ok (((db (Sql.fold tableName)).map fun tbl => tbl.columns.map (·.1)).getD []), db)

/-- `inDatabase:`. -/
def inDatabase {α : Type} (block : Action α) : Action α := block

/-- `inTransaction:` when BEGIN and COMMIT succeed. -/
def inTransaction {α : Type} (block : Action α) : Action α := block

/-- Execute the statement of a builder, if there is one. -/
def executeBuilt (built : Except Fault (Option (String × List Obj))) : Action Bool := do
  match ← Action.build built with
  | some (sql, values) => inDatabase (executeUpdate R sql values)
  | none => return false

variable {R} in
theorem executeBuilt_some {built : Except Fault (Option (String × List Obj))} {sql : String}
    {values : List Obj} (h : built = .ok (some (sql, values))) (db : Db) :
    executeBuilt R built db = executeUpdate R sql values db := by
  subst h; rfl

variable {R} in
theorem executeBuilt_none {built : Except Fault (Option (String × List Obj))}
    (h : built = .ok none) (db : Db) : executeBuilt R built db = (.ok false, db) := by
  subst h; rfl

variable {R} in
theorem executeBuilt_error {built : Except Fault (Option (String × List Obj))} {e : Fault}
    (h : built = .error e) (db : Db) : executeBuilt R built db = (.error e, db) := by
  subst h; rfl

/-- Whether the query of a builder has a row. -/
def hasRow (built : Except Fault (Option (String × List Obj))) : Action Bool := do
  match ← Action.build built with
  | some (sql, values) =>
      let rs ← inDatabase (executeQuery R sql values)
      return !rs.isEmpty
  | none => return false

variable {R} in
theorem hasRow_some {built : Except Fault (Option (String × List Obj))} {sql : String}
    {values : List Obj} {db db' : Db} {rows : List Row} (h : built = .ok (some (sql, values)))
    (hquery : executeQuery R sql values db = (.ok rows, db')) :
    hasRow R built db = (.ok (!rows.isEmpty), db') := by
  subst h
  exact Action.bind_ok hquery

variable {R} in
theorem hasRow_error {built : Except Fault (Option (String × List Obj))} {e : Fault}
    (h : built = .error e) (db : Db) : hasRow R built db = (.error e, db) := by
  subst h; rfl

/-- The rows `queryBaseWithParams:` reads for a query of one table. -/
def queryBaseWithParams (params : NBDBQueryParams) : Action (List Row) := do
  match ← Action.build (createSelectSQLWithParams R params) with
  | some (sql, values) => inDatabase (executeQuery R sql values)
  | none => return []

def createTableIfNotExists (tableClass : ModelClass) (tableName : String) : Action Unit := do
  if !(← tableExists R tableName) then
    match createTableSQLWithTableName tableClass (some tableName) with
    | some sql => let _ ← executeUpdate R sql []
    | none => return ()

/-! ### Existence -/

def isExistsWithModel (model : Model) : Action Bool :=
  hasRow R (createSelectSQLWithPrimaryKey R model none)

def isExistsWithModelTableName (model : Model) (tableName : String) : Action Bool :=
  hasRow R (createSelectSQLWithPrimaryKeyAndTableName R model (some tableName) none)

/-! ### Inserts of one model -/

def insertToDBWithModelReplace (model : Model) (replace : Bool) : Action Bool :=
  executeBuilt R (createInsertSQL R model none replace)

def insertToDBWithModel (model : Model) : Action Bool := insertToDBWithModelReplace R model false

def insertToDBWithModelTableReplace (model : Model) (tableClass : ModelClass) (replace : Bool) :
    Action Bool :=
  executeBuilt R (createInsertSQLWithModelAndBeginClass R model tableClass replace)

def insertToDBWithModelUpdate (model : Model) (update : Bool) : Action Bool := do
  let isExists ← if update then isExistsWithModel R model else pure false
  if isExists then executeBuilt R (createUpdateSQL R model none none)
  else insertToDBWithModelReplace R model false

def insertToDBWithModelTableNameReplace (model : Model) (tableName : String) (replace : Bool) :
    Action Bool := inDatabase do
  createTableIfNotExists R model.cls tableName
  executeBuilt R (createInsertSQL R model (some tableName) replace)

/-! ### Deletes and updates -/

def deleteRecordWithModel (model : Model) : Action Bool :=
  executeBuilt R (createDeleteSQL R model none)

def deleteRecordFromTableName (tableName : String) (condition : Option Where) : Action Bool := do
  if tableName.length = 0 then
    Action.build (assertNo R)
    return false
  executeBuilt R (createDeleteSQLWithTableName R (some tableName) condition)

def updateWithModelTableSetWhere (model : Model) (tableClass : ModelClass)
    (sets : Option Sets) (condition : Option Where) : Action Bool := do
  if (tableClass.getTableName.getD "").length = 0 then
    Action.build (assertNo R)
    return false
  executeBuilt R (createUpdateSQLWithModelAndTableClass R model tableClass sets condition)

def updateTableNameSetWhere (tableName : String) (sets : Option Sets)
    (condition : Option Where) : Action Bool := do
  if tableName.length = 0 then
    Action.build (assertNo R)
    return false
  executeBuilt R (createUpdateSQLWithTableName R (some tableName) sets condition)

/-! ### Batches -/

/-- A `columns` argument as a `sets` argument. -/
def Columns.sets : Columns → Sets
  | .string s => .string s
  | .array columns => .array columns
  | .other => .other

def ignore (x : Action Bool) : Action Unit := do let _ ← x

/-- One element of an upsert: the select, and the update or the insert it leads to. -/
def upsertStep (select update insert : Except Fault (Option (String × List Obj))) :
    Action Unit := do
  match ← Action.build select with
  | none => return ()
  | some (sql, values) =>
      let rs ← executeQuery R sql values
      if !rs.isEmpty then ignore (executeBuilt R update) else ignore (executeBuilt R insert)

/-- `insertToDBWithDataArray:tableName:columns:update:` with YES, of models.  An array of one is
written to `tableName`; the statements of a longer one are those of the tables of its models. -/
def insertToDBWithDataArrayTableNameColumnsUpdate (array : List Model) (tableName : String)
    (columns : Option Columns) : Action Unit :=
  match array with
  | [] => return ()
  | [data] => inDatabase do
      createTableIfNotExists R data.cls tableName
      let _ ← getTableSchema tableName
      upsertStep R (createSelectSQLWithPrimaryKeyAndTableName R data (some tableName) none)
        (createUpdateSQLWithModelAndTableName R data (some tableName) (columns.map Columns.sets)
          none)
        (createInsertSQLWithColumns R data (some tableName) columns false)
  | first :: _ => inTransaction do
      createTableIfNotExists R first.cls tableName
      let _ ← getTableSchema tableName
      Action.each (fun data =>
        upsertStep R (createSelectSQLWithPrimaryKey R data none)
          (createUpdateSQLWithModelAndTableClass R data data.cls (columns.map Columns.sets) none)
          (createInsertSQLWithColumns R data none columns false)) array

end

end NBDataBase
