import NBDataBase.Orm.Named
import NBDataBase.Orm.Shapes
import NBDataBase.Orm.Strings
import NBDataBase.Orm.Unconditional
import NBDataBase.Orm.UpsertColumns
import NBDataBase.Sql.Change

/-!
# Orm — the operations of the API

The public methods of `NBDataBase` and of the models, on a database that `openDB` has opened, from
the source.  A method that fills in arguments of another is that one with these arguments.

* The inserts, deletes, updates, queries and existence checks that other modules do not define.
* `Platform`: what the methods rely on.
* `Operation`: the methods that take all their arguments.  `Operation.perform`: what one does on a
  connection.
-/

namespace NBDataBase
open Sql (Db)

section

variable (R : Runtime)

/-! ### Inserts of one model -/

/-- `insertToDBWithModel:update:columns:`. -/
def insertToDBWithModelUpdateColumns (model : Model) (update : Bool) (columns : Sets) :
    Action Bool := do
  let isExists ← if update then isExistsWithModel R model else pure false
  if isExists then executeBuilt R (createUpdateSQL R model (some columns) none)
  else insertToDBWithModelReplace R model false

/-- `insertToDBWithModel:table:`. -/
def insertToDBWithModelTable (model : Model) (tableClass : ModelClass) : Action Bool :=
  executeBuilt R (createInsertSQLWithModelAndBeginClass R model tableClass false)

/-- `insertToDBWithModel:tableName:`. -/
def insertToDBWithModelTableName (model : Model) (tableName : String) : Action Bool :=
  insertToDBWithModelTableNameReplace R model tableName false

/-! ### Inserts of arrays -/

section Arrays

variable (execute : String → Action Bool)

/-- `insertToDBWithDataArray:table:replace:`. -/
def insertToDBWithDataArrayTableReplace (array : List Model) (tableClass : ModelClass)
    (replace : Bool) : DbConnection → Except Fault Unit × DbConnection :=
  (ArrayWrite.insertTable tableClass replace).write R execute array

/-- `insertToDBWithDataArray:table:`. -/
def insertToDBWithDataArrayTable (array : List Model) (tableClass : ModelClass) :
    DbConnection → Except Fault Unit × DbConnection :=
  insertToDBWithDataArrayTableReplace R execute array tableClass false

/-- `insertToDBWithDataArray:`. -/
def insertToDBWithDataArray (array : List Model) (conn : DbConnection) :
    Except Fault Unit × DbConnection :=
  match array with
  | [] => (.ok (), conn)
  | first :: _ => insertToDBWithDataArrayTableReplace R execute array first.cls false conn

/-- `insertToDBWithDataArray:tableName:replace:`. -/
def insertToDBWithDataArrayTableNameReplace (array : List Model) (tableName : String)
    (replace : Bool) : DbConnection → Except Fault Unit × DbConnection :=
  (ArrayWrite.insertTableName tableName replace).write R execute array

/-- `insertToDBWithDataArray:tableName:`. -/
def insertToDBWithDataArrayTableName (array : List Model) (tableName : String) :
    DbConnection → Except Fault Unit × DbConnection :=
  insertToDBWithDataArrayTableNameReplace R execute array tableName false

/-- `insertToDBWithDataArray:tableName:columns:replace:`, of models. -/
def insertToDBWithDataArrayTableNameColumnsReplace (array : List Model) (tableName : String)
    (columns : Option Columns) (replace : Bool) :
    DbConnection → Except Fault Unit × DbConnection :=
  (ArrayWrite.insertColumns tableName columns replace).write R execute array

/-- `insertToDBWithDataArray:tableName:columns:update:`, of models. -/
def insertToDBWithDataArrayUpdate (array : List Model) (tableName : String)
    (columns : Option Columns) (update : Bool) (conn : DbConnection) :
    Except Fault Unit × DbConnection :=
  match array with
  | [] => (.ok (), conn)
  | [data] =>
      if !update then
        insertToDBWithDataArrayTableNameColumnsReplace R execute [data] tableName columns false conn
      else
        ArrayWrite.onConnection
          (insertToDBWithDataArrayTableNameColumnsUpdate R [data] tableName columns) conn
  | array =>
      if !update then
        insertToDBWithDataArrayTableNameColumnsReplace R execute array tableName columns false conn
      else (BatchWrite.upsert tableName columns).run R execute array conn

/-- `insertToDBWithDataArray:tableName:update:`. -/
def insertToDBWithDataArrayTableNameUpdate (array : List Model) (tableName : String)
    (update : Bool) : DbConnection → Except Fault Unit × DbConnection :=
  insertToDBWithDataArrayUpdate R execute array tableName none update

/-- `insertToDBWithModel:tableName:update:`. -/
def insertToDBWithModelTableNameUpdate (model : Model) (tableName : String) (update : Bool) :
    DbConnection → Except Fault Unit × DbConnection :=
  insertToDBWithDataArrayTableNameUpdate R execute [model] tableName update

/-- `insertToDBWithDataArray:tableName:columns:replace:` of numbers; `dataClass` is the class of the
first. -/
def insertNumbers (dataClass : ModelClass) (array : List NSNumber) (tableName columns : String)
    (replace : Bool) (conn : DbConnection) : Except Fault Unit × DbConnection :=
  match array with
  | [] => (.ok (), conn)
  | [data] => ArrayWrite.onConnection (inDatabase do
      createTableIfNotExists R dataClass tableName
      ignore (execute (insertValueText tableName columns (R.description (.number data)) replace)))
      conn
  | _ => (BatchWrite.insertNumbers dataClass tableName columns replace).run R execute array conn

/-- `updateWithDataArray:set:`. -/
def updateWithDataArraySet (array : List Model) (sets : Option Sets) (conn : DbConnection) :
    Except Fault Unit × DbConnection :=
  match array with
  | [] => (.ok (), conn)
  | first :: _ => (ArrayWrite.updateTable first.cls sets).write R execute array conn

/-- `updateWithDataArray:`. -/
def updateWithDataArray (array : List Model) :
    DbConnection → Except Fault Unit × DbConnection :=
  updateWithDataArraySet R execute array none

/-- `updateWithDataArray:tableName:`. -/
def updateWithDataArrayTableName (array : List Model) (tableName : String) :
    DbConnection → Except Fault Unit × DbConnection :=
  (ArrayWrite.updateTableName tableName none).write R execute array

/-! The forms by the class of the table, of a class that has one. -/

/-- `insertToDBWithDataArray:table:columns:replace:`. -/
def insertToDBWithDataArrayTableColumnsReplace (array : List Model) (tableClass : ModelClass)
    {tableName : String} (_named : tableClass.getTableName = some tableName)
    (columns : Option Columns) (replace : Bool) :
    DbConnection → Except Fault Unit × DbConnection :=
  insertToDBWithDataArrayTableNameColumnsReplace R execute array tableName columns replace

/-- `insertToDBWithDataArray:table:columns:update:`. -/
def insertToDBWithDataArrayTableColumnsUpdate (array : List Model) (tableClass : ModelClass)
    {tableName : String} (_named : tableClass.getTableName = some tableName)
    (columns : Option Columns) (update : Bool) :
    DbConnection → Except Fault Unit × DbConnection :=
  insertToDBWithDataArrayUpdate R execute array tableName columns update

/-- `insertToDBWithDataArray:table:update:`. -/
def insertToDBWithDataArrayTableUpdate (array : List Model) (tableClass : ModelClass)
    {tableName : String} (named : tableClass.getTableName = some tableName) (update : Bool) :
    DbConnection → Except Fault Unit × DbConnection :=
  insertToDBWithDataArrayTableColumnsUpdate R execute array tableClass named none update

/-- `insertToDBWithModel:table:update:`. -/
def insertToDBWithModelTableUpdate (model : Model) (tableClass : ModelClass) {tableName : String}
    (named : tableClass.getTableName = some tableName) (update : Bool) :
    DbConnection → Except Fault Unit × DbConnection :=
  insertToDBWithDataArrayTableUpdate R execute [model] tableClass named update

end Arrays

/-! ### Deletes and updates -/

/-- `executeUpdate:` of a text that may be a `DROP TABLE`. -/
def executeDrop (sql : String) : Action Bool := fun db =>
  match Sql.prepareDrop sql with
  | none => executeUpdate R sql [] db
  | some t =>
      match Sql.dropTable db t with
      | some db' => (.ok true, db')
      | none => (.ok false, db)

/-- `deleteTableName:`. -/
def deleteTableName (tableName : String) : Action Bool := do
  if tableName.length = 0 then
    Action.build (assertNo R)
    return false
  inDatabase (executeDrop R ("DROP TABLE " ++ tableName))

/-- `eraseTableName:`. -/
def eraseTableName (tableName : String) : Action Bool := do
  if tableName.length = 0 then
    Action.build (assertNo R)
    return false
  inDatabase (executeUpdate R ("DELETE FROM " ++ tableName) [])

/-- `deleteTable:`. -/
def deleteTable (tableClass : ModelClass) : Action Bool :=
  deleteTableName R (tableClass.getTableName.getD "")

/-- `eraseTable:`. -/
def eraseTable (tableClass : ModelClass) : Action Bool :=
  eraseTableName R (tableClass.getTableName.getD "")

/-- `deleteRecordWithModel:tableName:`. -/
def deleteRecordWithModelTableName (model : Model) (tableName : String) : Action Bool :=
  executeBuilt R (createDeleteSQLWithModelAndTableName R model (some tableName) none)

/-- `updateWithModel:where:`. -/
def updateWithModelWhere (model : Model) (condition : Option Where) : Action Bool :=
  updateWithModelTableSetWhere R model model.cls none condition

/-- `updateWithModel:set:where:`. -/
def updateWithModelSetWhere (model : Model) (sets : Option Sets) (condition : Option Where) :
    Action Bool :=
  updateWithModelTableSetWhere R model model.cls sets condition

/-! ### Queries -/

/-- The parameters of `query:table:columns:where:orderBy:offset:count:`. -/
def queryTable (modelClass : ModelClass) (tableClass : Option ModelClass)
    (args : JoinArguments) : NBDBUnionParams :=
  args.fill { toClass := some modelClass, tableClass := tableClass.or (some modelClass) }

/-- The parameters of `query:tableName:columns:where:orderBy:offset:count:`. -/
def queryTableName (modelClass : ModelClass) (tableName : Option String) (args : JoinArguments) :
    NBDBUnionParams :=
  args.fill
    { toClass := some modelClass
      tableName := tableName
      tableClass := if tableName.isSome then none else some modelClass }

/-- `isExistTableName:`. -/
def isExistTableName (tableName : String) : Action Bool := do
  if tableName.length = 0 then Action.build (assertNo R)
  inDatabase (tableExists R tableName)

/-- `isExistTable:`. -/
def isExistTable (tableClass : ModelClass) : Action Bool :=
  isExistTableName R (tableClass.getTableName.getD "")

/-! ### Models -/

/-- `saveToDB`. -/
def saveToDB (self : Model) : Action Bool := insertToDBWithModelReplace R self false

/-- `saveToDBUseUpdate`. -/
def saveToDBUseUpdate (self : Model) : Action Bool := insertToDBWithModelUpdate R self true

/-- `saveToDBUseUpdateWithColumns:`. -/
def saveToDBUseUpdateWithColumns (self : Model) (columns : Sets) : Action Bool :=
  insertToDBWithModelUpdateColumns R self true columns

/-- `updateDBWithColumns:`. -/
def updateDBWithColumns (self : Model) (columns : Option Sets) : Action Bool :=
  updateWithModelSetWhere R self columns none

/-- `saveToDBUseReplace`. -/
def saveToDBUseReplace (self : Model) : Action Bool := insertToDBWithModelReplace R self true

/-- `deleteToDB`. -/
def deleteToDB (self : Model) : Action Bool := deleteRecordWithModel R self

/-- `isExistsFromDB`. -/
def isExistsFromDB (self : Model) : Action Bool := isExistsWithModel R self

/-- `saveToDBTable:`. -/
def saveToDBTable (self : Model) (tableName : String) : Action Bool :=
  insertToDBWithModelTableNameReplace R self tableName false

/-- `saveToDBUseUpdateInTable:`. -/
def saveToDBUseUpdateInTable (execute : String → Action Bool) (self : Model) (tableName : String) :
    DbConnection → Except Fault Unit × DbConnection :=
  insertToDBWithModelTableNameUpdate R execute self tableName true

/-- `saveToDBUseReplaceInTable:`. -/
def saveToDBUseReplaceInTable (self : Model) (tableName : String) : Action Bool :=
  insertToDBWithModelTableNameReplace R self tableName true

/-- `saveToDBTable:updateColumns:`. -/
def saveToDBTableUpdateColumns (self : Model) (tableName : String) (columns : Columns) :
    Action Bool :=
  insertToDBWithModelTableNameUpdateColumns R self tableName true columns

/-- `updateDBTable:columns:`. -/
def updateDBTableColumns (self : Model) (tableName : String) (columns : Option Sets) :
    Action Bool :=
  updateWithModelTableNameSetWhere R self tableName columns none

/-- `deleteFromDBTable:`. -/
def deleteFromDBTable (self : Model) (tableName : String) : Action Bool :=
  deleteRecordWithModelTableName R self tableName

/-- `isExistsFromDBTable:`. -/
def isExistsFromDBTable (self : Model) (tableName : String) : Action Bool :=
  isExistsWithModelTableName R self tableName

end

/-! ### Operations -/

/-- What the methods rely on. -/
structure Platform where
  runtime : Runtime
  foundation : Foundation
  order : KeyOrder
  executeQuery : String → List Obj → Db → Option FMResultSet

/-- The public methods that write or read tables, with all their arguments.  Those with fewer are
such operations with the arguments that they fill in. -/
inductive Operation where
  /-- `+updateTableInDB`. -/
  | updateTableInDB (registedClassesArray : List (Option ModelClass))
  /-- `+createTable:tableNames:`. -/
  | createTableTableNames (tableClass : ModelClass) (tableNameArray : List String)
  /-- `insertToDBWithModel:replace:`. -/
  | insertToDBWithModelReplace (model : Model) (replace : Bool)
  /-- `insertToDBWithModel:table:replace:`. -/
  | insertToDBWithModelTableReplace (model : Model) (tableClass : ModelClass) (replace : Bool)
  /-- `insertToDBWithModel:update:`. -/
  | insertToDBWithModelUpdate (model : Model) (update : Bool)
  /-- `insertToDBWithModel:update:columns:`. -/
  | insertToDBWithModelUpdateColumns (model : Model) (update : Bool) (columns : Sets)
  /-- `insertToDBWithModel:tableName:replace:`. -/
  | insertToDBWithModelTableNameReplace (model : Model) (tableName : String) (replace : Bool)
  /-- `insertToDBWithModel:tableName:update:columns:`. -/
  | insertToDBWithModelTableNameUpdateColumns (model : Model) (tableName : String)
      (update : Bool) (columns : Columns)
  /-- The inserts and updates of an array of models. -/
  | writeArray (write : ArrayWrite) (array : List Model)
  /-- `insertToDBWithDataArray:tableName:columns:update:`, of models. -/
  | insertToDBWithDataArrayUpdate (array : List Model) (tableName : String)
      (columns : Option Columns) (update : Bool)
  /-- `insertToDBWithDataArray:tableName:columns:replace:`, of strings. -/
  | insertStrings (dataClass : ModelClass) (array : List String) (tableName columns : String)
      (replace : Bool)
  /-- The same, of numbers. -/
  | insertNumbers (dataClass : ModelClass) (array : List NSNumber) (tableName columns : String)
      (replace : Bool)
  /-- `deleteRecordWithModel:`. -/
  | deleteRecordWithModel (model : Model)
  /-- `deleteRecordWithModel:tableName:`. -/
  | deleteRecordWithModelTableName (model : Model) (tableName : String)
  /-- `deleteRecordFromTableName:where:`. -/
  | deleteRecordFromTableName (tableName : String) (condition : Option Where)
  /-- `deleteTableName:`. -/
  | deleteTableName (tableName : String)
  /-- `eraseTableName:`. -/
  | eraseTableName (tableName : String)
  /-- `updateWithModel:table:set:where:`. -/
  | updateWithModelTableSetWhere (model : Model) (tableClass : ModelClass) (sets : Option Sets)
      (condition : Option Where)
  /-- `updateWithModel:tableName:set:where:`. -/
  | updateWithModelTableNameSetWhere (model : Model) (tableName : String) (sets : Option Sets)
      (condition : Option Where)
  /-- `updateTableName:set:where:`. -/
  | updateTableNameSetWhere (tableName : String) (sets : Option Sets) (condition : Option Where)
  /-- `isExistsWithModel:`. -/
  | isExistsWithModel (model : Model)
  /-- `isExistsWithModel:tableName:`. -/
  | isExistsWithModelTableName (model : Model) (tableName : String)
  /-- `isExistTableName:`. -/
  | isExistTableName (tableName : String)
  /-- The queries of one table or of two: `queryBaseWithParams:`. -/
  | query (toClass : ResultClass) (params : NBDBUnionParams)

/-- An action with a result that is not looked at. -/
def Action.unit {α : Type} (x : Action α) : Action Unit := do let _ ← x

section

variable (P : Platform)

/-- What an operation does on a connection. -/
def Operation.perform (op : Operation) (conn : DbConnection) : Except Fault Unit × DbConnection :=
  let R := P.runtime
  let execute := executeText R fun sql => executeUpdate R sql []
  match op with
  | updateTableInDB registedClassesArray => inTransactionOn (do
      let _ ← NBDataBase.updateTableInDB R P.order registedClassesArray
      return false) conn
  | createTableTableNames tableClass tableNameArray => inTransactionOn (do
      let _ ← NBDataBase.createTableTableNames R P.order tableClass tableNameArray
      return false) conn
  | insertToDBWithModelReplace model replace =>
      ArrayWrite.onConnection (.unit (NBDataBase.insertToDBWithModelReplace R model replace)) conn
  | insertToDBWithModelTableReplace model tableClass replace => ArrayWrite.onConnection
      (.unit (NBDataBase.insertToDBWithModelTableReplace R model tableClass replace)) conn
  | insertToDBWithModelUpdate model update =>
      ArrayWrite.onConnection (.unit (NBDataBase.insertToDBWithModelUpdate R model update)) conn
  | insertToDBWithModelUpdateColumns model update columns => ArrayWrite.onConnection
      (.unit (NBDataBase.insertToDBWithModelUpdateColumns R model update columns)) conn
  | insertToDBWithModelTableNameReplace model tableName replace => ArrayWrite.onConnection
      (.unit (NBDataBase.insertToDBWithModelTableNameReplace R model tableName replace)) conn
  | insertToDBWithModelTableNameUpdateColumns model tableName update columns =>
      ArrayWrite.onConnection (.unit
        (NBDataBase.insertToDBWithModelTableNameUpdateColumns R model tableName update columns))
        conn
  | writeArray write array => write.write R execute array conn
  | insertToDBWithDataArrayUpdate array tableName columns update =>
      NBDataBase.insertToDBWithDataArrayUpdate R execute array tableName columns update conn
  | insertStrings dataClass array tableName columns replace =>
      NBDataBase.insertStrings R execute dataClass array tableName columns replace conn
  | insertNumbers dataClass array tableName columns replace =>
      NBDataBase.insertNumbers R execute dataClass array tableName columns replace conn
  | deleteRecordWithModel model =>
      ArrayWrite.onConnection (.unit (NBDataBase.deleteRecordWithModel R model)) conn
  | deleteRecordWithModelTableName model tableName => ArrayWrite.onConnection
      (.unit (NBDataBase.deleteRecordWithModelTableName R model tableName)) conn
  | deleteRecordFromTableName tableName condition => ArrayWrite.onConnection
      (.unit (NBDataBase.deleteRecordFromTableName R tableName condition)) conn
  | deleteTableName tableName =>
      ArrayWrite.onConnection (.unit (NBDataBase.deleteTableName R tableName)) conn
  | eraseTableName tableName =>
      ArrayWrite.onConnection (.unit (NBDataBase.eraseTableName R tableName)) conn
  | updateWithModelTableSetWhere model tableClass sets condition => ArrayWrite.onConnection
      (.unit (NBDataBase.updateWithModelTableSetWhere R model tableClass sets condition)) conn
  | updateWithModelTableNameSetWhere model tableName sets condition => ArrayWrite.onConnection
      (.unit (NBDataBase.updateWithModelTableNameSetWhere R model tableName sets condition)) conn
  | updateTableNameSetWhere tableName sets condition => ArrayWrite.onConnection
      (.unit (NBDataBase.updateTableNameSetWhere R tableName sets condition)) conn
  | isExistsWithModel model =>
      ArrayWrite.onConnection (.unit (NBDataBase.isExistsWithModel R model)) conn
  | isExistsWithModelTableName model tableName => ArrayWrite.onConnection
      (.unit (NBDataBase.isExistsWithModelTableName R model tableName)) conn
  | isExistTableName tableName =>
      ArrayWrite.onConnection (.unit (NBDataBase.isExistTableName R tableName)) conn
  | query toClass params => ArrayWrite.onConnection (.unit fun db =>
      (queryElements P.foundation R P.executeQuery toClass params db, db)) conn

/-- Operations in a row, on one connection. -/
def runOperations (ops : List Operation) (conn : DbConnection) : DbConnection :=
  ops.foldl (fun conn op => (op.perform P conn).2) conn

end

end NBDataBase
