import NBDataBase.Orm.Names

/-!
# Orm — statement texts

`NBSQLStatementHelper`, from the source: the SQL text and the values of each statement.  A
builder that raises ends in a `Fault`; one that returns nil ends in `none`.

The two loops that build an `INSERT` of a whole model have one body, `insertStep`; their class
hierarchies differ.  An `NSMutableString` that grows item by item puts `comma` before each item.
-/

namespace NBDataBase

/-! ### Arguments -/

/-- An `NSDictionary`, in the order in which it enumerates its keys. -/
structure NSDictionary (β : Type) where
  entries : List (String × β)
  nodup : (entries.map (·.1)).Nodup

/-- A value of a `where` dictionary: an `NSArray`, or anything else. -/
inductive WhereValue where
  | scalar (v : Obj)
  | array (vlist : List Obj)
  deriving DecidableEq

/-- A `where` argument that is not nil. -/
inductive Where where
  | string (s : String)
  | dictionary (dic : NSDictionary WhereValue)
  | other

/-- A `sets` argument that is not nil. -/
inductive Sets where
  | string (s : String)
  | array (columns : List String)
  | dictionary (dic : NSDictionary Obj)
  | other

/-- A `columns` argument that is not nil. -/
inductive Columns where
  | string (s : String)
  | array (columns : List String)
  | other

/-- `NBDBQueryParams`, for a query of one table.  `toClass` is none when it is no model class. -/
structure NBDBQueryParams where
  tableName : Option String := none
  tableClass : Option ModelClass := none
  toClass : Option ModelClass := none
  columnArray : List String := []
  columns : Option String := none
  condition : Option String := none
  whereDic : Option (NSDictionary WhereValue) := none
  usePrimaryKeyIfWhereIsNil : Bool := false
  groupBy : Option String := none
  orderBy : Option String := none
  offset : ℤ := 0
  count : ℤ := 0

/-- `componentsSeparatedByString:@","`. -/
def componentsSeparatedByComma (s : String) : List String :=
  (s.toList.splitOn ',').map String.ofList

/-- `+[NBDBHelper checkStringIsEmpty:]` of a string. -/
def checkStringIsEmpty (s : String) : Bool :=
  s.toList.all fun c => c.isWhitespace || c == '\x0b' || c == '\x0c' || c == '\u0085' ||
    c == '\u00a0' || c == '\u1680' || decide (0x2000 ≤ c.toNat ∧ c.toNat ≤ 0x200b) ||
    c == '\u2028' || c == '\u2029' || c == '\u202f' || c == '\u205f' || c == '\u3000'

/-- `checkStringIsEmpty:` of a string that may be nil. -/
def checkIsEmpty (s : Option String) : Bool := (s.map checkStringIsEmpty).getD true

/-- The comma before the next item of a list that has `s` so far. -/
def comma (s : String) : String := if s.length > 0 then "," else ""

/-- An assertion that fails. -/
def assertNo (R : Runtime) : Except Fault Unit := if R.asserts then throw .assertion else pure ()

/-- `addObject:` raises on nil. -/
def addObject (values : List Obj) : Option Obj → Except Fault (List Obj)
  | some v => pure (values ++ [v])
  | none => throw .invalidArgument

/-- A nil string in a format. -/
def formatted (s : Option String) : String := s.getD "(null)"

/-! ### `CREATE TABLE` -/

def tableParsStep (tablePars : String) (p : Property) : String :=
  if !isColumn p.name then tablePars
  else
    match p.columnType with
    | none => tablePars
    | some columnType => tablePars ++ (comma tablePars ++ (p.column ++ (" " ++ columnType)))

def createTableSQLWithTableName (tableClass : ModelClass) (tableName : Option String) :
    Option String :=
  match tableName.or tableClass.getTableName with
  | none => none
  | some tableName =>
      let tablePars := (properties tableClass.chain).foldl tableParsStep ""
      let pksb := (getPrimaryKeys tableClass.chain).foldl (fun s pk => s ++ (comma s ++ pk)) ""
      let pksb := if pksb.length > 0 then ",PRIMARY KEY(" ++ (pksb ++ ")") else pksb
      if tablePars.length < 1 then none
      else some ("CREATE TABLE IF NOT EXISTS " ++
        (tableName ++ (" (" ++ (tablePars ++ (pksb ++ ")")))))

def createTableSQL (modelClass : ModelClass) : Option String :=
  createTableSQLWithTableName modelClass none

section Builders

variable (R : Runtime)

/-! ### `INSERT` -/

/-- What is bound for a value of the property: its archive, when its column is a `BLOB` and the
value is no `NSData`. -/
def Property.encode (p : Property) (value : Obj) : Obj :=
  if p.columnType = some "BLOB" ∧ value.isData = false then .data (R.archivedData value)
  else value

/-- The name of the instance variable called as the column; without one, `stringWithUTF8String:`
gets `NULL`. -/
def ivarKey (chain : List ClassDecl) (p : Property) : Except Fault String :=
  match getInstanceVariable chain p.column with
  | some ivar => pure ivar.name
  | none => throw .invalidArgument

/-- `insertKeyString`, `insertValuesString` and `insertValues`. -/
structure InsertState where
  keys : String := ""
  marks : String := ""
  values : List Obj := []

namespace InsertState

def append (s : InsertState) (key : String) (value : Obj) : InsertState where
  keys := s.keys ++ (comma s.keys ++ key)
  marks := s.marks ++ (comma s.keys ++ "?")
  values := s.values ++ [value]

end InsertState

/-- The body of the loop over the properties. -/
def insertStep (model : Model) (s : InsertState) (p : Property) : Except Fault InsertState := do
  if isColumn p.name then
    let key ← ivarKey model.cls.chain p
    match ← model.valueForKey key with
    | some value => return s.append key (p.encode R value)
    | none => return s
  else return s

/-- The body of the loop over explicit columns. -/
def insertColumnStep (model : Model) (s : InsertState) (column : String) :
    Except Fault InsertState := do
  match ← model.valueForKey column with
  | some value => return s.append column value
  | none => return s

def insertText (tablename : String) (replace : Bool) (s : InsertState) :
    Option (String × List Obj) :=
  if s.marks = "" then none
  else some ("insert " ++ ((if replace then "or replace into " else "or ignore into ") ++
    (tablename ++ (" (" ++ (s.keys ++ (") values (" ++ (s.marks ++ ")")))))), s.values)

/-- The columns of a `columns` argument; `assert(NO)` and then nothing for another object. -/
def columnsArray : Columns → Except Fault (List String)
  | .string s => pure (componentsSeparatedByComma s)
  | .array columns => pure columns
  | .other => do assertNo R; return []

def createInsertSQLWithColumns (model : Model) (tableName : Option String)
    (columns : Option Columns) (replace : Bool) : Except Fault (Option (String × List Obj)) :=
  match tableName.or model.cls.getTableName with
  | none => pure none
  | some tablename => do
      match columns with
      | some columns =>
          let s ← (← columnsArray R columns).foldlM (insertColumnStep model) {}
          return insertText tablename replace s
      | none =>
          let s ← (properties model.cls.chain).foldlM (insertStep R model) {}
          return insertText tablename replace s

def createInsertSQL (model : Model) (tableName : Option String) (replace : Bool) :
    Except Fault (Option (String × List Obj)) :=
  createInsertSQLWithColumns R model tableName none replace

def createInsertSQLWithModelAndBeginClass (model : Model) (beginClass : ModelClass)
    (replace : Bool) : Except Fault (Option (String × List Obj)) :=
  match beginClass.getTableName with
  | none => pure none
  | some tablename => do
      let s ← (properties beginClass.chain).foldlM (insertStep R model) {}
      return insertText tablename replace s

/-! ### `WHERE` -/

/-- The body of the loop of `wherePrimaryKeySQLWithModel`. -/
def primaryKeyStep (model : Model) (s : String × List Obj) (v : List ClassDecl × Property) :
    Except Fault (String × List Obj) := do
  if isPrimaryKey v.2.name then
    let key ← ivarKey v.1 v.2
    match ← model.valueForKey key with
    | some value =>
        return (s.1 ++ ((if s.1.length > 0 then "and" else " where ") ++
          (" " ++ (key ++ "=? "))), s.2 ++ [value])
    | none => return s
  else return s

def wherePrimaryKeySQLWithModel (model : Model) : Except Fault (String × List Obj) := do
  let s ← (visits model.cls.chain).foldlM (primaryKeyStep model) ("", [])
  if s.1.length = 0 then assertNo R
  return s

/-- The text of one entry of a `where` dictionary; an empty array has none. -/
def dictionaryStep (s : String × List Obj) (entry : String × WhereValue) : String × List Obj :=
  match entry.2 with
  | .array [] => s
  | .array vlist =>
      let wherekey := s.1 ++ (if s.1.length > 0 then " and" else "")
      (wherekey ++ (" " ++ (entry.1 ++ (" in(" ++
        (String.intercalate "," (vlist.map fun _ => "?") ++ ")")))), s.2 ++ vlist)
  | .scalar va =>
      (s.1 ++ ((if s.1.length > 0 then " and " else " ") ++ (entry.1 ++ "=?")), s.2 ++ [va])

def dictionaryToSqlWhere (dic : NSDictionary WhereValue) : String × List Obj :=
  dic.entries.foldl dictionaryStep ("", [])

/-- `sql` with its clause, the values, and whether `error` was set. -/
structure Extracted where
  sql : String
  values : List Obj
  error : Bool

def extractWhereSql (sql : String) (condition : Option Where) (usePrimaryKeyWhenWhereIsNil : Bool)
    (model : Option Model) : Except Fault Extracted := do
  match condition with
  | some (.dictionary dic) =>
      if dic.entries.length > 0 then
        let (wherekey, values) := dictionaryToSqlWhere dic
        return ⟨sql ++ (" where " ++ wherekey), values, false⟩
      else
        assertNo R
        return ⟨sql, [], true⟩
  | some (.string s) =>
      if checkStringIsEmpty s then byPrimaryKey
      else return ⟨sql ++ (" where " ++ s), [], false⟩
  | _ => byPrimaryKey
where
  /-- The branch for a `where` that is no dictionary and has no text. -/
  byPrimaryKey : Except Fault Extracted := do
    if usePrimaryKeyWhenWhereIsNil then
      match model with
      | none =>
          assertNo R
          return ⟨sql, [], true⟩
      | some model =>
          let (pwhere, values) ← wherePrimaryKeySQLWithModel R model
          if pwhere.length = 0 then
            assertNo R
            return ⟨sql, [], true⟩
          return ⟨sql ++ pwhere, values, false⟩
    else return ⟨sql, [], false⟩

/-! ### `SELECT` -/

def createSelectSQLWithPrimaryKeyAndTableName (model : Model) (tableName : Option String)
    (fieldName : Option String) : Except Fault (Option (String × List Obj)) :=
  match tableName with
  | none => pure none
  | some tableName => do
      let fieldName := fieldName.getD "*"
      let (pwhere, values) ← wherePrimaryKeySQLWithModel R model
      return some ("SELECT " ++ (fieldName ++ (" FROM " ++ (tableName ++ pwhere))), values)

def createSelectSQLWithPrimaryKey (model : Model) (fieldName : Option String) :
    Except Fault (Option (String × List Obj)) :=
  createSelectSQLWithPrimaryKeyAndTableName R model model.cls.getTableName fieldName

/-- `group by`, `order by`, `limit` and `offset`. -/
def sqlString (sql : String) (params : NBDBQueryParams) : String :=
  let sql := if checkIsEmpty params.groupBy then sql
    else sql ++ (" group by " ++ formatted params.groupBy)
  let sql := if checkIsEmpty params.orderBy then sql
    else sql ++ (" order by " ++ formatted params.orderBy)
  if params.count > 0 then
    sql ++ (" limit " ++ (toString params.count ++ (" offset " ++ toString params.offset)))
  else if params.offset > 0 then
    sql ++ (" limit 2147483647 offset " ++ toString params.offset)
  else sql

/-- The main table: its name, or that of the class of the table, or that of the class read. -/
def mainTableName (params : NBDBQueryParams) : Option String :=
  (params.tableName.or (params.tableClass.bind ModelClass.getTableName)).or
    (params.toClass.bind ModelClass.getTableName)

/-- The table in place of `@t`. -/
def replaceTableName (query tableName : String) : String :=
  let query := if " @t".toList <:+ query.toList then query ++ " " else query
  String.ofList (replaceOccurrences " @t ".toList (" " ++ (tableName ++ " ")).toList 0
    query.toList)

/-- No marker of the table is in a text without `@`. -/
theorem not_occurs_table {x : List Char} (h : '@' ∉ x) :
    ¬ Occurrences.Occurs Char.toLower " @t ".toList x := by
  intro hocc
  obtain ⟨c, hc, hlow⟩ := List.mem_map.mp (hocc.subset
    (by decide : '@' ∈ " @t ".toList.map Char.toLower))
  exact h (toLower_eq (d := '@') (by decide) hlow ▸ hc)

/-- A text without `@` is left as it is. -/
theorem replaceOccurrences_of_free {str x : List Char} (h : '@' ∉ x) :
    replaceOccurrences " @t ".toList str 0 x = x := by
  rw [replaceOccurrences_eq, Occurrences.replaced_of_free (not_occurs_table h)]

theorem apart_of_ne {a b : Char} (hb : b ≠ '@') :
    Occurrences.Apart Char.toLower " @t ".toList a b :=
  fun _ hlow => hb (toLower_eq (d := '@') (by decide) hlow)

/-- No marker starts in a text without `@`, nor at the blank behind it. -/
theorem chain_of_free {x : List Char} (h : '@' ∉ x) :
    (x ++ [' ']).IsChain (Occurrences.Apart Char.toLower " @t ".toList) := by
  induction x with
  | nil => exact .singleton ' '
  | cons a x ih =>
      obtain ⟨-, hx⟩ := not_or.mp fun ha => h (List.mem_cons.mpr ha)
      cases x with
      | nil => exact List.isChain_cons_cons.mpr ⟨apart_of_ne (by decide), .singleton ' '⟩
      | cons b x =>
          refine List.isChain_cons_cons.mpr ⟨apart_of_ne fun hb => hx ?_, ih hx⟩
          rw [hb]
          exact List.mem_cons_self

/-- An error of `extractWhereSql` is not looked at. -/
def createSelectSQLWithParams (params : NBDBQueryParams) :
    Except Fault (Option (String × List Obj)) :=
  match mainTableName params with
  | none => pure none
  | some db_tableName =>
      if checkStringIsEmpty db_tableName then pure none
      else do
        let columnsString :=
          if params.columnArray.length > 0 then String.intercalate "," params.columnArray
          else if checkIsEmpty params.columns then "*"
          else formatted params.columns
        let query := "select " ++ (columnsString ++ " from @t")
        let condition :=
          match params.whereDic with
          | some dic => if dic.entries.length > 0 then some (.dictionary dic)
              else params.condition.map .string
          | none => params.condition.map .string
        let result ← extractWhereSql R query condition params.usePrimaryKeyIfWhereIsNil none
        return some (replaceTableName (sqlString result.sql params) db_tableName, result.values)

/-- The columns of a query of one table. -/
def columnsString (params : NBDBQueryParams) : String :=
  if params.columnArray.length > 0 then String.intercalate "," params.columnArray
  else if checkIsEmpty params.columns then "*"
  else formatted params.columns

/-- The condition of a query of one table. -/
def queryCondition (params : NBDBQueryParams) : Option Where :=
  match params.whereDic with
  | some dic => if dic.entries.length > 0 then some (.dictionary dic)
      else params.condition.map .string
  | none => params.condition.map .string

theorem createSelectSQLWithParams_eq {params : NBDBQueryParams} {db_tableName : String}
    (hmain : mainTableName params = some db_tableName)
    (hblank : checkStringIsEmpty db_tableName = false) :
    createSelectSQLWithParams R params = (do
      let result ← extractWhereSql R ("select " ++ (columnsString params ++ " from @t"))
        (queryCondition params) params.usePrimaryKeyIfWhereIsNil none
      return some (replaceTableName (sqlString result.sql params) db_tableName,
        result.values)) := by
  unfold createSelectSQLWithParams
  simp only [hmain, hblank]
  rfl

/-- A dictionary that is the condition is the one given, and has entries. -/
theorem queryCondition_dictionary {params : NBDBQueryParams} {dic : NSDictionary WhereValue}
    (h : queryCondition params = some (.dictionary dic)) :
    params.whereDic = some dic ∧ dic.entries.length > 0 := by
  have hstring : params.condition.map Where.string ≠ some (.dictionary dic) := by
    cases params.condition <;> simp
  unfold queryCondition at h
  split at h
  · split at h
    · cases h
      exact ⟨‹_›, ‹_›⟩
    · exact absurd h hstring
  · exact absurd h hstring

/-! ### `LEFT JOIN` -/

/-- `NBDBQueryParams`, for a query of two tables. -/
structure NBDBUnionParams extends NBDBQueryParams where
  followTableName : Option String := none
  followTableClass : Option ModelClass := none
  followColumnsArray : List String := []
  followColumns : Option String := none
  leftJoinColumnsArray : List String := []
  leftJoinColumns : Option String := none
  followWhereDic : Option (NSDictionary WhereValue) := none
  followWhere : Option String := none

/-- The columns that an array names, or without one a string. -/
def namedColumns (array : List String) (columns : Option String) : List String :=
  if array.length > 0 then array
  else if checkIsEmpty columns then []
  else componentsSeparatedByComma (formatted columns)

/-- `table.column`, for each of some columns; `lead` stands before the second and later ones. -/
def tableColumns (lead table : String) (columns : List String) : String :=
  columns.zipIdx.foldl (fun s v => s ++ ((if v.2 = 0 then "" else lead) ++ (table ++ ("." ++
    (v.1 ++ if v.2 ≠ columns.length - 1 then "," else ""))))) ""

/-- The columns of both tables. -/
def unionColumns (mainTableName followTableName : String) (params : NBDBUnionParams) : String :=
  let columnsString :=
    tableColumns "" mainTableName (namedColumns params.columnArray params.columns)
  let array := namedColumns params.followColumnsArray params.followColumns
  let columnsString :=
    columnsString ++ ((if array.length > 0 ∧ columnsString.length > 1 then "," else "") ++
      tableColumns " " followTableName array)
  if columnsString.length < 1 then columnsString ++ "*" else columnsString

/-- `on main.c=follow.c`, for each of some columns. -/
def joinedColumns (mainTableName followTableName : String) (columns : List String) : String :=
  columns.zipIdx.foldl (fun s v => s ++ ((if v.2 = 0 then " on" else " and") ++ (" " ++
    (mainTableName ++ ("." ++ (v.1 ++ ("=" ++ (followTableName ++ ("." ++ (v.1 ++ " ")))))))))) ""

/-- The condition on one of the tables, after `and` or `where`: the name of the table stands
before the first key only. -/
def tableWhere (keyword table : String) (dic : Option (NSDictionary WhereValue))
    (condition : Option String) : String × List Obj :=
  match dic with
  | some dic =>
      if dic.entries.length > 0 then
        let (wherekey, values) := dictionaryToSqlWhere dic
        (keyword ++ (table ++ ("." ++ wherekey)), values)
      else ("", [])
  | none => if checkIsEmpty condition then ("", []) else (keyword ++ formatted condition, [])

def createUnionSelectSQLWithParams (params : NBDBUnionParams) : Option (String × List Obj) :=
  match mainTableName params.toNBDBQueryParams with
  | none => none
  | some mainTableName =>
      if checkStringIsEmpty mainTableName then none
      else
        let followTableName := formatted
          (params.followTableName.or (params.followTableClass.bind ModelClass.getTableName))
        let query := "select " ++ (unionColumns mainTableName followTableName params ++
          (" from @t left join " ++ followTableName))
        let onString := joinedColumns mainTableName followTableName
          (namedColumns params.leftJoinColumnsArray params.leftJoinColumns)
        let follow := tableWhere " and " followTableName params.followWhereDic params.followWhere
        let main := tableWhere " where " mainTableName params.whereDic params.condition
        some (replaceTableName (sqlString (query ++ (onString ++ follow.1) ++ main.1)
          params.toNBDBQueryParams) mainTableName, follow.2 ++ main.2)

/-! ### `UPDATE` -/

/-- `updateKey` and `updateValues`. -/
abbrev UpdateState := String × List Obj

/-- One assignment `key=?`. -/
def UpdateState.append (s : UpdateState) (key : String) (value : Obj) : UpdateState :=
  (s.1 ++ (comma s.1 ++ (key ++ "=?")), s.2 ++ [value])

/-- The body of the loop over the columns that `sets` names: a nil value raises. -/
def updateColumnStep (model : Model) (s : UpdateState) (key : String) :
    Except Fault UpdateState := do
  let value ← model.valueForKey key
  let values ← addObject s.2 value
  return (s.1 ++ (comma s.1 ++ (key ++ "=?")), values)

/-- The `SET` list of a `sets` argument. -/
def updateSets (model : Model) : Sets → Except Fault UpdateState
  | .array columns => columns.foldlM (updateColumnStep model) ("", [])
  | .string s =>
      if (componentsSeparatedByComma s).length > 1 then
        (componentsSeparatedByComma s).foldlM (updateColumnStep model) ("", [])
      else if hasSubstring s "=" then return (s, [])
      else updateColumnStep model ("", []) s
  | .dictionary dic =>
      return dic.entries.foldl (fun s e => UpdateState.append s e.1 e.2) ("", [])
  | .other => return ("", [])

/-- The body of the loop over the properties.  The archive of a `BLOB` column is computed and not
used: the value itself is bound. -/
def updateStep (model : Model) (s : UpdateState) (p : Property) : Except Fault UpdateState := do
  if isColumn p.name then
    let key ← ivarKey model.cls.chain p
    if isPrimaryKey p.name then return s
    else
      match ← model.valueForKey key with
      | some value => return s.append key value
      | none => return s
  else return s

/-- The `SET` list: that of `sets`, or without `sets` that of the properties. -/
def setList (model : Model) : Option Sets → Except Fault UpdateState
  | some sets => updateSets model sets
  | none => (properties model.cls.chain).foldlM (updateStep model) ("", [])

def updateText (tableName updateKey : String) : String :=
  "update " ++ (tableName ++ (" set " ++ (updateKey ++ " ")))

def createUpdateSQLWithModelAndTableName (model : Model) (tableName : Option String)
    (sets : Option Sets) (condition : Option Where) :
    Except Fault (Option (String × List Obj)) := do
  let (updateKey, updateValues) ← setList model sets
  let updateSQL := updateText (formatted tableName) updateKey
  let result ← extractWhereSql R updateSQL condition true (some model)
  if result.error then return none
  else return some (result.sql, updateValues ++ result.values)

def createUpdateSQLWithModelAndTableClass (model : Model) (tableClass : ModelClass)
    (sets : Option Sets) (condition : Option Where) :
    Except Fault (Option (String × List Obj)) :=
  createUpdateSQLWithModelAndTableName R model tableClass.getTableName sets condition

def createUpdateSQL (model : Model) (sets : Option Sets) (condition : Option Where) :
    Except Fault (Option (String × List Obj)) :=
  createUpdateSQLWithModelAndTableClass R model model.cls sets condition

/-- `sets` is a string with an assignment or a dictionary; anything else fails an assertion. -/
def createUpdateSQLWithTableName (tableName : Option String) (sets : Option Sets)
    (condition : Option Where) : Except Fault (Option (String × List Obj)) := do
  let (updateKey, updateValues) ←
    match sets with
    | some (.string s) =>
        if hasSubstring s "=" then pure (s, [])
        else do assertNo R; pure ("", [])
    | some (.dictionary dic) =>
        pure (dic.entries.foldl (fun s e => UpdateState.append s e.1 e.2) ("", []))
    | _ => do assertNo R; pure ("", [])
  let updateSQL := updateText (formatted tableName) updateKey
  let result ← extractWhereSql R updateSQL condition false none
  return some (result.sql, updateValues ++ result.values)

/-! ### `DELETE` -/

def createDeleteSQLWithModelAndTableName (model : Model) (tableName : Option String)
    (condition : Option Where) : Except Fault (Option (String × List Obj)) := do
  let deleteSQL := "DELETE FROM " ++ formatted (tableName.or model.cls.getTableName)
  let result ← extractWhereSql R deleteSQL condition true (some model)
  if result.error then return none else return some (result.sql, result.values)

def createDeleteSQL (model : Model) (condition : Option Where) :
    Except Fault (Option (String × List Obj)) :=
  createDeleteSQLWithModelAndTableName R model none condition

def createDeleteSQLWithTableName (tableName : Option String) (condition : Option Where) :
    Except Fault (Option (String × List Obj)) := do
  if condition.isNone then assertNo R
  let deleteSQL := "DELETE FROM " ++ formatted tableName
  let result ← extractWhereSql R deleteSQL condition false none
  if result.error then return none else return some (result.sql, result.values)

end Builders

end NBDataBase
