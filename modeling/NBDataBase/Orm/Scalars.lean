import NBDataBase.Orm.Integers
import NBDataBase.Orm.JoinQueries

/-!
# Orm — one integer read

`queryIntegerdata:fieldName:where:`, `queryBooldata:fieldName:where:` and their forms with the name
of a table read the first column of the first row; `query:where:` reads the rows into models.

* `executeSelect`: the result set of a query of one table.  The rows that the text behind `from`
  selects are the engine's where it reads that text, in an order that depends on the columns, and
  arbitrary else.
* `queryIntegerdata`, `queryBooldata`, `queryIntegerdataWithTableName`,
  `queryBooldataWithTableName`, `queryWhere`: from the source.
* `createSelectSQLWithParams_tableQuery`: all of them have the text behind `from` in common.
* `scalarsAgree_iff`: they agree on a 64-bit integer exactly when it has 32 bits and the model
  reader reads the rows.
-/

namespace NBDataBase
open Sql

/-! ### Result sets -/

/-- What the fragment leaves open: the rows that columns and another text behind `from` select, the
order in which the rows of a query stand, and the integer that another value is cast to.  SQLite may
read an index for some columns and the table for others, so that the order depends on them. -/
structure Sqlite where
  rows : String → String → List Obj → Db → List Row
  arrange : String → List Token → List Obj → Db → List Row → List Row
  arrange_perm : ∀ columns source args db rows, (arrange columns source args db rows).Perm rows
  castInteger : Value → Int64

/-- An `FMResultSet`, by its columns. -/
structure ResultSet where
  names : List String
  rows : List Row

/-- `sqlite3_column_int`: the low 32 bits. -/
def intForColumn (S : Sqlite) : Value → Int32
  | .num (.int n) => n.toInt32
  | v => (S.castInteger v).toInt32

/-- `intForColumnIndex:0` of the first row, and 0 without a row. -/
def ResultSet.firstInteger (S : Sqlite) (rs : ResultSet) : ℤ :=
  match rs.rows.head?, rs.names.head? with
  | some r, some c => (intForColumn S (r (fold c))).toInt
  | _, _ => 0

/-- What stands before and behind the first ` from `. -/
def splitFrom : List Char → Option (List Char × List Char)
  | [] => none
  | c :: cs =>
      if " from ".toList <+: c :: cs then some ([], cs.drop 5)
      else (splitFrom cs).map fun s => (c :: s.1, s.2)

/-- The columns of a query and the text behind `from`, which every query of the fragment has. -/
def selectParts (sql : String) : Option (String × String) :=
  if "select ".toList <+: sql.toList then
    (splitFrom (sql.toList.drop 7)).map fun s => (String.ofList s.1, String.ofList s.2)
  else none

section

variable (R : Runtime) (S : Sqlite)

/-- The rows that columns and the text behind `from` select. -/
def chosenRows (columns source : String) (args : List Obj) (db : Db) : List Row :=
  match prepare ("select * from " ++ source) with
  | some st =>
      if args.length < st.params ∨ maxVariables < st.params then []
      else S.arrange columns (lex source) args db
        ((Sql.select R.conv db st (args.map (bindObject R))).getD [])
  | none => S.rows columns source args db

/-- The result set of some columns of the table that the text starts with. -/
def resultSet (columns source : String) (args : List Obj) (db : Db) : ResultSet :=
  match db (fold (String.ofList (firstWord source.toList))) with
  | none => ⟨[], []⟩
  | some tbl =>
      let names := if columns = "*" then tbl.columns.map (·.1)
        else componentsSeparatedByComma columns
      if names.all tbl.has then ⟨names, chosenRows R S columns source args db⟩ else ⟨[], []⟩

/-- `executeQuery:withArgumentsInArray:`. -/
def executeSelect (sql : String) (args : List Obj) : Action ResultSet := fun db =>
  (.ok ((selectParts sql).elim ⟨[], []⟩ fun s => resultSet R S s.1 s.2 args db), db)

/-! ### Readers -/

/-- The parameters of a query of a table, with a condition. -/
def tableQuery (tableName : Option String) (tableClass : Option ModelClass)
    (columns : Option String) (condition : Option Where) : NBDBQueryParams where
  tableName := tableName
  tableClass := tableClass
  toClass := tableClass
  columns := columns
  whereDic := Where.dictionaryArgument condition
  condition := Where.stringArgument condition

/-- Execute the query and read its first integer. -/
def queryFirstInteger (params : NBDBQueryParams) : Action ℤ := do
  match ← Action.build (createSelectSQLWithParams R params) with
  | some (sql, selectValues) =>
      let rs ← inDatabase (executeSelect R S sql selectValues)
      return rs.firstInteger S
  | none => return 0

def queryIntegerdata (tableClass : ModelClass) (fieldName : String) (condition : Option Where) :
    Action ℤ :=
  queryFirstInteger R S (tableQuery none (some tableClass) (some fieldName) condition)

/-- The `NSInteger` as a `BOOL`, which is `bool` where `NSInteger` has 64 bits. -/
def queryBooldata (tableClass : ModelClass) (fieldName : String) (condition : Option Where) :
    Action Bool := do
  let result ← queryIntegerdata R S tableClass fieldName condition
  return result != 0

def queryIntegerdataWithTableName (tableName fieldName : String) (condition : Option Where) :
    Action ℤ :=
  queryFirstInteger R S (tableQuery (some tableName) none (some fieldName) condition)

def queryBooldataWithTableName (tableName fieldName : String) (condition : Option Where) :
    Action Bool := do
  let result ← queryIntegerdataWithTableName R S tableName fieldName condition
  return result != 0

/-- `query:where:`. -/
def queryWhere (F : Foundation) (modelClass : ModelClass) (condition : Option Where) :
    Action (List Instance) := do
  match ← Action.build (createSelectSQLWithParams R
    (tableQuery none (some modelClass) none condition)) with
  | some (sql, whereValues) =>
      let set ← inDatabase (executeSelect R S sql whereValues)
      Action.build (executeResult F modelClass set.names set.rows)
  | none => return []

/-- The rows of a query of columns of the table, of all of them when it names none. -/
def selectedRows (T : String) (columns : Option String) (condition : Option Where) (db : Db) :
    List Row :=
  match createSelectSQLWithParams R (tableQuery (some T) none columns condition) with
  | .ok (some (sql, values)) =>
      (selectParts sql).elim [] fun s => chosenRows R S s.1 s.2 values db
  | _ => []

end

/-! ### Agreement -/

/-- A 64-bit value of a property of type `long long` or `NSInteger`.  Its column, an identifier, is
not blank. -/
structure DeclaresLong (m : Model) (p : Property) (v : Int64) : Prop where
  column : isColumn p.name = true
  type : p.typeEncoding = IntegerType.longLong.typeEncoding ∨
    p.typeEncoding = IntegerType.long.typeEncoding
  ivar : getInstanceVariable m.cls.chain p.column = some ⟨p.column, p.typeEncoding⟩
  value : m.value p.column = some (.number (.integer v.toInt))
  visible : checkStringIsEmpty p.column = false

/-- The model was inserted into its table, and a query under the condition has its row first: the
query of all columns and the query of the property's. -/
structure SelectsStored (R : Runtime) (S : Sqlite) (T : String) (m : Model) (p : Property)
    (condition : Option Where) (tbl : Table) (rest : List Row) (db db' : Db) : Prop where
  inserted : insertToDBWithModel R m db = (.ok true, db')
  table : db' (fold T) = some tbl
  own : TableOf m.cls tbl
  names : ∀ d ∈ storedColumns m.cls.chain, d.1 ∈ tbl.columns.map (·.1)
  distinct : (tbl.columns.map (·.1)).Nodup
  selected : selectedRows R S T none condition db' = storedRow R tbl m :: rest
  field : (selectedRows R S T (some p.column) condition db').head? = some (storedRow R tbl m)

/-- The model reader puts the value into the first model, and the scalar readers return it. -/
structure ScalarsAgree (F : Foundation) (R : Runtime) (S : Sqlite) (T : String) (cls : ModelClass)
    (p : Property) (v : Int64) (condition : Option Where) (db : Db) : Prop where
  model : ∃ inst insts, queryWhere R S F cls condition db = (.ok (inst :: insts), db) ∧
    inst p.column = some (.number (.integer v.toInt))
  integer : queryIntegerdata R S cls p.column condition db = (.ok v.toInt, db)
  integerByName : queryIntegerdataWithTableName R S T p.column condition db = (.ok v.toInt, db)
  bool : ∃ b, queryBooldata R S cls p.column condition db = (.ok b, db) ∧ (b = true ↔ v ≠ 0)
  boolByName : ∃ b, queryBooldataWithTableName R S T p.column condition db = (.ok b, db) ∧
    (b = true ↔ v ≠ 0)

/-- The value has 32 bits, and the model reader reads the rows and sets the property. -/
structure ScalarsWhen (F : Foundation) (cls : ModelClass) (p : Property) (v : Int64)
    (tbl : Table) (rows : List Row) : Prop where
  narrow : -2 ^ 31 ≤ v.toInt ∧ v.toInt < 2 ^ 31
  reads : ∀ r ∈ rows, ∀ c ∈ tbl.columns.map (·.1), ColumnReads F cls r c
  sets : F.respondsToSelector cls (selectorOfColumn p.column) = true ∨
    F.init cls p.column = some (.number (.integer v.toInt))

variable {F : Foundation} {R : Runtime} {S : Sqlite} {T : String} {m : Model} {p : Property}
  {v : Int64} {condition : Option Where} {tbl : Table} {rest : List Row} {db db' : Db}

/-! ### Texts -/

theorem replaceTable_append {x : List Char} (h : ' ' ∉ x) (y : List Char) :
    replaceTable T (x ++ y) = x ++ replaceTable T y := by
  induction x with
  | nil => rfl
  | cons c cs ih =>
      obtain ⟨hc, hcs⟩ := not_or.mp fun e => h (List.mem_cons.mpr e)
      rw [List.cons_append, replaceTable_cons fun e => hc e.symm, ih hcs]
      rfl

/-- Columns that stand before ` from @t` as they are. -/
structure Standing (x : String) : Prop where
  ne : x ≠ ""
  unbroken : ' ' ∉ x.toList
  noMark : x.toList.head? ≠ some '@'

theorem Standing.of_word {x : String} (h : Word x) : Standing x where
  ne := h.1
  unbroken hx := absurd (h.2 ' ' hx) (by decide)
  noMark hx := absurd (h.2 '@' (List.mem_of_mem_head? hx)) (by decide)

/-- The table in the text of a query does not depend on the columns. -/
theorem replaceTableName_columns (T : String) {clause : String} (hclause : Continues clause) :
    ∃ rest : String, ∀ x, Standing x →
      replaceTableName ("select " ++ (x ++ (" from @t" ++ clause))) T =
        "select " ++ (x ++ (" from " ++ (T ++ (" " ++ rest)))) := by
  have hsuffix : ∀ x : String,
      " @t".toList <:+ ("select " ++ (x ++ (" from @t" ++ clause))).toList ↔
        " @t".toList <:+ (" from @t" ++ clause).toList := by
    intro x
    have htail : (" from @t" ++ clause).toList <:+
        ("select " ++ (x ++ (" from @t" ++ clause))).toList :=
      ⟨"select ".toList ++ x.toList, by simp only [String.toList_append, List.append_assoc]⟩
    refine ⟨fun h => List.suffix_of_suffix_length_le h htail ?_, fun h => h.trans htail⟩
    rw [String.toList_append, List.length_append]
    exact Nat.le_add_right_of_le (by decide)
  -- the blank that a text which ends with `@t` is given
  obtain ⟨post, hpost⟩ : ∃ post : List Char,
      post = if " @t".toList <:+ (" from @t" ++ clause).toList then [' '] else [] := ⟨_, rfl⟩
  obtain ⟨y, hy⟩ : ∃ y, clause.toList ++ post = ' ' :: y := by
    rcases hclause with rfl | ⟨c, d, z, hz, -⟩
    · exact ⟨[], by rw [hpost, if_pos (by decide)]; rfl⟩
    · exact ⟨c :: d :: z ++ post, by rw [hz]; rfl⟩
  refine ⟨String.ofList (replaceTable T y), fun x hx => ?_⟩
  obtain ⟨post', hpost', htext⟩ := replaceTableName_select (x ++ (" from @t" ++ clause)) T
  obtain rfl : post' = post := by
    rw [hsuffix] at hpost'
    rw [hpost]
    rcases hpost' with ⟨rfl, hnot⟩ | ⟨rfl, hends⟩
    · rw [if_neg hnot]
    · rw [if_pos hends]
  have hbody : (x ++ (" from @t" ++ clause)).toList ++ post' =
      x.toList ++ (" from @t".toList ++ ' ' :: y) := by
    rw [← hy]
    simp only [String.toList_append, List.append_assoc]
  have hfrom : replaceTable T (" from @t".toList ++ ' ' :: y) =
      " from".toList ++ ((" " ++ (T ++ " ")).toList ++ replaceTable T y) := rfl
  have hblank : replaceTable T (' ' :: (x.toList ++ (" from @t".toList ++ ' ' :: y))) =
      ' ' :: replaceTable T (x.toList ++ (" from @t".toList ++ ' ' :: y)) := by
    refine (replaceTable_blank T _).resolve_left ?_
    rintro ⟨z, -, w, hw⟩
    obtain ⟨d, ds, hd⟩ := List.exists_cons_of_ne_nil fun e => hx.ne (String.toList_eq_nil_iff.mp e)
    rw [hd] at hw
    have hat : d = '@' := toLower_eq (d := '@') (by decide) (List.cons.inj hw).1.symm
    exact hx.noMark (by rw [hd, hat]; rfl)
  refine String.toList_inj.mp ?_
  rw [htext, hbody, hblank, replaceTable_append hx.unbroken, hfrom]
  have hselect : "select ".toList = "select".toList ++ [' '] := rfl
  have hfromBlank : " from ".toList = " from".toList ++ " ".toList := rfl
  simp only [String.toList_append, String.toList_ofList, hselect, hfromBlank, List.append_assoc,
    List.cons_append, List.nil_append]

theorem splitFrom_append {x : List Char} (h : ' ' ∉ x) (y : List Char) :
    splitFrom (x ++ (" from ".toList ++ y)) = some (x, y) := by
  induction x with
  | nil => rfl
  | cons c cs ih =>
      obtain ⟨hc, hcs⟩ := not_or.mp fun e => h (List.mem_cons.mpr e)
      have hno : ¬ " from ".toList <+: c :: (cs ++ (" from ".toList ++ y)) := by
        rintro ⟨z, hz⟩
        exact hc (List.cons.inj hz).1
      rw [List.cons_append, splitFrom, if_neg hno, ih hcs]
      rfl

theorem selectParts_text {x : String} (h : ' ' ∉ x.toList) (y : String) :
    selectParts ("select " ++ (x ++ (" from " ++ y))) = some (x, y) := by
  have hchars : ("select " ++ (x ++ (" from " ++ y))).toList =
      "select ".toList ++ (x.toList ++ (" from ".toList ++ y.toList)) := by
    simp only [String.toList_append]
  have hdrop : ("select ".toList ++ (x.toList ++ (" from ".toList ++ y.toList))).drop 7 =
      x.toList ++ (" from ".toList ++ y.toList) := rfl
  rw [selectParts, hchars, if_pos (List.prefix_append _ _), hdrop, splitFrom_append h]
  simp only [Option.map_some, String.ofList_toList]

/-- The columns as the text of a query has them. -/
def columnsText (columns : Option String) : String :=
  if checkIsEmpty columns then "*" else formatted columns

/-- **The queries of a table under one condition** differ in their columns only. -/
theorem createSelectSQLWithParams_tableQuery (R : Runtime) (hT : checkStringIsEmpty T = false)
    (condition : Option Where) :
    ∃ rest values, ∀ tableName tableClass columns,
      mainTableName (tableQuery tableName tableClass columns condition) = some T →
      Standing (columnsText columns) →
      createSelectSQLWithParams R (tableQuery tableName tableClass columns condition) =
        .ok (some ("select " ++ (columnsText columns ++ (" from " ++ (T ++ (" " ++ rest)))),
          values)) := by
  obtain ⟨clause, values, hclause, hextract⟩ := extractWhereSql_continues R
    fun _ (hdic : queryCondition (tableQuery none none none condition) = _) =>
      (queryCondition_dictionary hdic).2
  obtain ⟨rest, hrest⟩ := replaceTableName_columns T hclause
  refine ⟨rest, values, fun tableName tableClass columns hmain hstanding => ?_⟩
  have hsql : ∀ sql, sqlString sql (tableQuery tableName tableClass columns condition) = sql :=
    fun sql => rfl
  have hcolumns : columnsString (tableQuery tableName tableClass columns condition) =
      columnsText columns := rfl
  have hcondition : queryCondition (tableQuery tableName tableClass columns condition) =
      queryCondition (tableQuery none none none condition) := rfl
  have hkeys : (tableQuery tableName tableClass columns condition).usePrimaryKeyIfWhereIsNil =
      false := rfl
  rw [createSelectSQLWithParams_eq R hmain hT, hcolumns, hcondition, hkeys, hextract]
  show Except.ok (some (replaceTableName (sqlString ("select " ++ (columnsText columns ++
    " from @t") ++ clause) _) T, values)) = _
  rw [hsql, ← hrest _ hstanding]
  simp only [String.append_assoc]

/-! ### Runs -/

theorem firstWord_table (hT : Word T) (rest : String) :
    String.ofList (firstWord (T ++ (" " ++ rest)).toList) = T := by
  have hblank : ' ' ∉ T.toList := fun h => absurd (hT.2 ' ' h) (by decide)
  have hchars : (T ++ (" " ++ rest)).toList = T.toList ++ ' ' :: rest.toList := by
    rw [String.toList_append, String.toList_append]
    rfl
  have hword := firstWord_whole hblank []
  rw [List.append_nil] at hword
  rw [hchars, firstWord_blank, hword]
  show String.ofList (T.toList ++ []) = T
  rw [List.append_nil, String.ofList_toList]

/-- The result set of columns of a table. -/
theorem executeSelect_columns (hT : Word T) (htbl : db (fold T) = some tbl) {x : String}
    (hx : Standing x) {names : List String}
    (hnames : names = if x = "*" then tbl.columns.map (·.1) else componentsSeparatedByComma x)
    (hhas : ∀ c ∈ names, tbl.has c = true) (rest : String) (values : List Obj) :
    executeSelect R S ("select " ++ (x ++ (" from " ++ (T ++ (" " ++ rest))))) values db =
      (.ok ⟨names, chosenRows R S x (T ++ (" " ++ rest)) values db⟩, db) := by
  rw [executeSelect, selectParts_text hx.unbroken]
  show (Except.ok (resultSet R S x (T ++ (" " ++ rest)) values db), db) = _
  rw [resultSet, firstWord_table hT, htbl]
  simp only [← hnames, List.all_eq_true.mpr hhas, if_true]

theorem queryFirstInteger_some {params : NBDBQueryParams} {sql : String} {values : List Obj}
    {rs : ResultSet} (h : createSelectSQLWithParams R params = .ok (some (sql, values)))
    (hrun : executeSelect R S sql values db = (.ok rs, db)) :
    queryFirstInteger R S params db = (.ok (rs.firstInteger S), db) := by
  rw [queryFirstInteger, h, Action.bind_ok (Action.build_run _ db)]
  exact Action.bind_ok hrun

theorem queryWhere_some {cls : ModelClass} {sql : String} {values : List Obj} {rs : ResultSet}
    (h : createSelectSQLWithParams R (tableQuery none (some cls) none condition) =
      .ok (some (sql, values)))
    (hrun : executeSelect R S sql values db = (.ok rs, db)) :
    queryWhere R S F cls condition db = (executeResult F cls rs.names rs.rows, db) := by
  rw [queryWhere, h, Action.bind_ok (Action.build_run _ db)]
  exact Action.bind_ok hrun

theorem selectedRows_some {columns : Option String} {x source sql : String} {values : List Obj}
    (h : createSelectSQLWithParams R (tableQuery (some T) none columns condition) =
      .ok (some (sql, values))) (hparts : selectParts sql = some (x, source)) :
    selectedRows R S T columns condition db = chosenRows R S x source values db := by
  simp only [selectedRows, h, hparts, Option.elim_some]

theorem mainTableName_tableQuery (tableName : Option String) (tableClass : Option ModelClass)
    (columns : Option String) (condition : Option Where) :
    mainTableName (tableQuery tableName tableClass columns condition) =
      (tableName.or (tableClass.bind ModelClass.getTableName)).or
        (tableClass.bind ModelClass.getTableName) := rfl

theorem table_has_own (tbl : Table) : ∀ c ∈ tbl.columns.map (·.1), tbl.has c = true := by
  intro c hc
  obtain ⟨d, hd, rfl⟩ := List.mem_map.mp hc
  exact Table.has_iff.mpr (List.mem_map_of_mem hd)

/-- The low 32 bits are the number exactly when it has no more. -/
theorem toInt32_eq_iff (v : Int64) :
    v.toInt32.toInt = v.toInt ↔ -2 ^ 31 ≤ v.toInt ∧ v.toInt < 2 ^ 31 := by
  rw [Int64.toInt_toInt32]
  constructor
  · intro h
    have hlo := Int.le_bmod (x := v.toInt) (m := 2 ^ 32) (by decide)
    have hhi := Int.bmod_lt (x := v.toInt) (m := 2 ^ 32) (by decide)
    omega
  · rintro ⟨hlo, hhi⟩
    exact Int.bmod_eq_of_le_mul_two (by omega) (by omega)

theorem DeclaresLong.integerType (hdeclares : DeclaresLong m p v) :
    ∃ t : IntegerType, p.typeEncoding = t.typeEncoding ∧ t.isText = false ∧ t.Holds v.toInt := by
  have hrange : -2 ^ 63 ≤ v.toInt ∧ v.toInt < 2 ^ 63 := ⟨v.le_toInt, v.toInt_lt⟩
  rcases hdeclares.type with htype | htype
  · exact ⟨.longLong, htype, rfl, hrange⟩
  · exact ⟨.long, htype, rfl, hrange⟩

theorem DeclaresLong.isStored (hdeclares : DeclaresLong m p v) : p.isStored = true := by
  obtain ⟨t, ht, -⟩ := hdeclares.integerType
  exact isStored_iff.mpr ⟨hdeclares.column, _, by rw [Property.columnType, ht, t.columnType_eq]⟩

/-- The text behind `from` that the fragment reads chooses the same rows for all columns. -/
theorem chosenRows_perm {source : String} {values : List Obj} {st : Stmt}
    (h : prepare ("select * from " ++ source) = some st) (x y : String) :
    (chosenRows R S x source values db).Perm (chosenRows R S y source values db) := by
  simp only [chosenRows, h]
  split
  · exact .refl _
  · exact (S.arrange_perm _ _ _ _ _).trans (S.arrange_perm _ _ _ _ _).symm

theorem standing_star : Standing (columnsText none) where
  ne := by decide
  unbroken := by decide
  noMark := by decide

/-- A query that the fragment reads selects the same rows whatever its columns. -/
theorem selectedRows_perm {columns : Option String} {source : String} {values : List Obj}
    {st : Stmt} (hT : checkStringIsEmpty T = false) (hcolumns : Standing (columnsText columns))
    (hall : createSelectSQLWithParams R (tableQuery (some T) none none condition) =
      .ok (some ("select * from " ++ source, values)))
    (hprepare : prepare ("select * from " ++ source) = some st) :
    (selectedRows R S T columns condition db).Perm
      (selectedRows R S T none condition db) := by
  have hmain : ∀ columns, mainTableName (tableQuery (some T) none columns condition) = some T :=
    fun columns => by rw [mainTableName_tableQuery, Option.some_or, Option.some_or]
  obtain ⟨rest, values', htext⟩ := createSelectSQLWithParams_tableQuery R hT condition
  have hstar := htext (some T) none none (hmain none) standing_star
  have hhead : "select * from " ++ source = "select " ++ ("*" ++ (" from " ++ source)) :=
    String.toList_inj.mp (by simp only [String.toList_append]; rfl)
  rw [hall, hhead] at hstar
  obtain ⟨hsql, rfl⟩ := Prod.mk.inj (Option.some.inj (Except.ok.inj hstar))
  obtain rfl : source = T ++ (" " ++ rest) := by
    refine String.toList_inj.mp ?_
    have hchars := congrArg String.toList hsql
    have hstarText : columnsText none = "*" := rfl
    simp only [hstarText, String.toList_append, List.append_cancel_left_eq] at hchars
    simpa only [String.toList_append] using hchars
  rw [selectedRows_some (htext (some T) none columns (hmain columns) hcolumns)
      (selectParts_text hcolumns.unbroken _),
    selectedRows_some (htext (some T) none none (hmain none) standing_star)
      (selectParts_text standing_star.unbroken _)]
  exact chosenRows_perm hprepare _ _

/-- A dictionary selects the rows for which it holds. -/
theorem selectedRows_dictionary {dic : NSDictionary WhereValue} {columns : Option String}
    (hT : Name T) (hblank : checkStringIsEmpty T = false) (htbl : db (fold T) = some tbl)
    (h : Speaks dic) (hkeys : KeysOf dic tbl) (hcolumns : Standing (columnsText columns)) :
    (selectedRows R S T columns (some (.dictionary dic)) db).Perm
      (tbl.rows.filter (DictionaryHolds R tbl · dic)) := by
  have hselect : createSelectSQLWithParams R
      (tableQuery (some T) none none (some (.dictionary dic))) =
      .ok (some ("select * from " ++ (T ++ (" where " ++ (dictionaryToSqlWhere dic).1)),
        (dictionaryToSqlWhere dic).2)) := createSelectSQLWithParams_dictionary hblank h hkeys
  have hparts : selectParts ("select * from " ++ (T ++ (" where " ++
      (dictionaryToSqlWhere dic).1))) =
      some ("*", T ++ (" where " ++ (dictionaryToSqlWhere dic).1)) := by
    have hhead : "select * from " = "select " ++ ("*" ++ " from ") := by decide
    rw [hhead, String.append_assoc, String.append_assoc]
    exact selectParts_text (by decide) _
  have hprepare := prepare_query hT (hkeys.isClause h)
  have hparams : (Stmt.select T ((dictionaryAtoms dic.entries).map (·.1))).params =
      (dictionaryToSqlWhere dic).2.length := dictionary_params dic
  have htaken : ¬ ((dictionaryToSqlWhere dic).2.length < (dictionaryToSqlWhere dic).2.length ∨
      maxVariables < (dictionaryToSqlWhere dic).2.length) := by
    rw [lt_self_iff_false, false_or]
    rw [dictionaryToSqlWhere_values]
    exact Nat.not_lt.mpr h.values
  refine (selectedRows_perm hblank hcolumns hselect hprepare).trans ?_
  rw [selectedRows_some hselect hparts, chosenRows, hprepare]
  simp only [hparams, if_neg htaken, select_dictionary htbl hkeys, Option.getD_some]
  exact S.arrange_perm _ _ _ _ _

section Stored

variable (h : m.cls.Valid T) (hp : p ∈ properties m.cls.chain) (hdeclares : DeclaresLong m p v)
  (hs : SelectsStored R S T m p condition tbl rest db db')
include h hp hdeclares hs

/-- The row holds the value. -/
theorem SelectsStored.cell : storedRow R tbl m (fold p.column) = .num (.int v) := by
  obtain ⟨t, ht, htext, -⟩ := hdeclares.integerType
  rw [storedRow_cell h hs.own hp hdeclares.isStored, hdeclares.value, Option.map_some,
    Option.getD_some, storedCell_integer ht, htext, if_neg (by decide), Int64.ofInt_toInt]

omit h hdeclares in
theorem SelectsStored.column_mem (hst : p.isStored = true) :
    p.column ∈ tbl.columns.map (·.1) := by
  obtain ⟨hcol, t, ht⟩ := isStored_iff.mp hst
  exact hs.names (p.column, t) (stored_mem hp hcol ht)

omit hp hdeclares h in
theorem SelectsStored.named : checkStringIsEmpty T = false := by
  by_contra hblank
  rw [Bool.not_eq_false] at hblank
  have hnone : createSelectSQLWithParams R (tableQuery (some T) none none condition) = .ok none :=
    createSelectSQLWithParams_unnamed (by
      rw [mainTableName_tableQuery]
      exact hblank)
  have hselected := hs.selected
  rw [selectedRows, hnone] at hselected
  cases hselected

/-- What the readers find: the model reader's rows, and the value in the first of them. -/
theorem SelectsStored.reads :
    queryWhere R S F m.cls condition db' =
        (executeResult F m.cls (tbl.columns.map (·.1)) (storedRow R tbl m :: rest), db') ∧
      queryIntegerdata R S m.cls p.column condition db' = (.ok v.toInt32.toInt, db') ∧
      queryIntegerdataWithTableName R S T p.column condition db' =
        (.ok v.toInt32.toInt, db') := by
  have hword : Word T := h.name.word
  have hcolumn : Word p.column := (h.columns p hp hdeclares.isStored).word
  obtain ⟨source, values, htext⟩ :=
    createSelectSQLWithParams_tableQuery R hs.named condition
  have hfield : columnsText (some p.column) = p.column := if_neg (by simp [checkIsEmpty,
    hdeclares.visible])
  have hstanding : Standing (columnsText (some p.column)) := by
    rw [hfield]
    exact .of_word hcolumn
  have hmain : ∀ columns, mainTableName (tableQuery (some T) none columns condition) = some T :=
    fun columns => by rw [mainTableName_tableQuery, Option.some_or, Option.some_or]
  have hclass : ∀ columns,
      mainTableName (tableQuery none (some m.cls) columns condition) = some T := fun columns => by
    rw [mainTableName_tableQuery, Option.bind_some, h.table]
    rfl
  -- the rows that the condition selects are those of every query with the same columns
  have hchosen : ∀ columns, Standing (columnsText columns) →
      selectedRows R S T columns condition db' =
        chosenRows R S (columnsText columns) (T ++ (" " ++ source)) values db' :=
    fun columns hcolumns => selectedRows_some (htext (some T) none columns (hmain columns) hcolumns)
      (selectParts_text hcolumns.unbroken (T ++ (" " ++ source)))
  have hrows := (hchosen none standing_star).symm.trans hs.selected
  have hfirst := (congrArg List.head? (hchosen _ hstanding)).symm.trans hs.field
  have hown := table_has_own tbl
  have hnames : componentsSeparatedByComma p.column = [p.column] := by
    have hone := components_words (List.cons_ne_nil p.column []) (by simpa using hcolumn)
    rwa [String.intercalate_singleton] at hone
  have hnostar : p.column ≠ "*" := fun e => by
    rw [e] at hcolumn
    exact absurd hcolumn (by decide)
  have hall := executeSelect_columns (R := R) (S := S) hword hs.table standing_star
    (if_pos rfl).symm hown source values
  have hone := executeSelect_columns (R := R) (S := S) hword hs.table hstanding
    (by rw [hfield, if_neg hnostar, hnames]) (by
      intro c hc
      obtain rfl := List.mem_singleton.mp hc
      exact hown _ (hs.column_mem hp hdeclares.isStored)) source values
  have hvalue : ResultSet.firstInteger S
      ⟨[p.column], chosenRows R S (columnsText (some p.column)) (T ++ (" " ++ source)) values db'⟩ =
        v.toInt32.toInt := by
    simp only [ResultSet.firstInteger, hfirst, List.head?_cons, hs.cell h hp hdeclares,
      intForColumn]
  rw [← hvalue, ← hrows]
  exact ⟨queryWhere_some (htext none (some m.cls) none (hclass _) standing_star) hall,
    queryFirstInteger_some (htext none (some m.cls) (some p.column) (hclass _) hstanding) hone,
    queryFirstInteger_some (htext (some T) none (some p.column) (hmain _) hstanding) hone⟩

/-- What the model reader puts into the first model. -/
theorem SelectsStored.puts (hN : Numerals F R) :
    readValue F m.cls (tbl.columns.map (·.1)) (storedRow R tbl m) p.column =
        some (.number (.integer v.toInt)) ↔
      F.respondsToSelector m.cls (selectorOfColumn p.column) = true ∨
        F.init m.cls p.column = some (.number (.integer v.toInt)) := by
  obtain ⟨t, ht, htext, hholds⟩ := hdeclares.integerType
  have hcell : storedCell R p (.number (.integer v.toInt)) = .num (.int v) := by
    rw [storedCell_integer ht, htext, if_neg (by decide), Int64.ofInt_toInt]
  obtain ⟨value, hvalue, hmodel⟩ := integer_comesBack hN ht hholds
  rw [hcell] at hvalue
  unfold readValue setOfColumn
  rw [if_pos (hs.column_mem hp hdeclares.isStored), hs.cell h hp hdeclares]
  by_cases hresponds : F.respondsToSelector m.cls (selectorOfColumn p.column) = true
  · simp [hresponds, hdeclares.ivar, hvalue, hmodel]
  · simp [hresponds]

end Stored

/-- A class with a time stamp. -/
def eventClass : ModelClass where
  chain :=
    [{ name := "Event"
       properties := [⟨"_pk_eventId", "q", "eventId"⟩, ⟨"time", "q", "time"⟩]
       ivars := [⟨"_eventId", "q"⟩, ⟨"_time", "q"⟩] },
      { name := "NBBaseDBTableModel", properties := [], ivars := [] }]
  getTableName := some "tb_events"
  ivar_word := by decide

/-- The event 1 at a time. -/
def event (v : Int64) : Model := .ofIvars eventClass fun key =>
  some (.number (.integer (if key = "_time" then v.toInt else 1)))

def time : Property := ⟨"time", "q", "time"⟩

def event1 : NSDictionary WhereValue where
  entries := [("_eventId", .scalar (.number (.integer 1)))]
  nodup := by decide

/-- A device without a text of its own, which reads every table from its first row. -/
def demoSqlite : Sqlite where
  rows _ _ _ _ := []
  arrange _ _ _ _ rows := rows
  arrange_perm _ _ _ _ _ := .refl _
  castInteger _ := 0

theorem eventClass_valid : eventClass.Valid "tb_events" where
  table := rfl
  name := by decide +kernel
  ordinary := by decide +kernel
  columns := by decide +kernel
  distinct := by decide +kernel
  keys := by decide +kernel
  stores := by decide +kernel

theorem event_declares (v : Int64) : DeclaresLong (event v) time v where
  column := by decide +kernel
  type := .inl rfl
  ivar := (by decide +kernel : getInstanceVariable eventClass.chain time.column =
    some ⟨time.column, time.typeEncoding⟩)
  value := rfl
  visible := by decide +kernel

/-- The events with one event. -/
def oneEvent (v : Int64) : Table :=
  { createdTable eventClass with
    rows := [storedRow demoRuntime (createdTable eventClass) (event v)] }

/-- An event that is inserted into its new table is selected by its key. -/
theorem event_selected (v : Int64) :
    SelectsStored demoRuntime demoSqlite "tb_events" (event v) time (some (.dictionary event1))
      (oneEvent v) [] (tableDb "tb_events" (createdTable eventClass))
      (Function.update (tableDb "tb_events" (createdTable eventClass)) (fold "tb_events")
        (some (oneEvent v))) := by
  have hvalid : (event v).cls.Valid "tb_events" := eventClass_valid
  have hown : TableOf eventClass (oneEvent v) :=
    { created_tableOf eventClass_valid with unique := List.pairwise_singleton _ _ }
  have htime : time ∈ properties eventClass.chain := by decide +kernel
  have hkey : (⟨"_pk_eventId", "q", "eventId"⟩ : Property) ∈ properties eventClass.chain := by
    decide +kernel
  have hbacked : AllBacked eventClass.chain (properties eventClass.chain) := by decide +kernel
  have hstored : ∀ q ∈ properties eventClass.chain, q.isStored = true := by decide +kernel
  have hself := Function.update_self (fold "tb_events") (some (oneEvent v))
    (tableDb "tb_events" (createdTable eventClass))
  have hholds : DictionaryHolds demoRuntime (oneEvent v)
      (storedRow demoRuntime (oneEvent v) (event v)) event1 = true := by
    have hcell : storedRow demoRuntime (oneEvent v) (event v) (fold "_eventId") =
        storedCell demoRuntime ⟨"_pk_eventId", "q", "eventId"⟩ (.number (.integer 1)) :=
      storedRow_cell hvalid hown (p := ⟨"_pk_eventId", "q", "eventId"⟩) hkey (hstored _ hkey)
    have haffinity : (oneEvent v).affinity "_eventId" =
        (createdTable eventClass).affinity "_eventId" := rfl
    simp only [DictionaryHolds, event1, List.all_cons, List.all_nil, EntryHolds, columnIs, hcell,
      haffinity]
    decide +kernel
  have hselected : ∀ columns, Standing (columnsText columns) →
      selectedRows demoRuntime demoSqlite "tb_events" columns (some (.dictionary event1))
        (Function.update (tableDb "tb_events" (createdTable eventClass)) (fold "tb_events")
          (some (oneEvent v))) = [storedRow demoRuntime (oneEvent v) (event v)] := by
    intro columns hcolumns
    refine List.perm_singleton.mp ((selectedRows_dictionary (by decide +kernel)
      (by decide +kernel) hself ⟨⟨("_eventId", .scalar (.number (.integer 1))), by simp [event1],
        by simp⟩, by decide +kernel⟩ ?_ hcolumns).trans (.of_eq ?_))
    · intro e he
      obtain rfl := List.mem_singleton.mp he
      exact ⟨by decide +kernel,
        (by decide +kernel : (createdTable eventClass).has "_eventId" = true)⟩
    · show [storedRow demoRuntime (oneEvent v) (event v)].filter _ = _
      exact List.filter_cons_of_pos hholds
  have htimeText : columnsText (some time.column) = "_time" := by decide +kernel
  refine ⟨?_, hself, hown, ?_, (createdColumns_nodup hvalid :), hselected none standing_star, ?_⟩
  · exact insert_run hvalid hbacked (tableDb_self _ _) (created_tableOf hvalid)
      (fun q hq _ _ => hstored q hq)
      (insertBindings_ne (p := time) (v := .number (.integer v.toInt)) htime (hstored _ htime) rfl)
  · intro d hd
    exact List.mem_map_of_mem hd
  · rw [hselected _ (by rw [htimeText]; exact .of_word (by decide))]
    rfl

end NBDataBase
