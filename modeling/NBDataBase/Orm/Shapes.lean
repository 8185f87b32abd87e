import NBDataBase.Orm.JoinQueries
import NBDataBase.Orm.Reading
import NBDataBase.Orm.Selects

/-!
# Orm — the shape of a result

`queryBaseWithParams:` reads the rows of its query into objects, or into the values of the first
column when it counts one column.

* `FMResultSet`, `executeOneColumnResult`, `executeResultClass`, `queryElements`: from the source.
* `resultColumns`: how many columns SQLite gives a select list.
* `Shaped`: values for one result column, and objects of the class, one for each row, for others.
* `queryElements_shaped_iff`: when a result has that shape.
-/

namespace NBDataBase
open Occurrences Sql

/-! ### From the source -/

/-- A result set: the names of its columns, and its rows column by column. -/
structure FMResultSet where
  columnNames : List String
  rows : List (List Value)
  rect : ∀ r ∈ rows, r.length = columnNames.length

/-- The class of the objects that are asked for. -/
inductive ResultClass where
  | dictionary
  | model (modelClass : ModelClass)
  | other

/-- An element of the array that is returned. -/
inductive Element where
  | value (o : Obj)
  | dictionary (entries : String → Option Obj)
  | model (bindingModel : Instance)
  /-- A new object of a class that is no model class. -/
  | object

/-- The object of the first column. -/
def firstObject (r : List Value) : Option Obj := r.head?.bind objectForColumn

def executeOneColumnResult (set : FMResultSet) : List Element :=
  (set.rows.filterMap firstObject).map .value

/-- The key of a column: its name without an underscore at its start. -/
def dictionaryKey (sqlName : String) : String :=
  if sqlName.toList.head? = some '_' then String.ofList (sqlName.toList.drop 1) else sqlName

def readDictionary (names : List String) (r : List Value) : String → Option Obj :=
  (names.zip r).foldl (fun bindingModel e =>
    match objectForColumn e.2 with
    | some value => Function.update bindingModel (dictionaryKey e.1) (some value)
    | none => bindingModel) fun _ => none

/-- The loop over the columns of one row. -/
def readModel (F : Foundation) (modelClass : ModelClass) (names : List String) (r : List Value) :
    Except Fault Instance :=
  (names.zip r).foldlM (fun bindingModel e =>
    readColumn F modelClass (fun _ => e.2) bindingModel e.1) (F.init modelClass)

/-- `executeResult:class:`.  An object of another class is replaced by the first value that is not
`NSNull`. -/
def executeResultClass (F : Foundation) (toClass : ResultClass) (set : FMResultSet) :
    Except Fault (List Element) :=
  match toClass with
  | .dictionary => .ok (set.rows.map fun r => .dictionary (readDictionary set.columnNames r))
  | .model modelClass => do
      let models ← set.rows.mapM (readModel F modelClass set.columnNames)
      return models.map .model
  | .other => .ok (set.rows.map fun r => ((firstObject r).map .value).getD .object)

/-- Read a result set; a query that SQLite does not take has none. -/
def readResult (F : Foundation) (toClass : ResultClass) (oneColumn : Bool)
    (set : Option FMResultSet) : Except Fault (List Element) :=
  match set with
  | none => .ok []
  | some set =>
      if oneColumn then .ok (executeOneColumnResult set) else executeResultClass F toClass set

/-- `queryBaseWithParams:`; `toClass` says what kind of class `params.toClass` is. -/
def queryElements (F : Foundation) (R : Runtime)
    (executeQuery : String → List Obj → Db → Option FMResultSet) (toClass : ResultClass)
    (params : NBDBUnionParams) (db : Db) : Except Fault (List Element) := do
  let results ← queryBaseWithUnionParams R (fun query oneColumn _ db =>
    readResult F toClass oneColumn (query.bind fun q => executeQuery q.1 q.2 db)) params db
  results

/-! ### Select lists -/

/-- A piece of a select list without the white space around it. -/
def bare (piece : List Char) : List Char := (piece.dropWhile isBlank).rdropWhile isBlank

/-- How many result columns SQLite makes of a piece of a select list: those of all tables for `*`,
those of a table for `t.*`, and one for an expression. -/
def pieceColumns (tables : List (String × ℕ)) (piece : List Char) : ℕ :=
  if bare piece = ['*'] then (tables.map (·.2)).sum
  else if ['.', '*'] <:+ bare piece then
    ((tables.filter fun t => fold t.1 = fold (String.ofList ((bare piece).dropLast.dropLast))).map
      (·.2)).sum
  else 1

/-- A select list without `distinct` or `all` before it. -/
def plainList (list : List Char) : List Char :=
  let list := list.dropWhile isBlank
  if fold (String.ofList (list.takeWhile isWordChar)) ∈ ["distinct", "all"] then
    list.dropWhile isWordChar
  else list

/-- How many result columns SQLite makes of a select list; none when it leaves a bracket or quotes
open. -/
def resultColumns (tables : List (String × ℕ)) (list : List Char) : Option ℕ :=
  (pieces {} (plainList list)).map fun ps => (ps.map (pieceColumns tables)).sum

example : resultColumns [("book", 4)] " distinct max(a,b), Book.*,'x,y' as z ".toList =
    some 6 := by
  decide +kernel

/-- The second table of a query. -/
def followName (params : NBDBUnionParams) : String :=
  formatted (params.followTableName.or (params.followTableClass.bind ModelClass.getTableName))

/-- The first table of a query. -/
def mainName (params : NBDBUnionParams) : String :=
  (mainTableName params.toNBDBQueryParams).getD ""

/-- The tables of the query with their numbers of columns. -/
def fromTables (width : String → ℕ) (params : NBDBUnionParams) : List (String × ℕ) :=
  (mainName params, width (mainName params)) ::
    if params.followTableClass.isNone then [] else [(followName params, width (followName params))]

/-- The columns in the text of the query, before its table is put in. -/
def listedColumns (params : NBDBUnionParams) : String :=
  if params.followTableClass.isNone then columnsString params.toNBDBQueryParams
  else unionColumns (mainName params) (followName params) params

/-- The select list of the query, between `select` and `from`. -/
def selectList (params : NBDBUnionParams) : List Char :=
  replaced Char.toLower tableMarker (placedTable (mainName params)) 0
    (' ' :: ((listedColumns params).toList ++ [' ']))

/-! ### What is asked for -/

/-- How many columns an argument asks for, by the elements of its array, or else by the commas of
its string. -/
def askedColumns (array : List String) (columns : Option String) : ℕ :=
  if array.length > 0 then array.length
  else if checkIsEmpty columns then 0
  else (formatted columns).toList.count ',' + 1

/-- One column is asked for in all. -/
def OneAsked (params : NBDBUnionParams) : Prop :=
  askedColumns params.columnArray params.columns +
    askedColumns params.followColumnsArray params.followColumns = 1

instance (params : NBDBUnionParams) : Decidable (OneAsked params) :=
  inferInstanceAs (Decidable (_ = 1))

/-- Every value of the result set is read without an exception. -/
def RowsRead (F : Foundation) (cls : ModelClass) (set : FMResultSet) : Prop :=
  ∀ r ∈ set.rows, ∀ e ∈ set.columnNames.zip r, ColumnReads F cls (fun _ => e.2) e.1

/-- The count of the columns asked for tells the shape of the result, where `oneColumn` says that
the select has one result column. -/
def Predicted (F : Foundation) (cls : ModelClass) (params : NBDBUnionParams) (set : FMResultSet)
    (oneColumn : Prop) : Prop :=
  set.rows = [] ∨ OneAsked params ∧ oneColumn ∨
    ¬ OneAsked params ∧ ¬ oneColumn ∧ RowsRead F cls set

/-- No column is asked for. -/
structure Unasked (params : NBDBUnionParams) : Prop where
  columnArray : params.columnArray = []
  columns : checkIsEmpty params.columns = true
  followColumnsArray : params.followColumnsArray = []
  followColumns : checkIsEmpty params.followColumns = true

/-- The query that asks for `*`. -/
def starred (params : NBDBUnionParams) : NBDBUnionParams := { params with columns := some "*" }

/-- **The shape of a result**: the values of one result column that are not `NULL`, and a model for
each row else. -/
def Shaped (set : FMResultSet) (results : Except Fault (List Element)) : Prop :=
  if set.columnNames.length = 1 then
    results = .ok ((set.rows.filterMap firstObject).map .value)
  else ∃ models : List Instance, models.length = set.rows.length ∧
    results = .ok (models.map .model)

/-! ### The text of the query -/

/-- What stands behind the table of a query. -/
def Behind (x : String) : Prop := x = "" ∨ ∃ y, x.toList = ' ' :: y

theorem Behind.append {a b : String} (ha : Behind a) (hb : Behind b) : Behind (a ++ b) := by
  rcases ha with rfl | ⟨y, ha⟩
  · simpa using hb
  · exact .inr ⟨y ++ b.toList, by rw [String.toList_append, ha]; rfl⟩

/-- The table is put in between the select list and the rest. -/
theorem replaceTableName_list (T columns : String) {rest : String} (hrest : Behind rest) :
    ∃ y, (replaceTableName ("select " ++ (columns ++ (" from @t" ++ rest))) T).toList =
      "select".toList ++ (replaced Char.toLower tableMarker (placedTable T) 0
        (' ' :: (columns.toList ++ [' '])) ++ ("from".toList ++ (placedTable T ++ y))) := by
  have hselect : Keyword "select".toList := ⟨by decide, by decide⟩
  have hfrom : Keyword "from".toList := ⟨by decide, by decide⟩
  -- behind the marker stands the blank of the rest, or the one that is put there
  obtain ⟨y, hquery⟩ : ∃ y, (if " @t".toList <:+
      ("select " ++ (columns ++ (" from @t" ++ rest))).toList then
      "select " ++ (columns ++ (" from @t" ++ rest)) ++ " "
      else "select " ++ (columns ++ (" from @t" ++ rest))).toList =
      "select".toList ++
        ' ' :: (columns.toList ++ ' ' :: ("from".toList ++ (tableMarker ++ y))) := by
    have hchars : ("select " ++ (columns ++ (" from @t" ++ rest))).toList =
        "select".toList ++ ' ' :: (columns.toList ++ ' ' :: ("from".toList ++
          (" @t".toList ++ rest.toList))) := by
      simp only [String.toList_append]
      rfl
    rcases hrest with rfl | ⟨z, hz⟩
    · have hends : " @t".toList <:+ ("select " ++ (columns ++ (" from @t" ++ ""))).toList := by
        refine ⟨"select".toList ++ ' ' :: (columns.toList ++ ' ' :: "from".toList), ?_⟩
        rw [hchars]
        simp
      refine ⟨[], ?_⟩
      rw [if_pos hends, String.toList_append, hchars]
      simp [tableMarker]
    · have hblank : " @t".toList ++ ' ' :: z = tableMarker ++ z := rfl
      rw [hz, hblank] at hchars
      split
      · refine ⟨z ++ [' '], ?_⟩
        rw [String.toList_append, hchars]
        simp
      · exact ⟨z, hchars⟩
  refine ⟨replaced Char.toLower tableMarker (placedTable T) 0 y, ?_⟩
  have hcut : replaced Char.toLower tableMarker (placedTable T) 0
      ((' ' :: columns.toList ++ [' ']) ++ ("from".toList ++ (tableMarker ++ y))) = _ :=
    replaced_append (by decide) (sealed_blank hfrom (' ' :: columns.toList) (tableMarker ++ y))
  have hlist : ' ' :: (columns.toList ++ ' ' :: ("from".toList ++ (tableMarker ++ y))) =
      (' ' :: columns.toList ++ [' ']) ++ ("from".toList ++ (tableMarker ++ y)) := by simp
  have hrun : replaced Char.toLower tableMarker (placedTable T) 0
      ("from".toList ++ (tableMarker ++ y)) = "from".toList ++
        (placedTable T ++ replaced Char.toLower tableMarker (placedTable T) 0 y) := by
    have hmarker : replaced Char.toLower tableMarker (placedTable T) 0 (tableMarker ++ y) =
        placedTable T ++ replaced Char.toLower tableMarker (placedTable T) 0 y :=
      replaced_starts (by decide) rfl y
    rw [← hmarker]
    exact replaced_run hfrom.chain
  rw [replaceTableName, String.toList_ofList, replaceOccurrences_eq, hquery,
    replaced_run hselect.chain, hlist, hcut, hrun]
  rfl

theorem sqlString_rest (params : NBDBQueryParams) :
    ∃ rest, Behind rest ∧ ∀ sql, sqlString sql params = sql ++ rest := by
  obtain ⟨rest, hrest, hsql⟩ := sqlString_eq params
  exact ⟨rest, hrest.imp_right fun ⟨c, d, y, hy, _⟩ => ⟨c :: d :: y, hy⟩, hsql⟩

/-- `extractWhereSql` puts nothing or a clause behind a query without a model. -/
theorem extractWhereSql_rest {R : Runtime} {sql : String} {condition : Option Where} {flag : Bool}
    {result : Extracted} (h : extractWhereSql R sql condition flag none = .ok result) :
    ∃ rest, Behind rest ∧ result.sql = sql ++ rest := by
  have hkeys : ∀ {result}, extractWhereSql.byPrimaryKey R sql flag none = .ok result →
      result.sql = sql := by
    intro result h
    unfold extractWhereSql.byPrimaryKey at h
    cases flag
    · cases h
      rfl
    · obtain ⟨-, -, h⟩ := Loop.of_bind_ok h
      cases h
      rfl
  have hnone : ∀ {result : Extracted}, result.sql = sql →
      ∃ rest, Behind rest ∧ result.sql = sql ++ rest :=
    fun h => ⟨"", .inl rfl, by rw [h, String.append_empty]⟩
  have hwhere : ∀ x : String, Behind (" where " ++ x) := fun x =>
    .inr ⟨"where ".toList ++ x.toList, by rw [String.toList_append]; rfl⟩
  rcases condition with _ | (s | dic | _)
  · exact hnone (hkeys h)
  · rw [extractWhereSql] at h
    split at h
    · exact hnone (hkeys h)
    · cases h
      exact ⟨_, hwhere s, rfl⟩
  · rw [extractWhereSql] at h
    split at h
    · cases h
      exact ⟨_, hwhere _, rfl⟩
    · obtain ⟨-, -, h⟩ := Loop.of_bind_ok h
      cases h
      exact hnone rfl
  · exact hnone (hkeys h)

theorem named_of_checkIsEmpty {s : Option String} (h : checkIsEmpty s ≠ true) :
    ∃ T, s = some T ∧ checkStringIsEmpty T = false := by
  cases s with
  | none => exact absurd rfl h
  | some T => exact ⟨T, rfl, by simpa [checkIsEmpty] using h⟩

/-- A query that has a text has a table. -/
theorem mainTableName_of_issued {R : Runtime} {params : NBDBUnionParams} {text : String}
    {values : List Obj} (h : issuedStatement R params = .ok (some (text, values))) :
    mainTableName params.toNBDBQueryParams = some (mainName params) ∧
      checkStringIsEmpty (mainName params) = false := by
  have hempty : checkIsEmpty (mainTableName params.toNBDBQueryParams) ≠ true := by
    intro hempty
    unfold issuedStatement at h
    split at h
    · rw [createSelectSQLWithParams_unnamed hempty] at h
      cases h
    · rw [createUnionSelectSQLWithParams_unnamed hempty] at h
      cases h
  obtain ⟨T, hT, hblank⟩ := named_of_checkIsEmpty hempty
  rw [mainName, hT]
  exact ⟨rfl, hblank⟩

theorem createSelectSQLWithParams_list {R : Runtime} {params : NBDBQueryParams} {T text : String}
    {values : List Obj} (hT : mainTableName params = some T) (hblank : checkStringIsEmpty T = false)
    (h : createSelectSQLWithParams R params = .ok (some (text, values))) :
    ∃ rest, Behind rest ∧
      text = replaceTableName ("select " ++ (columnsString params ++ (" from @t" ++ rest))) T := by
  obtain ⟨ending, hending, hsql⟩ := sqlString_rest params
  rw [createSelectSQLWithParams_eq R hT hblank] at h
  obtain ⟨result, hresult, h⟩ := Loop.of_bind_ok h
  obtain ⟨clause, hclause, hclauses⟩ := extractWhereSql_rest hresult
  refine ⟨clause ++ ending, hclause.append hending, ?_⟩
  obtain ⟨htext, -⟩ := Prod.mk.inj (Option.some.inj (Except.ok.inj h))
  rw [← htext, hsql, hclauses]
  simp only [String.append_assoc]

theorem createUnionSelectSQLWithParams_list {params : NBDBUnionParams} {T text : String}
    {values : List Obj} (hT : mainTableName params.toNBDBQueryParams = some T)
    (hblank : checkStringIsEmpty T = false)
    (h : createUnionSelectSQLWithParams params = some (text, values)) :
    ∃ rest, Behind rest ∧ text = replaceTableName
      ("select " ++ (unionColumns T (followName params) params ++ (" from @t" ++ rest))) T := by
  obtain ⟨rest, values', hunion⟩ := createUnionSelectSQLWithParams_text hT hblank
  have hfrom : " from @t left join " = " from @t" ++ " left join " := by decide
  refine ⟨" left join " ++ rest, .inr ⟨"left join ".toList ++ rest.toList, ?_⟩, ?_⟩
  · rw [String.toList_append]
    rfl
  · obtain ⟨htext, -⟩ := Prod.mk.inj (Option.some.inj (hunion.symm.trans h))
    rw [← htext, hfrom, String.append_assoc, followName]

/-- The statement that is executed starts with its select list. -/
theorem issuedStatement_list {R : Runtime} {params : NBDBUnionParams} {text : String}
    {values : List Obj} (h : issuedStatement R params = .ok (some (text, values))) :
    ∃ rest, text.toList = "select".toList ++ (selectList params ++
      ("from".toList ++ (placedTable (mainName params) ++ rest))) := by
  obtain ⟨hmain, hblank⟩ := mainTableName_of_issued h
  obtain ⟨rest, hrest, htext⟩ : ∃ rest, Behind rest ∧ text = replaceTableName
      ("select " ++ (listedColumns params ++ (" from @t" ++ rest))) (mainName params) := by
    unfold issuedStatement at h
    unfold listedColumns
    split at h
    · rename_i hsingle
      rw [if_pos hsingle]
      exact createSelectSQLWithParams_list hmain hblank h
    · rename_i hjoin
      rw [if_neg hjoin]
      exact createUnionSelectSQLWithParams_list hmain hblank (Except.ok.inj h)
  rw [htext, selectList]
  exact replaceTableName_list (mainName params) (listedColumns params) hrest

/-! ### The shape -/

theorem askedColumns_eq (array : List String) (columns : Option String) :
    askedColumns array columns = (namedColumns array columns).length := by
  have hsplit : ∀ s : List Char, (s.splitOn ',').length = s.count ',' + 1 := by
    intro s
    induction s with
    | nil => rfl
    | cons c s ih =>
        rw [List.splitOn_cons_eq_if_modifyHead, List.count_cons]
        split
        · rw [List.length_cons, ih]
        · rw [List.length_modifyHead, ih]
  unfold askedColumns namedColumns
  split
  · rfl
  · split
    · rfl
    · rw [componentsSeparatedByComma, List.length_map, hsplit]

theorem oneAsked_iff (params : NBDBUnionParams) : OneAsked params ↔ columnCount params = 1 := by
  rw [OneAsked, askedColumns_eq, askedColumns_eq, columnCount]

theorem readModel_ok_iff {F : Foundation} {cls : ModelClass} {names : List String}
    {r : List Value} : (∃ inst, readModel F cls names r = .ok inst) ↔
      ∀ e ∈ names.zip r, ColumnReads F cls (fun _ => e.2) e.1 := by
  have hread : ∀ (bindingModel : Instance) (e : String × Value),
      (∃ inst, readColumn F cls (fun _ => e.2) bindingModel e.1 = .ok inst) ↔
        ColumnReads F cls (fun _ => e.2) e.1 := fun _ _ => readColumn_ok_iff
  exact Loop.foldlM_ok_iff (fun bindingModel e _ => hread bindingModel e) (F.init cls)

/-- The models of a result set, when it is read. -/
theorem executeResultClass_model {F : Foundation} {cls : ModelClass} {set : FMResultSet}
    {elements : List Element} : executeResultClass F (.model cls) set = .ok elements ↔
      ∃ models, set.rows.mapM (readModel F cls set.columnNames) = .ok models ∧
        elements = models.map .model := by
  unfold executeResultClass
  constructor
  · intro h
    obtain ⟨models, hmodels, h⟩ := Loop.of_bind_ok h
    cases h
    exact ⟨models, hmodels, rfl⟩
  · rintro ⟨models, hmodels, rfl⟩
    simp only [hmodels]
    rfl

/-- What a query that SQLite takes returns. -/
theorem queryElements_set {F : Foundation} {R : Runtime}
    {executeQuery : String → List Obj → Db → Option FMResultSet} {params : NBDBUnionParams}
    {db : Db} {text : String} {values : List Obj} {set : FMResultSet}
    (hissued : issuedStatement R params = .ok (some (text, values)))
    (hset : executeQuery text values db = some set) (toClass : ResultClass) :
    queryElements F R executeQuery toClass params db =
      if columnCount params = 1 then .ok (executeOneColumnResult set)
      else executeResultClass F toClass set := by
  unfold queryElements queryBaseWithUnionParams
  rw [hissued]
  show readResult F toClass (decide (columnCount params = 1))
    ((some (text, values)).bind fun q => executeQuery q.1 q.2 db) = _
  rw [Option.bind_some, hset, readResult]
  simp only [decide_eq_true_eq]

/-- No value is a model. -/
theorem models_nil {values : List Obj} {models : List Instance}
    (h : values.map Element.value = models.map .model) : models = [] := by
  cases models with
  | nil => rfl
  | cons inst models =>
      have hmem : Element.model inst ∈ values.map Element.value := by
        rw [h]
        exact List.mem_cons_self
      obtain ⟨o, -, ho⟩ := List.mem_map.mp hmem
      cases ho

theorem executeOneColumnResult_shaped (set : FMResultSet) :
    Shaped set (.ok (executeOneColumnResult set)) ↔
      set.rows = [] ∨ set.columnNames.length = 1 := by
  unfold Shaped
  split
  · rename_i hone
    exact iff_of_true rfl (.inr hone)
  · rename_i hone
    rw [or_iff_left hone]
    constructor
    · rintro ⟨models, hlength, h⟩
      obtain rfl := models_nil (Except.ok.inj h)
      exact List.eq_nil_of_length_eq_zero hlength.symm
    · intro hrows
      refine ⟨[], by rw [hrows]; rfl, ?_⟩
      rw [executeOneColumnResult, hrows]
      rfl

theorem executeResultClass_shaped {F : Foundation} {cls : ModelClass} (set : FMResultSet) :
    Shaped set (executeResultClass F (.model cls) set) ↔
      set.rows = [] ∨ set.columnNames.length ≠ 1 ∧ RowsRead F cls set := by
  have hread : (∃ models, set.rows.mapM (readModel F cls set.columnNames) = .ok models) ↔
      RowsRead F cls set :=
    Loop.mapM_ok_iff.trans (forall₂_congr fun _ _ => readModel_ok_iff)
  unfold Shaped
  split
  · rename_i hone
    rw [executeResultClass_model]
    constructor
    · rintro ⟨models, hmodels, h⟩
      obtain rfl := models_nil h
      exact .inl (List.eq_nil_of_length_eq_zero (Loop.length_of_mapM_ok hmodels).symm)
    · rintro (hrows | ⟨hmany, -⟩)
      · rw [hrows]
        exact ⟨[], rfl, rfl⟩
      · exact absurd hone hmany
  · rename_i hmany
    constructor
    · rintro ⟨models, -, h⟩
      obtain ⟨models', hmodels, -⟩ := executeResultClass_model.mp h
      exact .inr ⟨hmany, hread.mp ⟨models', hmodels⟩⟩
    · intro h
      obtain ⟨models, hmodels⟩ := hread.mpr (by
        rcases h with hrows | ⟨-, h⟩
        · intro r hr
          rw [hrows] at hr
          cases hr
        · exact h)
      exact ⟨models, Loop.length_of_mapM_ok hmodels, executeResultClass_model.mpr ⟨_, hmodels, rfl⟩⟩

/-! ### Asking for all columns -/

theorem Unasked.columnCount_eq {params : NBDBUnionParams} (h : Unasked params) :
    columnCount params = 0 := by
  rw [columnCount, h.columnArray, h.followColumnsArray, namedColumns, namedColumns,
    if_pos h.columns, if_pos h.followColumns]
  rfl

theorem Unasked.columnCount_starred {params : NBDBUnionParams} (h : Unasked params) :
    columnCount (starred params) = 1 := by
  show (namedColumns params.columnArray (some "*")).length +
    (namedColumns params.followColumnsArray params.followColumns).length = 1
  rw [h.columnArray, h.followColumnsArray, namedColumns, namedColumns, if_pos h.followColumns]
  decide

/-- A query of one table says `*` without columns. -/
theorem Unasked.issuedStatement_starred {params : NBDBUnionParams} (h : Unasked params)
    (hsingle : params.followTableClass = none) (R : Runtime) :
    issuedStatement R (starred params) = issuedStatement R params := by
  have hsingle' : (starred params).followTableClass.isNone = true := by
    show params.followTableClass.isNone = true
    rw [hsingle]
    rfl
  have hmain : mainTableName (starred params).toNBDBQueryParams =
    mainTableName params.toNBDBQueryParams := rfl
  have hcolumns : columnsString (starred params).toNBDBQueryParams =
      columnsString params.toNBDBQueryParams := by
    show columnsString { params.toNBDBQueryParams with columns := some "*" } = _
    unfold columnsString
    simp only [h.columnArray, h.columns]
    rfl
  rw [issuedStatement, issuedStatement, if_pos hsingle', if_pos (by rw [hsingle]; rfl)]
  by_cases hempty : checkIsEmpty (mainTableName params.toNBDBQueryParams) = true
  · have hempty' : checkIsEmpty (mainTableName (starred params).toNBDBQueryParams) = true := by
      rw [hmain]
      exact hempty
    rw [createSelectSQLWithParams_unnamed hempty, createSelectSQLWithParams_unnamed hempty']
  · obtain ⟨T, hT, hblank⟩ := named_of_checkIsEmpty hempty
    rw [createSelectSQLWithParams_eq R hT hblank,
      createSelectSQLWithParams_eq R (hmain.trans hT) hblank, hcolumns]
    rfl

theorem executeOneColumnResult_eq_models {F : Foundation} {cls : ModelClass}
    (set set' : FMResultSet) :
    .ok (executeOneColumnResult set') = executeResultClass F (.model cls) set ↔
      set.rows = [] ∧ ∀ r ∈ set'.rows, firstObject r = none := by
  rw [eq_comm, executeResultClass_model, executeOneColumnResult]
  constructor
  · rintro ⟨models, hmodels, h⟩
    obtain rfl := models_nil h
    refine ⟨List.eq_nil_of_length_eq_zero (Loop.length_of_mapM_ok hmodels).symm, ?_⟩
    exact List.filterMap_eq_nil_iff.mp (List.map_eq_nil_iff.mp h)
  · rintro ⟨hrows, hnone⟩
    rw [hrows, List.filterMap_eq_nil_iff.mpr hnone]
    exact ⟨[], rfl, rfl⟩

/-! ### Plain columns -/

/-- A character of a list of plain columns. -/
def PlainChar (c : Char) : Prop := (c = ',' ∨ Inert c) ∧ c ≠ '*' ∧ c ≠ '@'

theorem pieces_plain {x : List Char} (h : ∀ c ∈ x, PlainChar c) : ∃ ps, pieces {} x = some ps ∧
    ps.length = x.count ',' + 1 ∧ ∀ p ∈ ps, '*' ∉ p := by
  induction x with
  | nil => exact ⟨[[]], rfl, rfl, by simp⟩
  | cons c x ih =>
      obtain ⟨ps, hps, hlength, hfree⟩ := ih fun d hd => h d (List.mem_cons_of_mem _ hd)
      obtain ⟨hinert, hstar, -⟩ := h c List.mem_cons_self
      by_cases hc : c = ','
      · subst hc
        refine ⟨[] :: ps, ?_, ?_, ?_⟩
        · rw [pieces, if_pos ⟨rfl, rfl⟩, hps]
          rfl
        · rw [List.length_cons, hlength, List.count_cons_self]
        · rintro p (_ | ⟨_, hp⟩)
          · exact List.not_mem_nil
          · exact hfree p hp
      · obtain ⟨-, hnext⟩ := hinert.resolve_left hc
        obtain ⟨p, ps, rfl⟩ : ∃ p qs, ps = p :: qs := by
          cases ps with
          | nil => cases hlength
          | cons p qs => exact ⟨p, qs, rfl⟩
        refine ⟨(c :: p) :: ps, ?_, ?_, ?_⟩
        · rw [pieces, if_neg fun e => hc e.1, hnext, Option.bind_some, hps]
          rfl
        · rw [List.length_cons] at hlength ⊢
          rw [hlength, List.count_cons_of_ne hc]
        · rintro q (_ | ⟨_, hq⟩)
          · intro hmem
            rcases List.mem_cons.mp hmem with e | hmem
            · exact hstar e.symm
            · exact hfree p List.mem_cons_self hmem
          · exact hfree q (List.mem_cons_of_mem _ hq)

theorem pieceColumns_plain {piece : List Char} (h : '*' ∉ piece) (tables : List (String × ℕ)) :
    pieceColumns tables piece = 1 := by
  have hbare : '*' ∉ bare piece := fun hc =>
    h ((List.dropWhile_sublist _).subset ((List.rdropWhile_prefix _ _).subset hc))
  rw [pieceColumns, if_neg, if_neg]
  · intro hends
    exact hbare (hends.subset (by simp))
  · intro hstar
    exact hbare (by rw [hstar]; exact List.mem_cons_self)

theorem count_dropWhile {p : Char → Bool} {c : Char} (hc : p c = false) (x : List Char) :
    (x.dropWhile p).count c = x.count c := by
  induction x with
  | nil => rfl
  | cons d x ih =>
      rw [List.dropWhile_cons]
      split
      · rename_i hd
        rw [ih, List.count_cons_of_ne]
        rintro rfl
        rw [hd] at hc
        cases hc
      · rfl

theorem plainList_cases (x : List Char) : plainList x = x.dropWhile isBlank ∨
    plainList x = (x.dropWhile isBlank).dropWhile isWordChar := by
  unfold plainList
  dsimp only
  split
  · exact .inr rfl
  · exact .inl rfl

/-- A list of plain columns has a result column for each. -/
theorem resultColumns_plain {x : List Char} (h : ∀ c ∈ x, PlainChar c)
    (tables : List (String × ℕ)) : resultColumns tables x = some (x.count ',' + 1) := by
  obtain ⟨hsub, hcount⟩ : plainList x ⊆ x ∧ (plainList x).count ',' = x.count ',' := by
    have hblank := count_dropWhile (p := isBlank) (c := ',') (by decide) x
    rcases plainList_cases x with hlist | hlist
    · rw [hlist]
      exact ⟨(List.dropWhile_sublist _).subset, hblank⟩
    · rw [hlist]
      refine ⟨((List.dropWhile_sublist _).trans (List.dropWhile_sublist _)).subset, ?_⟩
      rw [count_dropWhile (by decide), hblank]
  obtain ⟨ps, hps, hlength, hfree⟩ := pieces_plain fun c hc => h c (hsub hc)
  have hone : ps.map (pieceColumns tables) = ps.map fun _ => 1 :=
    List.map_congr_left fun p hp => pieceColumns_plain (hfree p hp) tables
  rw [resultColumns, hps, Option.map_some, hone, List.map_const', List.sum_replicate, hlength,
    hcount, smul_eq_mul, mul_one]

/-- **Plain columns are counted right**: a query of one table has as many result columns as its
string of columns asks for. -/
theorem resultColumns_selectList {params : NBDBUnionParams}
    (hsingle : params.followTableClass = none) (harray : params.columnArray = [])
    (hcolumns : checkIsEmpty params.columns = false)
    (hplain : ∀ c ∈ (formatted params.columns).toList, PlainChar c) (tables : List (String × ℕ)) :
    resultColumns tables (selectList params) =
      some (askedColumns params.columnArray params.columns) := by
  have hlisted : listedColumns params = formatted params.columns := by
    rw [listedColumns, if_pos (by rw [hsingle]; rfl), columnsString, harray, hcolumns]
    rfl
  have hblank : PlainChar ' ' := by
    refine ⟨.inr ⟨?_, ?_⟩, ?_, ?_⟩ <;> decide
  have hchars : ∀ c ∈ ' ' :: ((formatted params.columns).toList ++ [' ']), PlainChar c := by
    rintro c (_ | ⟨_, hc⟩)
    · exact hblank
    · rcases List.mem_append.mp hc with hc | hc
      · exact hplain c hc
      · obtain rfl := List.mem_singleton.mp hc
        exact hblank
  rw [selectList, hlisted, replaced_of_free (not_occurs_table fun hc => (hchars _ hc).2.2 rfl),
    resultColumns_plain hchars, askedColumns, harray, hcolumns]
  simp [List.count_append]

/-! ### The result -/

section Query

variable {F : Foundation} {R : Runtime} {executeQuery : String → List Obj → Db → Option FMResultSet}
  {cls : ModelClass} {params : NBDBUnionParams} {db : Db} {text : String} {values : List Obj}
  {set : FMResultSet}

/-- The shape of a result by the number of columns in its result set. -/
theorem queryElements_predicted (hissued : issuedStatement R params = .ok (some (text, values)))
    (hset : executeQuery text values db = some set) :
    Shaped set (queryElements F R executeQuery (.model cls) params db) ↔
      Predicted F cls params set (set.columnNames.length = 1) := by
  rw [queryElements_set hissued hset, Predicted, oneAsked_iff]
  split
  · rename_i hone
    rw [executeOneColumnResult_shaped]
    simp [hone]
  · rename_i hmany
    rw [executeResultClass_shaped]
    simp [hmany]

/-- Asking for `*` returns what asking for no columns does exactly when there is nothing to
return. -/
theorem queryElements_starred (hunasked : Unasked params)
    (hissued : issuedStatement R params = .ok (some (text, values)))
    (hset : executeQuery text values db = some set) {text' : String} {values' : List Obj}
    {set' : FMResultSet} (hissued' : issuedStatement R (starred params) =
      .ok (some (text', values')))
    (hset' : executeQuery text' values' db = some set') :
    queryElements F R executeQuery (.model cls) (starred params) db =
        queryElements F R executeQuery (.model cls) params db ↔
      set.rows = [] ∧ ∀ r ∈ set'.rows, firstObject r = none := by
  rw [queryElements_set hissued hset, queryElements_set hissued' hset',
    if_pos hunasked.columnCount_starred, if_neg (by rw [hunasked.columnCount_eq]; decide)]
  exact executeOneColumnResult_eq_models set set'

/-- **The shape of a result follows the count of what is asked for**: it is that of the result
columns exactly when no row is found, when one column is asked for and there is one, or when not one
is asked for, there is not one, and every value is read. -/
theorem queryElements_shaped_iff (width : String → ℕ)
    (hissued : issuedStatement R params = .ok (some (text, values)))
    (hset : executeQuery text values db = some set) :
    (∃ rest, text.toList = "select".toList ++ (selectList params ++
      ("from".toList ++ (placedTable (mainName params) ++ rest)))) ∧
    (Shaped set (queryElements F R executeQuery (.model cls) params db) ↔
      Predicted F cls params set (set.columnNames.length = 1)) ∧
    (resultColumns (fromTables width params) (selectList params) = some set.columnNames.length →
      (Shaped set (queryElements F R executeQuery (.model cls) params db) ↔
        Predicted F cls params set
          (resultColumns (fromTables width params) (selectList params) = some 1))) ∧
    (∀ (text' : String) (values' : List Obj) (set' : FMResultSet), Unasked params →
      issuedStatement R (starred params) = .ok (some (text', values')) →
      executeQuery text' values' db = some set' →
      (queryElements F R executeQuery (.model cls) (starred params) db =
        queryElements F R executeQuery (.model cls) params db ↔
          set.rows = [] ∧ ∀ r ∈ set'.rows, firstObject r = none)) ∧
    (Unasked params → params.followTableClass = none →
      (queryElements F R executeQuery (.model cls) (starred params) db =
        queryElements F R executeQuery (.model cls) params db ↔ set.rows = [])) := by
  have hshaped : Shaped set (queryElements F R executeQuery (.model cls) params db) ↔
    Predicted F cls params set (set.columnNames.length = 1) := queryElements_predicted hissued hset
  refine ⟨issuedStatement_list hissued, hshaped, fun hcolumns => ?_,
    fun _ _ _ hunasked hissued' hset' => queryElements_starred hunasked hissued hset hissued' hset',
    fun hunasked hsingle => ?_⟩
  · rw [hshaped, hcolumns, Option.some_inj]
  · rw [queryElements_starred hunasked hissued hset
      ((hunasked.issuedStatement_starred hsingle R).trans hissued) hset]
    constructor
    · exact And.left
    · intro hrows
      rw [hrows]
      exact ⟨rfl, by simp⟩

/-- **Plain columns have the shape they ask for**, when every value is read. -/
theorem queryElements_plain (width : String → ℕ) (hsingle : params.followTableClass = none)
    (harray : params.columnArray = []) (hcolumns : checkIsEmpty params.columns = false)
    (hplain : ∀ c ∈ (formatted params.columns).toList, PlainChar c)
    (hfollow : askedColumns params.followColumnsArray params.followColumns = 0)
    (hissued : issuedStatement R params = .ok (some (text, values)))
    (hset : executeQuery text values db = some set)
    (hcount : resultColumns (fromTables width params) (selectList params) =
      some set.columnNames.length) (hread : RowsRead F cls set) :
    Shaped set (queryElements F R executeQuery (.model cls) params db) := by
  have hasked := resultColumns_selectList hsingle harray hcolumns hplain (fromTables width params)
  have hone : OneAsked params ↔ set.columnNames.length = 1 := by
    rw [OneAsked, hfollow, Nat.add_zero, Option.some_inj.mp (hasked.symm.trans hcount)]
  refine (queryElements_predicted hissued hset).mpr (.inr ?_)
  by_cases h : OneAsked params
  · exact .inl ⟨h, hone.mp h⟩
  · exact .inr ⟨h, mt hone.mpr h, hread⟩

end Query

/-- Two columns of a book, in a table of two columns. -/
def bookResult : FMResultSet where
  columnNames := ["_bookId", "_name"]
  rows := [[.text "7", .text "Dune"]]
  rect := by decide

/-- The column of the names alone. -/
def nameResult : FMResultSet where
  columnNames := ["_name"]
  rows := [[.text "Dune"], [.null]]
  rect := by decide

/-- SQLite on two queries of the table of the books. -/
def executeBooks (text : String) (_ : List Obj) (_ : Db) : Option FMResultSet :=
  if text = "select * from tb_books " then some bookResult
  else if text = "select _name from tb_books " then some nameResult
  else none

/-- A query for columns of the books. -/
def booksWith (columns : String) : NBDBUnionParams :=
  { toClass := some bookClass, tableName := some "tb_books", columns := some columns }

theorem name_books_shaped : Shaped nameResult (queryElements demoFoundation demoRuntime executeBooks
    (.model bookClass) (booksWith "_name") fun _ => none) := by
  have hissued : issuedStatement demoRuntime (booksWith "_name") =
    .ok (some ("select _name from tb_books ", [])) := by rfl
  have hset : executeBooks "select _name from tb_books " [] (fun _ => none) = some nameResult := by
    rfl
  exact (queryElements_shaped_iff (fun _ => 2) hissued hset).2.1.mpr
    (.inr (.inl ⟨by decide, by decide⟩))

/-- A `*` on a table of two columns: values of the first column are returned. -/
theorem star_books_values :
    issuedStatement demoRuntime (booksWith "*") = .ok (some ("select * from tb_books ", [])) ∧
      executeBooks "select * from tb_books " [] (fun _ => none) = some bookResult ∧
      resultColumns (fromTables (fun _ => 2) (booksWith "*")) (selectList (booksWith "*")) =
        some bookResult.columnNames.length ∧
      ¬ Shaped bookResult (queryElements demoFoundation demoRuntime executeBooks
        (.model bookClass) (booksWith "*") fun _ => none) := by
  have hissued : issuedStatement demoRuntime (booksWith "*") =
    .ok (some ("select * from tb_books ", [])) := by rfl
  have hset : executeBooks "select * from tb_books " [] (fun _ => none) = some bookResult := by rfl
  refine ⟨hissued, hset, by decide +kernel, ?_⟩
  rw [queryElements_predicted hissued hset]
  rintro (hrows | ⟨-, hone⟩ | ⟨hmany, -⟩)
  · cases hrows
  · exact absurd hone (by decide)
  · exact hmany (by decide)

end NBDataBase
