import NBDataBase.Lib.Pages
import NBDataBase.Orm.Api

/-!
# Orm — queries page by page

`query:…offset:count:` of one table, and `queryData:where:orderBy:`, which asks for a page of one.

* `queryData`, `queryDataTableName`: from the source.
* `CutsPages`: SQLite answers the text of a page with the rows its limit leaves.
* `readRows_rowWise`: every reader of results reads row by row.
* `pages_query`: the pages of a query, one after another, are the query.
* `queryData_first`: `queryData` returns the first object of the query.
-/

namespace NBDataBase
open Occurrences Sql

/-! ### From the source -/

section

variable (F : Foundation) (R : Runtime)
  (executeQuery : String → List Obj → Db → Option FMResultSet)

/-- The first object of a page of one. -/
def firstOfQuery (modelClass : ModelClass) (params : NBDBUnionParams) (db : Db) :
    Except Fault (Option Element) := do
  let resultArray ← queryElements F R executeQuery (.model modelClass) params db
  return resultArray.head?

/-- `queryData:where:orderBy:`, and without an order `queryData:where:`. -/
def queryData (modelClass : ModelClass) (condition : Option Where) (orderBy : Option String) :
    Db → Except Fault (Option Element) :=
  firstOfQuery F R executeQuery modelClass (queryTable modelClass none
    { condition := condition, orderBy := orderBy, offset := 0, count := 1 })

/-- `queryData:tableName:where:orderBy:`, and without an order `queryData:tableName:where:`. -/
def queryDataTableName (modelClass : ModelClass) (tableName : String) (condition : Option Where)
    (orderBy : Option String) : Db → Except Fault (Option Element) :=
  firstOfQuery F R executeQuery modelClass (queryTableName modelClass (some tableName)
    { condition := condition, orderBy := orderBy, offset := 0, count := 1 })

end

/-! ### Pages -/

/-- The query with another offset and count. -/
def NBDBUnionParams.page (params : NBDBUnionParams) (offset count : ℤ) : NBDBUnionParams :=
  { params with offset := offset, count := count }

/-- The result set with the rows that `limit n offset m` leaves. -/
def FMResultSet.cut (n m : ℤ) (set : FMResultSet) : FMResultSet where
  columnNames := set.columnNames
  rows := limitRows n m set.rows
  rect r hr := set.rect r (by
    unfold limitRows at hr
    split at hr
    · exact List.drop_subset _ _ hr
    · exact List.drop_subset _ _ (List.take_subset _ _ hr))

/-- SQLite answers the text of a page of the table with the rows that its limit leaves of the answer
to the text without a limit.  The numbers are values of `NSInteger`. -/
def CutsPages (executeQuery : String → List Obj → Db → Option FMResultSet) (T : String)
    (params : NBDBUnionParams) (db : Db) : Prop :=
  ∀ (values : List Obj) (offset count : ℕ), 0 < count → count < 2 ^ 63 → offset < 2 ^ 63 →
    executeQuery (selectText T (params.page offset count).toNBDBQueryParams) values db =
      (executeQuery (selectText T (params.page 0 0).toNBDBQueryParams) values db).map
        (FMResultSet.cut count offset)

/-- A query of the table `T` alone, in which no text of a page has the marker of the table. -/
structure Pageable (T : String) (params : NBDBUnionParams) : Prop where
  single : params.followTableClass = none
  table : mainTableName params.toNBDBQueryParams = some T
  named : checkStringIsEmpty T = false
  conditioned : Conditioned params.toNBDBQueryParams
  unmarked : Unmarked (params.page 0 1).toNBDBQueryParams

variable {F : Foundation} {R : Runtime}
  {executeQuery : String → List Obj → Db → Option FMResultSet} {toClass : ResultClass}
  {T : String} {params : NBDBUnionParams} {db : Db}

/-! ### The text of a page -/

/-- A body with the blanks around it ends in at most one blank more. -/
theorem surroundings_prefix {cs : List Clause} {s : List Char} (hs : s ∈ surroundings cs) :
    ∃ c ∈ cs, s <+: ' ' :: (c.body.toList ++ [' ']) := by
  induction cs with
  | nil => cases hs
  | cons c cs ih =>
      cases cs with
      | nil =>
          obtain rfl := List.mem_singleton.mp hs
          refine ⟨c, List.mem_singleton_self c, ?_⟩
          unfold ending
          split
          · exact List.prefix_rfl
          · rw [List.append_nil]
            exact List.prefix_append (' ' :: c.body.toList) [' ']
      | cons d cs =>
          rcases List.mem_cons.mp hs with rfl | hs
          · exact ⟨c, List.mem_cons_self, List.prefix_rfl⟩
          · obtain ⟨e, he, hprefix⟩ := ih hs
            exact ⟨e, List.mem_cons_of_mem c he, hprefix⟩

/-- A body that is not the last has a blank behind it. -/
theorem surroundings_front {cs : List Clause} {c : Clause} (hc : c ∈ cs) (d : Clause) :
    ' ' :: (c.body.toList ++ [' ']) ∈ surroundings (cs ++ [d]) := by
  induction cs with
  | nil => cases hc
  | cons a cs ih =>
      have hfirst : surroundings (a :: cs ++ [d]) =
          (' ' :: (a.body.toList ++ [' '])) :: surroundings (cs ++ [d]) := by
        cases cs <;> rfl
      rw [hfirst]
      rcases List.mem_cons.mp hc with rfl | hc
      · exact List.mem_cons_self
      · exact List.mem_cons_of_mem _ (ih hc)

/-- The text of a limit has no marker. -/
theorem limitText_free {params : NBDBQueryParams} {body : String}
    (h : limitText params = some body) :
    '@' ∉ body.toList := by
  have hnumber : ∀ k : ℤ, '@' ∉ (toString k).toList := fun k hk => by
    rcases mem_toString hk with hk | hk
    · exact absurd hk (by decide)
    · exact absurd hk (by decide)
  have hoffset : '@' ∉ " offset ".toList := by decide
  have hmax : '@' ∉ "2147483647 offset ".toList := by decide
  unfold limitText at h
  split at h
  · cases h
    simp only [String.toList_append, List.mem_append, hnumber, hoffset, or_self, not_false_iff]
  · split at h
    · cases h
      simp only [String.toList_append, List.mem_append, hnumber, hmax, or_self, not_false_iff]
    · cases h

/-- The clauses of every page before its limit. -/
def pageClauses (params : NBDBUnionParams) : List Clause :=
  tailClauses (params.page 0 0).toNBDBQueryParams

theorem tailClauses_page (params : NBDBUnionParams) (offset count : ℤ) :
    tailClauses (params.page offset count).toNBDBQueryParams = pageClauses params ++
      (limitText (params.page offset count).toNBDBQueryParams).toList.map (Clause.mk "limit") := by
  have hwhole : limitText (params.page 0 0).toNBDBQueryParams = none := rfl
  unfold pageClauses tailClauses
  rw [hwhole]
  simp only [Option.toList_none, List.map_nil, List.append_nil, List.append_assoc]
  rfl

/-- One page without a marker: no page has one. -/
theorem Pageable.unmarked_page (h : Pageable T params) (offset count : ℤ) :
    Unmarked (params.page offset count).toNBDBQueryParams where
  columns := h.unmarked.columns
  tail s hs hocc := by
    obtain ⟨c, hc, hprefix⟩ := surroundings_prefix hs
    have hocc' : Occurs Char.toLower tableMarker (' ' :: (c.body.toList ++ [' '])) := by
      obtain ⟨t, ht⟩ := hprefix
      rw [← ht]
      exact hocc.append_right t
    rw [tailClauses_page] at hc
    rcases List.mem_append.mp hc with hc | hc
    · refine h.unmarked.tail _ ?_ hocc'
      have hone : limitText (params.page 0 1).toNBDBQueryParams =
          some (toString (1 : ℤ) ++ (" offset " ++ toString (0 : ℤ))) := if_pos Int.one_pos
      rw [tailClauses_page, hone]
      exact surroundings_front hc _
    · obtain ⟨body, hbody, rfl⟩ := List.mem_map.mp hc
      refine not_occurs_table (fun hat => ?_) hocc'
      have hfree := limitText_free (Option.mem_toList.mp hbody)
      rcases List.mem_cons.mp hat with hat | hat
      · exact absurd hat (by decide)
      · rcases List.mem_append.mp hat with hat | hat
        · exact hfree hat
        · exact absurd hat (by decide)

theorem issuedStatement_single (h : params.followTableClass = none) :
    issuedStatement R params = createSelectSQLWithParams R params.toNBDBQueryParams := by
  rw [issuedStatement, if_pos (by rw [h]; rfl)]

/-- The pages of a query have the same values. -/
theorem Pageable.issued (h : Pageable T params) (R : Runtime) :
    ∃ values, ∀ offset count, issuedStatement R (params.page offset count) =
      .ok (some (selectText T (params.page offset count).toNBDBQueryParams, values)) := by
  have hrun : ∀ offset count, ∃ values, createSelectSQLWithParams R
      (params.page offset count).toNBDBQueryParams =
        .ok (some (selectText T (params.page offset count).toNBDBQueryParams, values)) := by
    intro offset count
    rw [← replaceTableName_unmarked T (h.unmarked_page offset count)]
    exact createSelectSQLWithParams_clauses R h.table h.named h.conditioned
  -- the values are those of the condition, which the pages share
  have hvalues : ∀ offset count, createSelectSQLWithParams R
      (params.page offset count).toNBDBQueryParams = (do
        let result ← extractWhereSql R ("select " ++ (columnsString params.toNBDBQueryParams ++
          " from @t")) (queryCondition params.toNBDBQueryParams)
          params.usePrimaryKeyIfWhereIsNil none
        return some (replaceTableName (sqlString result.sql
          (params.page offset count).toNBDBQueryParams) T, result.values)) :=
    fun _ _ => createSelectSQLWithParams_eq R h.table h.named
  obtain ⟨values, hwhole⟩ := hrun 0 0
  obtain ⟨result, hresult, hwhole⟩ := Loop.of_bind_ok ((hvalues 0 0).symm.trans hwhole)
  refine ⟨result.values, fun offset count => ?_⟩
  obtain ⟨values', hpage⟩ := hrun offset count
  have hpage' := hvalues offset count
  rw [hresult] at hpage'
  have heq := Option.some.inj (Except.ok.inj (hpage'.symm.trans hpage))
  have hissued : issuedStatement R (params.page offset count) = _ :=
    issuedStatement_single h.single
  rw [hissued, hpage, ← (Prod.mk.inj heq).2]

/-! ### Reading row by row -/

/-- The rows of a result set, which a query that SQLite does not take has none of. -/
def rowsOf (set : Option FMResultSet) : List (List Value) := (set.map FMResultSet.rows).getD []

def columnNamesOf (set : Option FMResultSet) : List String :=
  (set.map FMResultSet.columnNames).getD []

/-- `readResult`, by the names of the columns and the rows. -/
def readRows (F : Foundation) (toClass : ResultClass) (oneColumn : Bool) (names : List String)
    (rows : List (List Value)) : Except Fault (List Element) :=
  if oneColumn then .ok ((rows.filterMap firstObject).map .value)
  else
    match toClass with
    | .dictionary => .ok (rows.map fun r => .dictionary (readDictionary names r))
    | .model modelClass => List.map .model <$> rows.mapM (readModel F modelClass names)
    | .other => .ok (rows.map fun r => ((firstObject r).map .value).getD .object)

theorem readResult_eq (F : Foundation) (toClass : ResultClass) (oneColumn : Bool)
    (set : Option FMResultSet) : readResult F toClass oneColumn set =
      readRows F toClass oneColumn (columnNamesOf set) (rowsOf set) := by
  cases set with
  | none => cases oneColumn <;> cases toClass <;> rfl
  | some set =>
      cases oneColumn with
      | true => rfl
      | false =>
          cases toClass with
          | dictionary => rfl
          | other => rfl
          | model modelClass =>
              show set.rows.mapM _ >>= _ = List.map Element.model <$> set.rows.mapM _
              rw [map_eq_pure_bind]
              rfl

/-- **Results are read row by row.** -/
theorem readRows_rowWise (F : Foundation) (toClass : ResultClass) (oneColumn : Bool)
    (names : List String) : RowWise (readRows F toClass oneColumn names) := by
  cases oneColumn with
  | true => exact .pure rfl fun xs ys => by rw [List.filterMap_append, List.map_append]
  | false =>
      cases toClass with
      | dictionary => exact .pure rfl fun _ _ => List.map_append
      | model modelClass => exact (RowWise.mapM _).map _
      | other => exact .pure rfl fun _ _ => List.map_append

/-! ### The pages of a query -/

theorem rowsOf_cut (set : Option FMResultSet) (offset count : ℕ) :
    rowsOf (set.map (FMResultSet.cut count offset)) = page offset count (rowsOf set) := by
  cases set with
  | none => rw [page, rowsOf, Option.map_none, rowsOf, Option.map_none]; simp
  | some set =>
      show limitRows count offset set.rows = page offset count set.rows
      rw [limitRows, if_neg (by omega), page, Int.toNat_natCast, Int.toNat_natCast]

theorem columnNamesOf_cut (set : Option FMResultSet) (n m : ℤ) :
    columnNamesOf (set.map (FMResultSet.cut n m)) = columnNamesOf set := by
  cases set <;> rfl

/-- The rows of a query, by names and rows. -/
theorem queryElements_rows {values : List Obj} {text : String}
    (h : issuedStatement R params = .ok (some (text, values))) :
    queryElements F R executeQuery toClass params db =
      readRows F toClass (decide (columnCount params = 1))
        (columnNamesOf (executeQuery text values db)) (rowsOf (executeQuery text values db)) := by
  rw [← readResult_eq, queryElements, queryBaseWithUnionParams, h]
  rfl

/-- **A page of a query** reads that page of its rows. -/
theorem Pageable.query_page (h : Pageable T params) (hcuts : CutsPages executeQuery T params db) :
    ∃ values names rows,
      rows = rowsOf (executeQuery (selectText T (params.page 0 0).toNBDBQueryParams) values db) ∧
      ∀ toClass,
        queryElements F R executeQuery toClass (params.page 0 0) db =
          readRows F toClass (decide (columnCount params = 1)) names rows ∧
        ∀ offset count : ℕ, 0 < count → count < 2 ^ 63 → offset < 2 ^ 63 →
          queryElements F R executeQuery toClass (params.page offset count) db =
            readRows F toClass (decide (columnCount params = 1)) names
              (page offset count rows) := by
  obtain ⟨values, hissued⟩ := h.issued R
  refine ⟨values, _, _, rfl, fun toClass => ⟨queryElements_rows (hissued 0 0), ?_⟩⟩
  intro offset count hcount hcountMax hoffsetMax
  rw [queryElements_rows (hissued offset count),
    hcuts values offset count hcount hcountMax hoffsetMax,
    columnNamesOf_cut, rowsOf_cut]
  rfl

/-- **A query is read page by page**: pages of any size that go past its end give, one after
another, what the query gives, and raise the exception that it raises. -/
theorem pages_query (F : Foundation) (R : Runtime) (toClass : ResultClass)
    (h : Pageable T params) (hcuts : CutsPages executeQuery T params db) {n N : ℕ} (hn : 0 < n)
    (hmax : n < 2 ^ 63 ∧ ∀ k < N, n * k < 2 ^ 63) (hN : ∀ values,
      (rowsOf (executeQuery (selectText T (params.page 0 0).toNBDBQueryParams) values db)).length ≤
        n * N) :
    List.flatten <$> (List.range N).mapM (fun k =>
        queryElements F R executeQuery toClass (params.page (n * k : ℕ) n) db) =
      queryElements F R executeQuery toClass (params.page 0 0) db := by
  obtain ⟨values, names, rows, hrows, hquery⟩ := h.query_page (F := F) (R := R) hcuts
  obtain ⟨hwhole, hpages⟩ := hquery toClass
  have hlength : rows.length ≤ n * N := hrows ▸ hN values
  rw [hwhole]
  refine (readRows_rowWise F toClass _ names).pages (fun k hk => ?_) hlength
  exact hpages (n * k) n hn hmax.1 (hmax.2 k hk)

/-! ### One object -/

/-- What is read of the first row, when all rows are read into models. -/
theorem readRows_first {cls : ModelClass} {names : List String} {rows : List (List Value)}
    {models : List Element} (h : readRows F (.model cls) false names rows = .ok models) :
    readRows F (.model cls) false names (page 0 1 rows) = .ok models.head?.toList := by
  cases rows with
  | nil =>
      cases h
      rfl
  | cons r rest =>
      rw [← List.singleton_append, (readRows_rowWise F (.model cls) false names).append] at h
      obtain ⟨first, hfirst, h⟩ := Loop.of_bind_ok h
      obtain ⟨others, -, h⟩ := Loop.of_bind_ok h
      obtain ⟨inst, rfl⟩ : ∃ inst, first = [.model inst] := by
        have hone : readRows F (.model cls) false names [r] =
            (do let inst ← readModel F cls names r; return [.model inst]) := by
          show List.map Element.model <$> List.mapM _ [r] = _
          rw [List.mapM_cons, List.mapM_nil]
          simp only [map_eq_pure_bind, bind_assoc, pure_bind, List.map_cons, List.map_nil]
        obtain ⟨inst, -, h⟩ := Loop.of_bind_ok (hone.symm.trans hfirst)
        exact ⟨inst, (Except.ok.inj h).symm⟩
      cases h
      exact hfirst

/-- The first object of a query, read as a page of one. -/
theorem firstOfQuery_page (h : Pageable T params) (hmany : columnCount params ≠ 1)
    (hcuts : CutsPages executeQuery T params db) {cls : ModelClass} {models : List Element}
    (hmodels : queryElements F R executeQuery (.model cls) (params.page 0 0) db = .ok models) :
    firstOfQuery F R executeQuery cls (params.page 0 1) db = .ok models.head? := by
  obtain ⟨values, names, rows, -, hquery⟩ := h.query_page (F := F) (R := R) hcuts
  obtain ⟨hwhole, hpages⟩ := hquery (.model cls)
  have hone := hpages 0 1 one_pos (by decide) (by decide)
  rw [decide_eq_false hmany] at hwhole hone
  have hfirst := hone.trans (readRows_first (hwhole.symm.trans hmodels))
  show (queryElements F R executeQuery (.model cls) (params.page (0 : ℕ) (1 : ℕ)) db >>= fun
    resultArray => pure resultArray.head?) = _
  rw [hfirst]
  cases models <;> rfl

/-- The class of a table may stand for its name. -/
theorem queryDataTableName_eq {modelClass : ModelClass} (hT : modelClass.getTableName = some T)
    (condition : Option Where) (orderBy : Option String) :
    queryDataTableName F R executeQuery modelClass T condition orderBy =
      queryData F R executeQuery modelClass condition orderBy := by
  have hname : ∀ args, mainTableName (queryTableName modelClass (some T) args).toNBDBQueryParams =
      some T := fun _ => rfl
  have hclass : ∀ args, mainTableName (queryTable modelClass none args).toNBDBQueryParams =
      some T := by
    intro args
    show ((none : Option String).or (modelClass.getTableName)).or modelClass.getTableName = some T
    rw [hT]
    rfl
  have hissued : ∀ args, issuedStatement R (queryTableName modelClass (some T) args) =
      issuedStatement R (queryTable modelClass none args) := by
    intro args
    rw [issuedStatement_single rfl, issuedStatement_single rfl, createSelectSQLWithParams,
      createSelectSQLWithParams, hname, hclass]
    rfl
  funext db
  unfold queryDataTableName queryData firstOfQuery queryElements queryBaseWithUnionParams
  rw [hissued]
  rfl

/-- **`queryData` returns the first object that the query returns**, and nil when it returns none,
by the class of a table or by its name. -/
theorem queryData_first {modelClass : ModelClass} {condition : Option Where}
    {orderBy : Option String} (hT : modelClass.getTableName = some T)
    (h : Pageable T (queryTable modelClass none { condition := condition, orderBy := orderBy }))
    (hcuts : CutsPages executeQuery T
      (queryTable modelClass none { condition := condition, orderBy := orderBy }) db)
    {models : List Element}
    (hmodels : queryElements F R executeQuery (.model modelClass)
      (queryTable modelClass none { condition := condition, orderBy := orderBy }) db =
        .ok models) :
    queryData F R executeQuery modelClass condition orderBy db = .ok models.head? ∧
      queryDataTableName F R executeQuery modelClass T condition orderBy db =
        .ok models.head? := by
  rw [queryDataTableName_eq hT]
  have hfirst : queryData F R executeQuery modelClass condition orderBy db = .ok models.head? :=
    firstOfQuery_page h Nat.zero_ne_one hcuts hmodels
  exact ⟨hfirst, hfirst⟩

/-! ### The demo's books -/

/-- Three books. -/
def threeBooks : FMResultSet where
  columnNames := ["_bookId", "_name"]
  rows := [[.text "7", .text "Dune"], [.text "8", .text "Emma"], [.text "9", .null]]
  rect := by decide

/-- SQLite on the books: all of them, or those of a limit. -/
def executePages (text : String) (_ : List Obj) (_ : Db) : Option FMResultSet :=
  if text = "select * from tb_books " then some threeBooks
  else (readLimit (String.ofList (text.toList.drop 29))).map fun l => threeBooks.cut l.1 l.2

def allBooks : NBDBUnionParams := queryTableName bookClass (some "tb_books") {}

theorem allBooks_pageable : Pageable "tb_books" allBooks where
  single := rfl
  table := rfl
  named := by decide
  conditioned := .inr rfl
  unmarked := ⟨by decide, by decide⟩

theorem executePages_cuts : CutsPages executePages "tb_books" allBooks fun _ => none := by
  intro values offset count hcount _ _
  have hwhole : selectText "tb_books" (allBooks.page 0 0).toNBDBQueryParams =
      "select * from tb_books " := by decide
  have hlimit : limitText (allBooks.page offset count).toNBDBQueryParams =
      some (toString (count : ℤ) ++ (" offset " ++ toString (offset : ℤ))) :=
    if_pos (Int.natCast_pos.mpr hcount)
  have hclauses : pageClauses allBooks = [] := rfl
  have hcolumns : columnsString (allBooks.page offset count).toNBDBQueryParams = "*" := rfl
  generalize hbody : toString (count : ℤ) ++ (" offset " ++ toString (offset : ℤ)) = body at hlimit
  have hread : readLimit body = some ((count : ℤ), (offset : ℤ)) := hbody ▸ readLimit_text _ _
  have hpage : selectText "tb_books" (allBooks.page offset count).toNBDBQueryParams =
      "select * from tb_books limit " ++ body := by
    have hhead : "select * from tb_books limit " =
        "select " ++ ("*" ++ (" from " ++ ("tb_books" ++ (" " ++ ("limit" ++ " "))))) := by decide
    rw [selectText, tailClauses_page, hclauses, hlimit, hcolumns, hhead]
    simp only [Option.toList_some, List.map_cons, List.map_nil, List.nil_append,
      String.intercalate_singleton, Clause.text, String.append_assoc]
  have hchars : ("select * from tb_books limit " ++ body).toList =
      "select * from tb_books limit ".toList ++ body.toList := String.toList_append
  have hdrop : String.ofList (("select * from tb_books limit ".toList ++ body.toList).drop 29) =
      body := String.ofList_toList
  rw [hwhole, hpage, executePages, if_neg ?_, hchars, hdrop, hread]
  · rfl
  · intro heq
    rw [← String.toList_inj, hchars] at heq
    exact absurd (congrArg List.length heq) (by simp)

/-- Two pages of two books are the three books. -/
theorem threeBooks_paged : List.flatten <$> (List.range 2).mapM (fun k =>
      queryElements demoFoundation demoRuntime executePages (.model bookClass)
        (allBooks.page (2 * k : ℕ) 2) fun _ => none) =
    queryElements demoFoundation demoRuntime executePages (.model bookClass) (allBooks.page 0 0)
      fun _ => none := by
  have hrows : ∀ values, (rowsOf (executePages (selectText "tb_books"
      (allBooks.page 0 0).toNBDBQueryParams) values fun _ => none)).length ≤ 2 * 2 := by
    intro values
    have hwhole : selectText "tb_books" (allBooks.page 0 0).toNBDBQueryParams =
        "select * from tb_books " := by decide
    have hset : executePages "select * from tb_books " values (fun _ => none) =
        some threeBooks := if_pos rfl
    rw [hwhole, hset]
    decide
  exact pages_query demoFoundation demoRuntime (.model bookClass) allBooks_pageable
    executePages_cuts two_pos (by decide) hrows

end NBDataBase
