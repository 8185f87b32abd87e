import NBDataBase.Orm.Sets
import NBDataBase.Orm.Where

/-!
# Orm — the two queries of a join

`query:table:followTableClass:…` and `query:tableName:followTableName:…` fill the parameters from
the same arguments; `queryBaseWithParams:` then takes the query of two tables when there is a
class of the second.

* `queryTableFollowTableClass`, `queryTableNameFollowTableName`, `issuedStatement`: from the
  source.
* `tableColumns_eq`: the columns of a table, each behind its name.
* `firstWord_replace`: putting the table in place of `@t` leaves the first word.
* `joinsAgree_iff`: the two queries agree exactly when the main table has no name, where neither
  builds a statement.
* `books_joined_by_name`: the query by names is one of the main table alone.
-/

namespace NBDataBase
open Sql

/-! ### The queries -/

/-- The arguments of a join behind its tables; none is nil. -/
structure JoinArguments where
  columns : Option Columns := none
  followColumns : Option Columns := none
  leftJoinColumns : Option Columns := none
  condition : Option Where := none
  followWhere : Option Where := none
  orderBy : Option String := none
  offset : ℤ := 0
  count : ℤ := 0

/-- The array that an argument is, if it is one. -/
def Columns.arrayArgument : Option Columns → List String
  | some (.array columns) => columns
  | _ => []

/-- The string that an argument is, if it is one. -/
def Columns.stringArgument : Option Columns → Option String
  | some (.string s) => some s
  | _ => none

def Where.dictionaryArgument : Option Where → Option (NSDictionary WhereValue)
  | some (.dictionary dic) => some dic
  | _ => none

def Where.stringArgument : Option Where → Option String
  | some (.string s) => some s
  | _ => none

/-- The parameters with the arguments filled in. -/
def JoinArguments.fill (args : JoinArguments) (params : NBDBUnionParams) : NBDBUnionParams :=
  { params with
    columnArray := Columns.arrayArgument args.columns
    columns := Columns.stringArgument args.columns
    followColumnsArray := Columns.arrayArgument args.followColumns
    followColumns := Columns.stringArgument args.followColumns
    leftJoinColumnsArray := Columns.arrayArgument args.leftJoinColumns
    leftJoinColumns := Columns.stringArgument args.leftJoinColumns
    whereDic := Where.dictionaryArgument args.condition
    condition := Where.stringArgument args.condition
    followWhereDic := Where.dictionaryArgument args.followWhere
    followWhere := Where.stringArgument args.followWhere
    orderBy := args.orderBy
    offset := args.offset
    count := args.count }

/-- The parameters of `query:table:followTableClass:…`. -/
def queryTableFollowTableClass (modelClass : ModelClass)
    (tableClass followTableClass : Option ModelClass) (args : JoinArguments) : NBDBUnionParams :=
  args.fill
    { toClass := some modelClass
      tableClass := tableClass.or (some modelClass)
      followTableClass := followTableClass }

/-- The parameters of `query:tableName:followTableName:…`. -/
def queryTableNameFollowTableName (modelClass : ModelClass)
    (tableName followTableName : Option String) (args : JoinArguments) : NBDBUnionParams :=
  args.fill
    { toClass := some modelClass
      tableName := tableName
      tableClass := if tableName.isSome then none else some modelClass
      followTableName := followTableName }

/-- The statement `queryBaseWithParams:` executes: that of two tables when there is a class of
the second. -/
def issuedStatement (R : Runtime) (params : NBDBUnionParams) :
    Except Fault (Option (String × List Obj)) :=
  if params.followTableClass.isNone then createSelectSQLWithParams R params.toNBDBQueryParams
  else pure (createUnionSelectSQLWithParams params)

/-- How many columns are named. -/
def columnCount (params : NBDBUnionParams) : ℕ :=
  (namedColumns params.columnArray params.columns).length +
    (namedColumns params.followColumnsArray params.followColumns).length

/-- `queryBaseWithParams:`, when the database is open; `run` executes a statement and reads its
rows into objects of the class, one column alone by `executeOneColumnResult:class:`. -/
def queryBaseWithUnionParams (R : Runtime) {Result : Type}
    (run : Option (String × List Obj) → Bool → Option ModelClass → Db → Result)
    (params : NBDBUnionParams) (db : Db) : Except Fault Result := do
  let statement ← issuedStatement R params
  return run statement (columnCount params = 1) params.toClass db

/-- The query by names and the query by classes issue the same statement with the same values
and return the same. -/
structure JoinsAgree (R : Runtime) (modelClass C F : ModelClass) (args : JoinArguments) :
    Prop where
  statement :
    issuedStatement R (queryTableNameFollowTableName modelClass C.getTableName F.getTableName
      args) = issuedStatement R (queryTableFollowTableClass modelClass (some C) (some F) args)
  result : ∀ {Result : Type}
    (run : Option (String × List Obj) → Bool → Option ModelClass → Db → Result) (db : Db),
    queryBaseWithUnionParams R run (queryTableNameFollowTableName modelClass C.getTableName
      F.getTableName args) db =
      queryBaseWithUnionParams R run (queryTableFollowTableClass modelClass (some C) (some F)
        args) db

/-! ### Texts -/

/-- The columns of a table, each behind the name of the table. -/
theorem tableColumns_eq (lead table : String) (cs : List String) :
    tableColumns lead table cs =
      String.intercalate ("," ++ lead) (cs.map fun c => table ++ ("." ++ c)) := by
  have key : ∀ (cs : List String) (k n : ℕ) (s : String), k + cs.length = n → k ≠ 0 →
      (cs.zipIdx k).foldl (fun s v => s ++ ((if v.2 = 0 then "" else lead) ++ (table ++ ("." ++
        (v.1 ++ if v.2 ≠ n - 1 then "," else ""))))) s =
        s ++ ((if cs = [] then "" else lead) ++
          String.intercalate ("," ++ lead) (cs.map fun c => table ++ ("." ++ c))) := by
    intro cs
    induction cs with
    | nil => intro k n s _ _; simp
    | cons c cs ih =>
        intro k n s hn hk
        rw [List.zipIdx_cons, List.foldl_cons, ih (k + 1) n _ (by simp at hn; omega) (by omega)]
        cases cs with
        | nil =>
            have hlast : k = n - 1 := by simp at hn; omega
            simp [hk, ← hlast]
        | cons d ds =>
            have hlast : k ≠ n - 1 := by simp at hn; omega
            simp [hk, hlast, String.append_assoc]
  unfold tableColumns
  cases cs with
  | nil => rfl
  | cons c cs =>
      rw [List.zipIdx_cons, List.foldl_cons, key cs _ _ _ (by simp; omega) (by simp)]
      cases cs with
      | nil => simp
      | cons d ds => simp [String.append_assoc]

/-- A text that may follow the name of the table in a query of one table. -/
def Continues (x : String) : Prop :=
  x = "" ∨ ∃ c d y, x.toList = ' ' :: c :: d :: y ∧ c ≠ ' ' ∧ (c = 'l' → d ≠ 'e')

theorem Continues.append {a b : String} (ha : Continues a) (hb : Continues b) :
    Continues (a ++ b) := by
  rcases ha with rfl | ⟨c, d, y, ha, hc⟩
  · simpa using hb
  · exact .inr ⟨c, d, y ++ b.toList, by rw [String.toList_append, ha]; rfl, hc⟩

theorem Continues.keyword {k : String} (hk : Continues k) (hne : k ≠ "") (y : String) :
    Continues (k ++ y) := by
  obtain rfl | ⟨c, d, z, hk, hc⟩ := hk
  · exact absurd rfl hne
  · exact .inr ⟨c, d, z ++ y.toList, by rw [String.toList_append, hk]; rfl, hc⟩

theorem continues_where : Continues " where " :=
  .inr ⟨'w', 'h', "ere ".toList, by decide, by decide, by decide⟩

/-- What `group by`, `order by`, `limit` and `offset` put behind a query. -/
theorem sqlString_eq (params : NBDBQueryParams) :
    ∃ tail, Continues tail ∧ ∀ sql, sqlString sql params = sql ++ tail := by
  have hgroup : Continues " group by " :=
    .inr ⟨'g', 'r', "oup by ".toList, by decide, by decide, by decide⟩
  have horder : Continues " order by " :=
    .inr ⟨'o', 'r', "der by ".toList, by decide, by decide, by decide⟩
  have hlimit : Continues " limit " :=
    .inr ⟨'l', 'i', "mit ".toList, by decide, by decide, by decide⟩
  have hoffset : Continues " limit 2147483647 offset " :=
    .inr ⟨'l', 'i', "mit 2147483647 offset ".toList, by decide, by decide, by decide⟩
  have hnone : Continues "" := .inl rfl
  refine ⟨(if checkIsEmpty params.groupBy then "" else " group by " ++ formatted params.groupBy) ++
    ((if checkIsEmpty params.orderBy then "" else " order by " ++ formatted params.orderBy) ++
      (if params.count > 0 then
        " limit " ++ (toString params.count ++ (" offset " ++ toString params.offset))
      else if params.offset > 0 then " limit 2147483647 offset " ++ toString params.offset
      else "")), .append ?_ (.append ?_ ?_), fun sql => ?_⟩
  · split
    · exact hnone
    · exact hgroup.keyword (by decide) _
  · split
    · exact hnone
    · exact horder.keyword (by decide) _
  · split
    · exact hlimit.keyword (by decide) _
    · split
      · exact hoffset.keyword (by decide) _
      · exact hnone
  · unfold sqlString
    split <;> split <;> split <;> (try split) <;> simp [String.append_assoc]

/-- A condition that is no empty dictionary gives a clause or nothing. -/
theorem extractWhereSql_continues (R : Runtime) {condition : Option Where}
    (h : ∀ dic, condition = some (.dictionary dic) → dic.entries.length > 0) :
    ∃ clause values, Continues clause ∧
      ∀ sql, extractWhereSql R sql condition false none = .ok ⟨sql ++ clause, values, false⟩ := by
  have hnone : ∀ sql : String, sql = sql ++ "" := fun sql => (String.append_empty).symm
  rcases condition with _ | (s | dic | _)
  · exact ⟨"", [], .inl rfl, fun sql => by rw [← hnone]; rfl⟩
  · unfold extractWhereSql
    by_cases hs : checkStringIsEmpty s
    · exact ⟨"", [], .inl rfl, fun sql => by simp only [hs, if_true]; rw [← hnone]; rfl⟩
    · exact ⟨" where " ++ s, [], continues_where.keyword (by decide) s, fun sql => by
        simp only [hs]
        rfl⟩
  · refine ⟨" where " ++ (dictionaryToSqlWhere dic).1, (dictionaryToSqlWhere dic).2,
      continues_where.keyword (by decide) _, fun sql => ?_⟩
    unfold extractWhereSql
    simp only [if_pos (h dic rfl)]
    rfl
  · exact ⟨"", [], .inl rfl, fun sql => by rw [← hnone]; rfl⟩

/-- The columns in a query of one table. -/
def selectedColumns (params : NBDBQueryParams) : String :=
  if namedColumns params.columnArray params.columns = [] then "*"
  else String.intercalate "," (namedColumns params.columnArray params.columns)

theorem components_ne_nil (s : String) : componentsSeparatedByComma s ≠ [] := by
  simp [componentsSeparatedByComma]

/-- The text of a query of one table. -/
theorem createSelectSQLWithParams_text (R : Runtime) {params : NBDBQueryParams} {M : String}
    (hM : mainTableName params = some M) (hblank : checkStringIsEmpty M = false)
    (huse : params.usePrimaryKeyIfWhereIsNil = false) :
    ∃ clause values, Continues clause ∧ createSelectSQLWithParams R params =
      .ok (some (replaceTableName (sqlString ("select " ++ (selectedColumns params ++
        " from @t") ++ clause) params) M, values)) := by
  have hcolumns : columnsString params = selectedColumns params := by
    unfold columnsString selectedColumns namedColumns
    by_cases harray : params.columnArray.length > 0
    · rw [if_pos harray, if_pos harray, if_neg (List.length_pos_iff.mp harray)]
    · rw [if_neg harray, if_neg harray]
      by_cases hempty : checkIsEmpty params.columns
      · simp [hempty]
      · simp only [hempty, Bool.false_eq_true, if_false, if_neg (components_ne_nil _),
          intercalate_components]
  obtain ⟨clause, values, hclause, hrun⟩ :=
    extractWhereSql_continues R fun _ hdic => (queryCondition_dictionary hdic).2
  refine ⟨clause, values, hclause, ?_⟩
  rw [createSelectSQLWithParams_eq R hM hblank, huse, hrun, hcolumns]
  rfl

/-- The text of a query of two tables. -/
theorem createUnionSelectSQLWithParams_text {params : NBDBUnionParams} {M : String}
    (hM : mainTableName params.toNBDBQueryParams = some M)
    (hblank : checkStringIsEmpty M = false) :
    ∃ rest values, createUnionSelectSQLWithParams params =
      some (replaceTableName ("select " ++ (unionColumns M (formatted (params.followTableName.or
        (params.followTableClass.bind ModelClass.getTableName))) params ++
          (" from @t left join " ++ rest))) M, values) := by
  obtain ⟨tail, -, htail⟩ := sqlString_eq params.toNBDBQueryParams
  unfold createUnionSelectSQLWithParams
  simp only [hM, hblank, htail, String.append_assoc]
  exact ⟨_, _, rfl⟩

/-! ### The first word -/

/-- What stands before the first blank. -/
def firstWord (x : List Char) : List Char := x.takeWhile (· ≠ ' ')

/-- The table in place of `@t`. -/
abbrev replaceTable (T : String) (x : List Char) : List Char :=
  replaceOccurrences " @t ".toList (" " ++ (T ++ " ")).toList 0 x

theorem replaceTable_cons {T : String} {c : Char} (hc : c ≠ ' ') (x : List Char) :
    replaceTable T (c :: x) = c :: replaceTable T x := by
  rw [replaceTable, replaceOccurrences, if_neg]
  rintro ⟨-, y, hy⟩
  have hlow : ' ' = c.toLower := (List.cons.inj hy).1
  exact hc (toLower_eq (d := ' ') (by decide) hlow.symm)

/-- A blank is left, or starts what is put in place of `@t`. -/
theorem replaceTable_blank (T : String) (x : List Char) :
    (∃ y, replaceTable T (' ' :: x) = ' ' :: (T.toList ++ ' ' :: y) ∧
      "@t ".toList <+: x.map Char.toLower) ∨
      replaceTable T (' ' :: x) = ' ' :: replaceTable T x := by
  have htable : (" " ++ (T ++ " ")).toList = ' ' :: (T.toList ++ [' ']) := by
    rw [String.toList_append, String.toList_append]
    rfl
  rw [replaceTable, replaceOccurrences]
  split
  · rename_i h
    obtain ⟨-, y, hy⟩ := h
    refine .inl ⟨replaceOccurrences " @t ".toList (" " ++ (T ++ " ")).toList 3 x, ?_, y,
      (List.cons.inj hy).2⟩
    rw [htable, List.cons_append, List.append_assoc]
    rfl
  · exact .inr rfl

/-- The first character stays. -/
theorem head_replaceTable (T : String) (x : List Char) : (replaceTable T x).head? = x.head? := by
  cases x with
  | nil => rfl
  | cons c cs =>
      by_cases hc : c = ' '
      · subst hc
        rcases replaceTable_blank T cs with ⟨y, hy, -⟩ | hy
        · rw [hy]
          rfl
        · rw [hy]
          rfl
      · rw [replaceTable_cons hc]
        rfl

theorem firstWord_cons {c : Char} (hc : c ≠ ' ') (x : List Char) :
    firstWord (c :: x) = c :: firstWord x :=
  List.takeWhile_cons_of_pos (p := fun c => decide (c ≠ ' ')) (by simpa using hc)

/-- Putting the table in place of `@t` leaves the first word. -/
theorem firstWord_replace (T : String) (x : List Char) :
    firstWord (replaceTable T x) = firstWord x := by
  induction x with
  | nil => rfl
  | cons c cs ih =>
      by_cases hc : c = ' '
      · subst hc
        rcases replaceTable_blank T cs with ⟨y, hy, -⟩ | hy
        · rw [hy]
          rfl
        · rw [hy]
          rfl
      · rw [replaceTable_cons hc, firstWord_cons hc, firstWord_cons hc, ih]

/-- A longer first word stays longer behind the same text. -/
theorem firstWord_append_mono (x : List Char) {a b : List Char}
    (h : (firstWord a).length ≤ (firstWord b).length) :
    (firstWord (x ++ a)).length ≤ (firstWord (x ++ b)).length := by
  induction x with
  | nil => exact h
  | cons c cs ih =>
      by_cases hc : c = ' '
      · simp [firstWord, hc]
      · rw [List.cons_append, List.cons_append, firstWord_cons hc, firstWord_cons hc]
        exact Nat.succ_le_succ ih

theorem firstWord_append_le (a b : List Char) :
    (firstWord a).length ≤ (firstWord (a ++ b)).length := by
  have h := firstWord_append_mono a (a := []) (b := b) (Nat.zero_le _)
  rwa [List.append_nil] at h

theorem firstWord_blank (a b : List Char) : firstWord (a ++ ' ' :: b) = firstWord a := by
  induction a with
  | nil => rfl
  | cons c cs ih =>
      by_cases hc : c = ' '
      · simp [firstWord, hc]
      · rw [List.cons_append, firstWord_cons hc, firstWord_cons hc, ih]

/-- Before the first blank there is none. -/
theorem firstWord_whole {a : List Char} (h : ' ' ∉ a) (b : List Char) :
    firstWord (a ++ b) = a ++ firstWord b := by
  induction a with
  | nil => rfl
  | cons c cs ih =>
      obtain ⟨hc, hcs⟩ := not_or.mp fun e => h (List.mem_cons.mpr e)
      rw [List.cons_append, firstWord_cons fun e => hc e.symm, ih hcs]
      rfl

/-- The name of the table before each column makes the first word longer. -/
theorem firstWord_tableColumns {M : String} (hM : ' ' ∉ M.toList) {cs : List String}
    (hne : cs ≠ []) :
    (firstWord (String.intercalate "," cs).toList).length + M.length <
      (firstWord (String.intercalate "," (cs.map fun c => M ++ ("." ++ c))).toList).length := by
  have hlead : ∀ x : List Char, firstWord ((M ++ ".").toList ++ x) =
      (M ++ ".").toList ++ firstWord x := by
    refine fun x => firstWord_whole (fun h => ?_) x
    rw [String.toList_append, List.mem_append] at h
    exact h.elim hM (by decide)
  have hlen : (M ++ ".").toList.length = M.length + 1 := by
    rw [String.length_toList, String.length_append]
    rfl
  induction cs with
  | nil => exact absurd rfl hne
  | cons c cs ih =>
      cases cs with
      | nil =>
          have hone : (M ++ ("." ++ c)).toList = (M ++ ".").toList ++ c.toList := by
            rw [← String.append_assoc, String.toList_append]
          simp only [List.map_cons, List.map_nil, String.intercalate_singleton, hone, hlead,
            List.length_append, hlen]
          omega
      | cons d ds =>
          have ih := ih (by simp)
          have hmore : (M ++ ("." ++ c) ++ "," ++ String.intercalate ","
              ((d :: ds).map fun c => M ++ ("." ++ c))).toList =
              (M ++ ".").toList ++ ((c ++ ",").toList ++ (String.intercalate ","
                ((d :: ds).map fun c => M ++ ("." ++ c))).toList) := by
            simp only [← String.toList_append, String.append_assoc]
          have hmono := firstWord_append_mono (c ++ ",").toList
            (Nat.le_of_lt (Nat.lt_of_le_of_lt (Nat.le_add_right _ _) ih))
          rw [← String.toList_append] at hmono
          rw [List.map_cons] at hmore hmono
          rw [List.map_cons, List.map_cons, String.intercalate_cons_cons,
            String.intercalate_cons_cons, hmore, hlead, List.length_append, hlen]
          omega

/-! ### Two texts -/

/-- The text after `select`. -/
theorem replaceTableName_select (x M : String) : ∃ post : List Char,
    (post = [] ∧ ¬ " @t".toList <:+ ("select " ++ x).toList ∨
      post = [' '] ∧ " @t".toList <:+ ("select " ++ x).toList) ∧
    (replaceTableName ("select " ++ x) M).toList =
      "select".toList ++ replaceTable M (' ' :: (x.toList ++ post)) := by
  have hselect : ∀ y : List Char, replaceTable M ("select".toList ++ y) =
      "select".toList ++ replaceTable M y := by
    intro y
    show replaceTable M ('s' :: 'e' :: 'l' :: 'e' :: 'c' :: 't' :: y) = _
    simp only [replaceTable_cons (T := M) (c := 's') (by decide),
      replaceTable_cons (T := M) (c := 'e') (by decide),
      replaceTable_cons (T := M) (c := 'l') (by decide),
      replaceTable_cons (T := M) (c := 'c') (by decide),
      replaceTable_cons (T := M) (c := 't') (by decide)]
    rfl
  have hchars : ("select " ++ x).toList = "select".toList ++ ' ' :: x.toList := by
    rw [String.toList_append]
    rfl
  by_cases hend : " @t".toList <:+ ("select " ++ x).toList
  · refine ⟨[' '], .inr ⟨rfl, hend⟩, ?_⟩
    have hall : ("select " ++ x ++ " ").toList =
        "select".toList ++ ' ' :: (x.toList ++ [' ']) := by
      rw [String.toList_append, hchars]
      simp
    rw [replaceTableName, if_pos hend, String.toList_ofList, hall]
    exact hselect _
  · refine ⟨[], .inl ⟨rfl, hend⟩, ?_⟩
    rw [replaceTableName, if_neg hend, String.toList_ofList, hchars, List.append_nil]
    exact hselect _

/-- The columns of both tables start with those of the main one; without any, with those of the
other. -/
theorem unionColumns_cases (M F : String) (params : NBDBUnionParams) :
    (∃ rest, namedColumns params.columnArray params.columns ≠ [] ∧ unionColumns M F params =
      String.intercalate "," ((namedColumns params.columnArray params.columns).map
        fun c => M ++ ("." ++ c)) ++ rest) ∨
    (∃ rest, namedColumns params.columnArray params.columns = [] ∧
      unionColumns M F params = F ++ ("." ++ rest)) ∨
    namedColumns params.columnArray params.columns = [] ∧ unionColumns M F params = "*" := by
  unfold unionColumns
  simp only [tableColumns_eq]
  generalize namedColumns params.columnArray params.columns = cs
  generalize namedColumns params.followColumnsArray params.followColumns = fs
  have hdot : ∀ x y : String, x ++ ("." ++ y) ≠ "" := fun x y =>
    append_ne_right (append_ne_left (by decide))
  by_cases hcs : cs = []
  · subst hcs
    cases fs with
    | nil => exact .inr (.inr ⟨rfl, rfl⟩)
    | cons f fs =>
        refine .inr (.inl ?_)
        have hcolumns : ∃ rest, String.intercalate ("," ++ " ")
            ((f :: fs).map fun c => F ++ ("." ++ c)) = F ++ ("." ++ rest) := by
          cases fs with
          | nil => exact ⟨f, by simp⟩
          | cons g gs =>
              rw [List.map_cons, List.map_cons, String.intercalate_cons_cons]
              simp only [String.append_assoc]
              exact ⟨_, rfl⟩
        obtain ⟨rest, hrest⟩ := hcolumns
        have hlen : ¬ (F ++ ("." ++ rest)).length < 1 := by
          rw [Nat.lt_one_iff, String.length_eq_zero_iff]
          exact hdot F rest
        have hmain : String.intercalate ("," ++ "") (([] : List String).map
            fun c => M ++ ("." ++ c)) = "" := rfl
        refine ⟨rest, rfl, ?_⟩
        rw [hmain, if_neg (c := _ ∧ _) (by simp), String.empty_append, String.empty_append, hrest,
          if_neg hlen]
  · have hne : ∀ rest, ¬ (String.intercalate "," (cs.map fun c => M ++ ("." ++ c)) ++
        rest).length < 1 := by
      intro rest
      rw [Nat.lt_one_iff, String.length_eq_zero_iff]
      refine append_ne_left (intercalate_ne (by simpa using hcs) fun x hx => ?_)
      obtain ⟨c, -, rfl⟩ := List.mem_map.mp hx
      exact hdot M c
    rw [String.append_empty]
    exact .inl ⟨_, hcs, if_neg (hne _)⟩

/-- The text of a query of two tables does not start like that of a query of one: the columns of
the main table stand behind its name. -/
theorem columns_ne {M : String} (hword : Word M) {cs : List String} (hne : cs ≠ [])
    (x y : List Char) :
    replaceTable M (' ' :: ((String.intercalate "," cs).toList ++ ' ' :: x)) ≠
      replaceTable M (' ' :: ((String.intercalate "," (cs.map fun c => M ++ ("." ++ c))).toList ++
        y)) := by
  have hblank : ' ' ∉ M.toList := fun h => absurd (hword.2 ' ' h) (by decide)
  have hlonger := firstWord_tableColumns hblank hne
  have happend := firstWord_append_le
    (String.intercalate "," (cs.map fun c => M ++ ("." ++ c))).toList y
  -- the union text starts with the main table, not with `@t`
  have hunion : replaceTable M (' ' :: ((String.intercalate "," (cs.map fun c =>
      M ++ ("." ++ c))).toList ++ y)) =
      ' ' :: replaceTable M ((String.intercalate "," (cs.map fun c =>
        M ++ ("." ++ c))).toList ++ y) := by
    rcases replaceTable_blank M ((String.intercalate "," (cs.map fun c =>
      M ++ ("." ++ c))).toList ++ y) with ⟨z, -, w, hw⟩ | h
    · obtain ⟨c, cs, rfl⟩ := List.exists_cons_of_ne_nil hne
      obtain ⟨d, ds, hd⟩ := List.exists_cons_of_ne_nil
        fun e => hword.1 (String.toList_eq_nil_iff.mp e)
      have hstart : ∃ z, (String.intercalate "," ((c :: cs).map fun c =>
          M ++ ("." ++ c))).toList ++ y = d :: z := by
        cases cs with
        | nil => simp [String.toList_append, hd]
        | cons c' cs => simp [String.intercalate_cons_cons, String.toList_append, hd]
      obtain ⟨z, hz⟩ := hstart
      rw [hz] at hw
      have hat : d = '@' := toLower_eq (d := '@') (by decide) (List.cons.inj hw).1.symm
      have hdM : d ∈ M.toList := by rw [hd]; exact List.mem_cons_self
      exact absurd (hword.2 d hdM) (by rw [hat]; decide)
    · exact h
  intro heq
  rw [hunion] at heq
  rcases replaceTable_blank M ((String.intercalate "," cs).toList ++ ' ' :: x) with
    ⟨z, hz, -⟩ | hz
  · rw [hz] at heq
    have hfirst := congrArg firstWord (List.cons.inj heq).2
    rw [firstWord_replace, firstWord_blank] at hfirst
    have hM : (firstWord M.toList).length ≤ M.length := by
      rw [← String.length_toList]
      exact (List.takeWhile_sublist _).length_le
    rw [← hfirst] at happend
    omega
  · rw [hz] at heq
    have hfirst := congrArg firstWord (List.cons.inj heq).2
    rw [firstWord_replace, firstWord_replace, firstWord_blank] at hfirst
    rw [← hfirst] at happend
    omega

/-- All columns of one table are no column of the other. -/
theorem star_ne {M F : String} (hword : Word M) (hF : ∀ c ∈ F.toList.head?, c ≠ '*')
    (x y : List Char) :
    replaceTable M (' ' :: '*' :: x) ≠ replaceTable M (' ' :: (F.toList ++ '.' :: y)) := by
  have hstar : replaceTable M (' ' :: '*' :: x) = ' ' :: '*' :: replaceTable M x := by
    rcases replaceTable_blank M ('*' :: x) with ⟨z, -, w, hw⟩ | h
    · exact absurd (List.cons.inj hw).1 (by decide)
    · rw [h, replaceTable_cons (by decide)]
  intro heq
  rw [hstar] at heq
  rcases replaceTable_blank M (F.toList ++ '.' :: y) with ⟨z, hz, -⟩ | hz
  · rw [hz] at heq
    obtain ⟨d, ds, hd⟩ := List.exists_cons_of_ne_nil
      fun e => hword.1 (String.toList_eq_nil_iff.mp e)
    rw [hd] at heq
    have hdM : d ∈ M.toList := by rw [hd]; exact List.mem_cons_self
    have hdstar : '*' = d := (List.cons.inj (List.cons.inj heq).2).1
    exact absurd (hword.2 d hdM) (by rw [← hdstar]; decide)
  · rw [hz] at heq
    have hhead := congrArg List.head? (List.cons.inj heq).2
    rw [head_replaceTable] at hhead
    cases hchars : F.toList with
    | nil => rw [hchars] at hhead; exact absurd (Option.some.inj hhead) (by decide)
    | cons d ds =>
        rw [hchars] at hhead hF
        exact hF d rfl (Option.some.inj hhead).symm

/-- Behind the table stands what continues the query, not a second table. -/
theorem continued_ne {M x : String} (hx : Continues x) {post : List Char}
    (hpost : x = "" → post = [' ']) (y : List Char) :
    replaceTable M (' ' :: ("* from @t".toList ++ (x.toList ++ post))) ≠
      replaceTable M (' ' :: ("* from @t".toList ++ (" left join ".toList ++ y))) := by
  have hrun : ∀ cs : List Char,
      replaceTable M (' ' :: ("* from @t".toList ++ ' ' :: cs)) =
        " * from".toList ++ ((" " ++ (M ++ " ")).toList ++ replaceTable M cs) := fun _ => rfl
  intro heq
  have hleft : replaceTable M (' ' :: ("* from @t".toList ++ (" left join ".toList ++ y))) =
      " * from".toList ++ ((" " ++ (M ++ " ")).toList ++
        'l' :: 'e' :: replaceTable M ("ft join ".toList ++ y)) := by
    rw [← replaceTable_cons (c := 'e') (by decide), ← replaceTable_cons (c := 'l') (by decide)]
    exact hrun _
  rw [hleft] at heq
  obtain rfl | ⟨c, d, z, hz, hc, hcd⟩ := hx
  · rw [hpost rfl] at heq
    have hblank : ("" : String).toList ++ [' '] = ' ' :: [] := rfl
    rw [hblank, hrun, List.append_cancel_left_eq, List.append_cancel_left_eq] at heq
    cases heq
  · rw [hz, List.cons_append, hrun, List.append_cancel_left_eq, List.append_cancel_left_eq,
      List.cons_append, List.cons_append, replaceTable_cons hc] at heq
    obtain ⟨hl, hrest⟩ := List.cons.inj heq
    have hhead := congrArg List.head? hrest
    rw [head_replaceTable] at hhead
    exact hcd hl (Option.some.inj hhead)

/-- **A query of one table and a query of two** never have the same text. -/
theorem select_ne_union {R : Runtime} {params : NBDBQueryParams} {union : NBDBUnionParams}
    {M : String} (hM : mainTableName params = some M)
    (hM' : mainTableName union.toNBDBQueryParams = some M) (hword : Word M)
    (hblank : checkStringIsEmpty M = false) (huse : params.usePrimaryKeyIfWhereIsNil = false)
    (hcolumns : namedColumns params.columnArray params.columns =
      namedColumns union.columnArray union.columns)
    (hF : ∀ c ∈ (formatted (union.followTableName.or
      (union.followTableClass.bind ModelClass.getTableName))).toList.head?, c ≠ '*') :
    createSelectSQLWithParams R params ≠ .ok (createUnionSelectSQLWithParams union) := by
  obtain ⟨clause, values, hclause, hselect⟩ := createSelectSQLWithParams_text R hM hblank huse
  obtain ⟨rest, values', hunion⟩ := createUnionSelectSQLWithParams_text hM' hblank
  obtain ⟨tail, htail, hsql⟩ := sqlString_eq params
  rw [hselect, hunion, hsql]
  intro h
  have h := congrArg String.toList (Prod.mk.inj (Option.some.inj (Except.ok.inj h))).1
  simp only [String.append_assoc] at h
  obtain ⟨post, hpost, hleft⟩ := replaceTableName_select
    (selectedColumns params ++ (" from @t" ++ (clause ++ tail))) M
  obtain ⟨post', -, hright⟩ := replaceTableName_select (unionColumns M (formatted
    (union.followTableName.or (union.followTableClass.bind ModelClass.getTableName))) union ++
      (" from @t left join " ++ rest)) M
  rw [hleft, hright, List.append_cancel_left_eq] at h
  rw [selectedColumns, hcolumns] at h hpost
  rcases unionColumns_cases M (formatted (union.followTableName.or
    (union.followTableClass.bind ModelClass.getTableName))) union with
    ⟨more, hne, heq⟩ | ⟨more, hnil, heq⟩ | ⟨hnil, heq⟩
  · rw [if_neg hne, heq] at h
    simp only [String.toList_append, List.append_assoc] at h
    exact columns_ne hword hne _ _ h
  · rw [if_pos hnil, heq] at h
    simp only [String.toList_append, List.append_assoc] at h
    exact star_ne hword hF _ _ h
  · rw [if_pos hnil] at hpost
    rw [if_pos hnil, heq] at h
    have hended : clause ++ tail = "" → post = [' '] := by
      intro hempty
      rcases hpost with ⟨-, hnot⟩ | ⟨hpost, -⟩
      · rw [hempty] at hnot
        exact absurd (by decide) hnot
      · exact hpost
    have hchars : ∀ y : String, ("*" ++ (" from @t" ++ y)).toList =
        "* from @t".toList ++ y.toList := by
      intro y
      rw [← String.append_assoc, String.toList_append]
      rfl
    have hjoin : ∀ y : String, (" from @t left join " ++ y).toList =
        " from @t".toList ++ (" left join ".toList ++ y.toList) := by
      intro y
      rw [String.toList_append]
      rfl
    rw [hchars, String.toList_append (s := "*"), hjoin] at h
    simp only [List.append_assoc] at h
    exact continued_ne (hclause.append htail) hended _ h

/-! ### Agreement -/

/-- The main table of both queries. -/
def joinedTable (modelClass C : ModelClass) : Option String :=
  C.getTableName.or modelClass.getTableName

/-- The classes name their tables by words, if they name them. -/
def NamesTable (cls : ModelClass) : Prop :=
  ∀ T, cls.getTableName = some T → Word T ∨ checkStringIsEmpty T = true

variable {R : Runtime} {modelClass C F : ModelClass} {args : JoinArguments}

theorem mainTableName_byClass :
    mainTableName (queryTableFollowTableClass modelClass (some C) (some F)
      args).toNBDBQueryParams = joinedTable modelClass C := rfl

theorem mainTableName_byName :
    mainTableName (queryTableNameFollowTableName modelClass C.getTableName F.getTableName
      args).toNBDBQueryParams = joinedTable modelClass C := by
  show (C.getTableName.or ((if C.getTableName.isSome then none else some modelClass).bind
    ModelClass.getTableName)).or ((some modelClass).bind ModelClass.getTableName) = _
  cases hC : C.getTableName with
  | none => simp [joinedTable, hC]
  | some T => simp [joinedTable, hC]

/-- Without the name of a table neither query has a statement. -/
theorem createSelectSQLWithParams_unnamed {params : NBDBQueryParams}
    (h : checkIsEmpty (mainTableName params) = true) :
    createSelectSQLWithParams R params = .ok none := by
  unfold createSelectSQLWithParams
  cases hM : mainTableName params with
  | none => rfl
  | some M =>
      rw [hM] at h
      exact if_pos h

theorem createUnionSelectSQLWithParams_unnamed {params : NBDBUnionParams}
    (h : checkIsEmpty (mainTableName params.toNBDBQueryParams) = true) :
    createUnionSelectSQLWithParams params = none := by
  unfold createUnionSelectSQLWithParams
  cases hM : mainTableName params.toNBDBQueryParams with
  | none => rfl
  | some M =>
      rw [hM] at h
      exact if_pos h

/-- What comes before the columns of the second table is no star. -/
theorem followTable_head (hF : NamesTable F) :
    ∀ c ∈ (formatted F.getTableName).toList.head?, c ≠ '*' := by
  intro c hc hstar
  subst hstar
  cases hname : F.getTableName with
  | none =>
      rw [hname] at hc
      exact absurd (Option.some.inj hc) (by decide)
  | some T =>
      rw [hname] at hc
      have hmem : '*' ∈ T.toList := List.mem_of_mem_head? hc
      rcases hF T hname with hword | hblank
      · exact absurd (hword.2 '*' hmem) (by decide)
      · exact absurd (List.all_eq_true.mp hblank '*' hmem) (by decide)

/-- Queries with one statement return the same. -/
theorem JoinsAgree.of_statement
    (h : issuedStatement R (queryTableNameFollowTableName modelClass C.getTableName
      F.getTableName args) =
      issuedStatement R (queryTableFollowTableClass modelClass (some C) (some F) args)) :
    JoinsAgree R modelClass C F args where
  statement := h
  result run db := by
    unfold queryBaseWithUnionParams
    rw [h]
    rfl

/-- **The two queries of a join agree** exactly when the main table has no name. -/
theorem joinsAgree_iff (R : Runtime) (modelClass C F : ModelClass) (args : JoinArguments)
    (hmodel : NamesTable modelClass) (hC : NamesTable C) (hF : NamesTable F) :
    JoinsAgree R modelClass C F args ↔ checkIsEmpty (joinedTable modelClass C) = true := by
  constructor
  · intro h
    by_contra hempty
    rw [Bool.not_eq_true] at hempty
    obtain ⟨M, hM⟩ : ∃ M, joinedTable modelClass C = some M := by
      cases hM : joinedTable modelClass C with
      | none => rw [hM] at hempty; cases hempty
      | some M => exact ⟨M, rfl⟩
    rw [hM] at hempty
    have hword : Word M := by
      have hnamed : Word M ∨ checkStringIsEmpty M = true := by
        rcases Option.or_eq_some_iff.mp hM with h | ⟨-, h⟩
        · exact hC M h
        · exact hmodel M h
      exact hnamed.resolve_right fun hblank => by
        rw [show checkStringIsEmpty M = false from hempty] at hblank
        cases hblank
    exact select_ne_union (mainTableName_byName.trans hM) (mainTableName_byClass.trans hM) hword
      hempty rfl rfl (followTable_head hF) h.statement
  · intro hempty
    have hname : createSelectSQLWithParams R (queryTableNameFollowTableName modelClass
        C.getTableName F.getTableName args).toNBDBQueryParams = .ok none :=
      createSelectSQLWithParams_unnamed (by rwa [mainTableName_byName])
    have hclass : createUnionSelectSQLWithParams
        (queryTableFollowTableClass modelClass (some C) (some F) args) = none :=
      createUnionSelectSQLWithParams_unnamed (by rwa [mainTableName_byClass])
    refine .of_statement ?_
    show createSelectSQLWithParams R _ = pure (createUnionSelectSQLWithParams _)
    rw [hname, hclass]
    rfl

/-- A class without a table. -/
def detachedClass : ModelClass where
  chain := [{ name := "NBBaseDBTableModel", properties := [], ivars := [] }]
  getTableName := none
  ivar_word := by decide

/-- Without a table neither query does anything. -/
theorem detached_joins_agree : JoinsAgree demoRuntime detachedClass detachedClass bookClass {} :=
  (joinsAgree_iff demoRuntime detachedClass detachedClass bookClass {} (fun T h => by cases h)
    (fun T h => by cases h) (fun T h => by cases h; exact .inl (by decide))).mpr rfl

/-- Books joined to books by the name of the table are the books alone. -/
theorem books_joined_by_name :
    ¬ JoinsAgree demoRuntime bookClass bookClass bookClass
      { leftJoinColumns := some (.string "_bookId") } := by
  intro h
  have hsql := h.statement
  revert hsql
  decide +kernel

end NBDataBase
