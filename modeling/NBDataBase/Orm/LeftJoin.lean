import NBDataBase.Orm.JoinQueries
import NBDataBase.Sql.Join

/-!
# Orm — left joins under dictionaries

Whether `createUnionSelectSQLWithParams` keeps each condition on its own table.

* `LeftJoin`: what a query of two tables asks for.  `LeftJoin.Asked`: parameters that ask for it,
  their dictionaries in any order.
* `LeftJoin.rows`: the main table with the rows of the other that agree on the join columns and of
  which the second dictionary holds, where the first one holds of the main row.
* `LeftJoin.Kept`: every statement the builder makes of it is well formed, and on every two tables
  selects these rows.
* `OneSpeaks`: a dictionary without entries, or with one that is no empty array.
* `LeftJoin.kept_iff`: the query is kept exactly when both dictionaries are such, the tables differ
  and SQLite takes the values.  Only the first key of a clause is qualified.
-/

namespace NBDataBase
open Sql

/-- A query of two tables. -/
structure LeftJoin where
  main : String
  follow : String
  columns : List String
  followColumns : List String
  joinColumns : List String
  followWhere : NSDictionary WhereValue
  conds : NSDictionary WhereValue

/-- The dictionary of an argument, in some order; a blank string asks for nothing. -/
def Gives (dic : Option (NSDictionary WhereValue)) (condition : Option String)
    (given : NSDictionary WhereValue) : Prop :=
  dic.elim (checkIsEmpty condition = true ∧ given.entries = []) fun dic =>
    dic.entries.Perm given.entries

namespace LeftJoin

/-- The parameters ask for the query, and for nothing else. -/
structure Asked (q : LeftJoin) (params : NBDBUnionParams) : Prop where
  main : mainTableName params.toNBDBQueryParams = some q.main
  follow : params.followTableName.or (params.followTableClass.bind ModelClass.getTableName) =
    some q.follow
  columns : namedColumns params.columnArray params.columns = q.columns
  followColumns : namedColumns params.followColumnsArray params.followColumns = q.followColumns
  joinColumns : namedColumns params.leftJoinColumnsArray params.leftJoinColumns = q.joinColumns
  followWhere : Gives params.followWhereDic params.followWhere q.followWhere
  conds : Gives params.whereDic params.condition q.conds
  groupBy : checkIsEmpty params.groupBy = true
  orderBy : checkIsEmpty params.orderBy = true
  count : params.count ≤ 0
  offset : params.offset ≤ 0

/-- The tables and the columns are names, and some columns are joined. -/
structure Proper (q : LeftJoin) : Prop where
  main : Name q.main
  follow : Name q.follow
  columns : ∀ c ∈ q.columns, Name c
  followColumns : ∀ c ∈ q.followColumns, Name c
  joinColumns : ∀ c ∈ q.joinColumns, Name c
  joined : q.joinColumns ≠ []
  followWhere : ∀ e ∈ q.followWhere.entries, Name e.1
  conds : ∀ e ∈ q.conds.entries, Name e.1

/-- The tables have the columns that the query names. -/
structure ColumnsOf (q : LeftJoin) (main follow : Table) : Prop where
  columns : ∀ c ∈ q.columns, main.has c = true
  followColumns : ∀ c ∈ q.followColumns, follow.has c = true
  joinColumns : ∀ c ∈ q.joinColumns, main.has c = true ∧ follow.has c = true
  followWhere : ∀ e ∈ q.followWhere.entries, follow.has e.1 = true
  conds : ∀ e ∈ q.conds.entries, main.has e.1 = true

/-- The rows agree on a column of both tables, as SQLite compares them. -/
def agree (R : Runtime) (main follow : Table) (r s : Row) (c : String) : Bool :=
  let affinity := Affinity.ofColumns (main.affinity c) (follow.affinity c)
  (affinity.apply R.conv (r (fold c))).equals (affinity.apply R.conv (s (fold c)))

/-- The values of the columns asked for: all of both tables, when none is named. -/
def output (q : LeftJoin) (main follow : Table) (p : Row × Option Row) : List Value :=
  let cell (c : String) : Value := (p.2.map fun s => s (fold c)).getD .null
  if q.columns = [] ∧ q.followColumns = [] then
    (main.columns.map fun d => p.1 (fold d.1)) ++ follow.columns.map fun d => cell d.1
  else (q.columns.map fun c => p.1 (fold c)) ++ q.followColumns.map cell

/-- The rows of the main table joined to those of the other, under the conditions. -/
def rows (R : Runtime) (q : LeftJoin) (main follow : Table) : List (List Value) :=
  ((leftJoin main.rows follow.rows fun r s =>
    q.joinColumns.all (agree R main follow r s) && DictionaryHolds R follow s q.followWhere).filter
      fun p => DictionaryHolds R main p.1 q.conds).map (q.output main follow)

/-- The columns of the conjuncts are those of the table `T`, by name. -/
def Behind (T : String) (as : List JoinAtom) : Prop := ∀ a ∈ as, ∀ c ∈ a.refs, c.table = some T

/-- Every statement made of the query is well formed, has each condition behind the name of its
table, and selects the rows of the query from every two tables that have the columns. -/
def Kept (R : Runtime) (q : LeftJoin) : Prop :=
  ∀ params, q.Asked params → ∃ sql values st,
    createUnionSelectSQLWithParams params = some (sql, values) ∧
      prepareJoin sql = some st ∧ st.params = values.length ∧
      Behind q.follow (st.on.drop q.joinColumns.length) ∧ Behind q.main st.conds ∧
      ∀ (db : Db) (main follow : Table), db (fold q.main) = some main →
        db (fold q.follow) = some follow → q.ColumnsOf main follow →
        selectJoin R.conv db st (values.map (bindObject R)) = some (q.rows R main follow)

end LeftJoin

/-- The dictionary has no entry, or one entry that is no empty array. -/
def OneSpeaks (dic : NSDictionary WhereValue) : Prop :=
  dic.entries = [] ∨ (dic.entries.filter fun e => e.2 ≠ .array []).length = 1

/-- The main table has a name that is not blank, and not that of the other; both dictionaries give
one conjunct at most, and no more values than SQLite takes. -/
structure LeftJoin.Qualified (q : LeftJoin) : Prop where
  named : checkStringIsEmpty q.main = false
  differ : fold q.main ≠ fold q.follow
  followWhere : OneSpeaks q.followWhere
  conds : OneSpeaks q.conds
  values : (boundValues q.followWhere).length + (boundValues q.conds).length ≤ maxVariables

variable {R : Runtime} {q : LeftJoin} {params : NBDBUnionParams} {M F T : String}
  {dic : NSDictionary WhereValue}

/-! ### The columns -/

/-- A column behind its table. -/
def columnRef (T c : String) : ColRef := ⟨some T, c⟩

theorem columnRef_proper {c : String} (hT : Name T) (hc : Name c) : (columnRef T c).Proper :=
  ⟨fun _ ht => Option.some.inj ht ▸ hT, hc⟩

theorem lex_columnRef {c : String} (hT : Name T) (hc : Name c) :
    lex (T ++ ("." ++ c)) = (columnRef T c).tokens := by
  rw [lex_word_opened hT.word (Opened.append (by decide) (by decide) _), lex_closed (by decide),
    lex_word hc.word]
  rfl

/-- Columns of a table, with commas between them. -/
theorem lex_columnRefs (sep : String) (hopened : Opened sep) (hclosed : Closed sep)
    (hne : sep ≠ "") (hsep : lex sep = [.sym ',']) (hT : Name T) {cs : List String}
    (hcs : ∀ c ∈ cs, Name c) :
    lex (String.intercalate sep (cs.map fun c => T ++ ("." ++ c))) =
      sepBy (.sym ',') (cs.map fun c => (columnRef T c).tokens) := by
  induction cs with
  | nil => rfl
  | cons c cs ih =>
      have hc := lex_columnRef hT (hcs c List.mem_cons_self)
      have ih := ih fun d hd => hcs d (List.mem_cons_of_mem _ hd)
      cases cs with
      | nil => simpa [sepBy] using hc
      | cons d cs =>
          simp only [List.map_cons] at ih ⊢
          rw [String.intercalate_cons_cons, String.append_assoc,
            lex_opened (Opened.append hopened hne _), lex_closed hclosed, hc, hsep, ih]
          rfl

/-- A column behind its table has more than one character. -/
theorem columnRefs_length (sep : String) (hT : Name T) {cs : List String} (hne : cs ≠ []) :
    1 < (String.intercalate sep (cs.map fun c => T ++ ("." ++ c))).length := by
  obtain ⟨c, cs, rfl⟩ := List.exists_cons_of_ne_nil hne
  have hpos : T.length ≠ 0 := Name.length hT
  have hdot : (".").length = 1 := rfl
  have hfirst : 1 < (T ++ ("." ++ c)).length := by
    rw [String.length_append, String.length_append]
    omega
  cases cs with
  | nil => simpa using hfirst
  | cons d cs =>
      rw [List.map_cons, List.map_cons, String.intercalate_cons_cons, String.length_append,
        String.length_append]
      omega

/-- The columns of a query as tokens. -/
def columnTokens (q : LeftJoin) : List Token :=
  if q.columns = [] ∧ q.followColumns = [] then [.sym '*']
  else sepBy (.sym ',') ((q.columns.map fun c => (columnRef q.main c).tokens) ++
    q.followColumns.map fun c => (columnRef q.follow c).tokens)

theorem lex_unionColumns (hq : q.Proper)
    (hcolumns : namedColumns params.columnArray params.columns = q.columns)
    (hfollow : namedColumns params.followColumnsArray params.followColumns = q.followColumns) :
    lex (unionColumns q.main q.follow params) = columnTokens q := by
  have hmain := lex_columnRefs ("," ++ "") (by decide) (by decide) (by decide) (by decide)
    hq.main hq.columns
  have hother := lex_columnRefs ("," ++ " ") (by decide) (by decide) (by decide) (by decide)
    hq.follow hq.followColumns
  unfold unionColumns
  simp only [tableColumns_eq, hcolumns, hfollow, columnTokens]
  by_cases hcs : q.columns = []
  · have hnone : String.intercalate ("," ++ "") (q.columns.map fun c => q.main ++ ("." ++ c)) =
      "" := by
      rw [hcs]
      rfl
    rw [hnone, if_neg (c := _ ∧ _) (by simp), String.empty_append, String.empty_append]
    by_cases hfs : q.followColumns = []
    · have hnone' : String.intercalate ("," ++ " ")
          (q.followColumns.map fun c => q.follow ++ ("." ++ c)) = "" := by
        rw [hfs]
        rfl
      have hstar : lex ("" ++ "*") = [.sym '*'] := by decide
      rw [hnone', if_pos (by simp), if_pos ⟨hcs, hfs⟩, hstar]
    · have hlen := columnRefs_length ("," ++ " ") hq.follow hfs
      rw [if_neg (by omega), if_neg (by simp [hfs]), hother, hcs]
      rfl
  · have hlen := columnRefs_length ("," ++ "") hq.main hcs
    rw [if_neg (c := q.columns = [] ∧ _) (by simp [hcs])]
    by_cases hfs : q.followColumns = []
    · rw [if_neg (c := q.followColumns.length > 0 ∧ _) (by simp [hfs]), String.empty_append, hfs]
      have hnone : String.intercalate ("," ++ " ")
          (([] : List String).map fun c => q.follow ++ ("." ++ c)) = "" := rfl
      rw [hnone, String.append_empty, if_neg (by omega), hmain, List.map_nil, List.append_nil]
    · have hpos := List.length_pos_iff.mpr hfs
      rw [if_pos (c := q.followColumns.length > 0 ∧ _) ⟨hpos, hlen⟩, if_neg (by
        rw [String.length_append]
        omega), lex_opened (Opened.append (by decide) (by decide) _), lex_closed (by decide), hmain,
        hother, sepBy_append (by simpa using hcs) (by simpa using hfs)]
      rfl

/-! ### The clauses -/

/-- The conjunct of a join column. -/
def joinedRef (M F c : String) : JoinAtom := .same (columnRef M c) (columnRef F c)

theorem joinedRef_proper {c : String} (hM : Name M) (hF : Name F) (hc : Name c) :
    (joinedRef M F c).Proper := ⟨columnRef_proper hM hc, columnRef_proper hF hc⟩

theorem joinedColumns_concat (M F : String) (cs : List String) (c : String) :
    joinedColumns M F (cs ++ [c]) = joinedColumns M F cs ++ ((if cs = [] then " on" else " and") ++
      (" " ++ (M ++ ("." ++ (c ++ ("=" ++ (F ++ ("." ++ (c ++ " "))))))))) := by
  have hlen : (cs.length = 0) = (cs = []) := propext List.length_eq_zero_iff
  rw [joinedColumns, joinedColumns, List.zipIdx_append, List.foldl_append]
  simp [hlen]

/-- The text of the join columns, which a cut after it does not cut in a word. -/
theorem lex_joinedColumns (hM : Name M) (hF : Name F) {cs : List String}
    (hcs : ∀ c ∈ cs, Name c) (hne : cs ≠ []) :
    Closed (joinedColumns M F cs) ∧ Opened (joinedColumns M F cs) ∧ joinedColumns M F cs ≠ "" ∧
      lex (joinedColumns M F cs) =
        .word "on" :: sepBy (.word "and") (cs.map fun c => (joinedRef M F c).tokens) := by
  induction cs using List.reverseRecOn with
  | nil => exact absurd rfl hne
  | append_singleton cs c ih =>
      have hc : Name c := hcs c (by simp)
      have hopened : ∀ a b : String, Opened a → a ≠ "" → Opened (a ++ b) :=
        fun a b ha hne => ha.append hne b
      have hclosed : Closed
          (" " ++ (M ++ ("." ++ (c ++ ("=" ++ (F ++ ("." ++ (c ++ " ")))))))) := by
        have hblank : Closed " " := by decide
        exact ((((((((hblank.append (by decide) c).append (append_ne_right (by decide)) ".").append
          (append_ne_left (by decide)) F).append (append_ne_right (append_ne_left (by decide)))
          "=").append (append_ne_left (by decide)) c).append (append_ne_right (append_ne_left
          (by decide))) ".").append (append_ne_left (by decide)) M).append (append_ne_right
          (append_ne_left (by decide))) " ")
      have htext : lex (" " ++ (M ++ ("." ++ (c ++ ("=" ++ (F ++ ("." ++ (c ++ " ")))))))) =
          (joinedRef M F c).tokens := by
        have hequals : lex "=" = [.sym '='] := by decide
        have hblank : lex " " = [] := by decide
        have hsplit : " " ++ (M ++ ("." ++ (c ++ ("=" ++ (F ++ ("." ++ (c ++ " "))))))) =
            " " ++ ((M ++ ("." ++ c)) ++ ("=" ++ ((F ++ ("." ++ c)) ++ " "))) := by
          simp only [String.append_assoc]
        rw [hsplit, lex_closed (by decide), lex_opened (a := M ++ ("." ++ c))
            (hopened _ _ (by decide) (by decide)), lex_closed (a := "=") (by decide),
          lex_opened (b := " ") (by decide), lex_columnRef hM hc, lex_columnRef hF hc, hequals,
          hblank]
        simp [joinedRef, JoinAtom.tokens]
      rw [joinedColumns_concat]
      by_cases hnil : cs = []
      · subst hnil
        have hempty : joinedColumns M F [] = "" := rfl
        have hon : lex " on" = [.word "on"] := by decide
        rw [hempty, if_pos rfl, String.empty_append,
          lex_opened (hopened _ _ (by decide) (by decide)),
          htext, hon]
        exact ⟨hclosed.append (append_ne_left (by decide)) _, hopened _ _ (by decide) (by decide),
          append_ne_left (by decide), rfl⟩
      · obtain ⟨ihclosed, ihopened, ihne, ihlex⟩ :=
          ih (fun d hd => hcs d (List.mem_append_left _ hd)) hnil
        have hand : lex " and" = [.word "and"] := by decide
        rw [if_neg hnil]
        refine ⟨(hclosed.append (append_ne_left (by decide)) _).append
          (append_ne_left (by decide)) _, ihopened.append ihne _, append_ne_left ihne, ?_⟩
        rw [lex_closed ihclosed, lex_opened (hopened _ _ (by decide) (by decide)), htext, hand,
          ihlex, List.map_append, List.map_singleton, sepBy_append (by simpa using hnil) (by simp)]
        rfl

/-- The text of a dictionary behind the name of its table. -/
def clauseText (keyword T : String) (dic : NSDictionary WhereValue) : String :=
  if dic.entries = [] then "" else keyword ++ (T ++ ("." ++ (dictionaryToSqlWhere dic).1))

/-- The pieces of that text: the first one has the name, also when there is nothing behind it. -/
def clausePieces (T : String) (dic : NSDictionary WhereValue) : List (List Token) :=
  if dic.entries = [] then []
  else
    match dictionaryAtoms dic.entries with
    | [] => [[.word T, .sym '.']]
    | a :: as => (.word T :: .sym '.' :: a.1.tokens) :: as.map fun a => a.1.tokens

theorem dictionaryAtoms_proper (h : ∀ e ∈ dic.entries, Name e.1) :
    ∀ a ∈ dictionaryAtoms dic.entries, a.1.Proper := by
  intro a ha
  obtain ⟨e, he, hea⟩ := List.mem_filterMap.mp ha
  exact entryAtom_proper (h e he) hea

theorem sepBy_condTokens (T : String) (a : Atom × List Obj) (as : List (Atom × List Obj)) :
    sepBy (.word "and") ((.word T :: .sym '.' :: a.1.tokens) :: as.map fun a => a.1.tokens) =
      .word T :: .sym '.' :: condTokens ((a :: as).map (·.1)) := by
  have hall : ∀ as : List (Atom × List Obj),
      sepBy (.word "and") (as.map fun a => a.1.tokens) = condTokens (as.map (·.1)) := by
    intro as
    induction as with
    | nil => rfl
    | cons a as ih =>
        cases as with
        | nil => rfl
        | cons b bs =>
            rw [List.map_cons] at ih
            rw [List.map_cons, List.map_cons, sepBy, ih]
            rfl
  cases as with
  | nil => rfl
  | cons b bs =>
      have hrest := hall (b :: bs)
      rw [List.map_cons] at hrest
      rw [List.map_cons, sepBy, hrest]
      rfl

/-- The tokens behind the keyword of a clause. -/
theorem lex_clauseText (hT : Name T) (h : ∀ e ∈ dic.entries, Name e.1)
    (hne : dic.entries ≠ []) {keyword : String} (hclosed : Closed keyword) :
    lex (clauseText keyword T dic) =
      lex keyword ++ sepBy (.word "and") (clausePieces T dic) := by
  obtain ⟨-, hlex, -⟩ := lex_clause (dictionaryAtoms_proper h)
  have hdot : lex "." = [.sym '.'] := by decide
  rw [clauseText, if_neg hne, lex_closed hclosed,
    lex_word_opened hT.word (Opened.append (by decide) (by decide) _), lex_closed (by decide),
    dictionaryToSqlWhere_eq, hlex, hdot, clausePieces, if_neg hne]
  cases hatoms : dictionaryAtoms dic.entries with
  | nil => rfl
  | cons a as => rw [sepBy_condTokens]; rfl

/-! ### The table in place of `@t` -/

theorem replaceTable_free {x : List Char} (h : '@' ∉ x) (y : List Char) :
    replaceTable T (x ++ ' ' :: y) = x ++ replaceTable T (' ' :: y) := by
  rw [replaceTable, replaceTable, replaceOccurrences_eq, replaceOccurrences_eq]
  exact Occurrences.replaced_run (chain_of_free h)

/-- The one `@t` of a text is replaced. -/
theorem replaceTableName_at {x y : String} (hx : AtFree x) (hy : AtFree y) (hlen : 3 ≤ y.length) :
    replaceTableName (x ++ (" @t " ++ y)) T = x ++ (" " ++ (T ++ (" " ++ y))) := by
  have hchars : (x ++ (" @t " ++ y)).toList = x.toList ++ ' ' :: ("@t ".toList ++ y.toList) := by
    rw [String.toList_append, String.toList_append]
    rfl
  have hsuffix : ¬ " @t".toList <:+ (x ++ (" @t " ++ y)).toList := by
    intro hend
    have hy' : y.toList <:+ (x ++ (" @t " ++ y)).toList :=
      ⟨x.toList ++ " @t ".toList, by rw [String.toList_append, String.toList_append]; simp⟩
    have hshort : 3 ≤ y.toList.length := by rwa [String.length_toList]
    have hinside := List.suffix_of_suffix_length_le hend hy' hshort
    exact hy (hinside.subset (by decide))
  have hrun : ∀ cs : List Char, replaceTable T (' ' :: ("@t ".toList ++ cs)) =
      (" " ++ (T ++ " ")).toList ++ replaceTable T cs := fun _ => rfl
  rw [replaceTableName, if_neg hsuffix]
  show String.ofList (replaceTable T _) = _
  rw [hchars, replaceTable_free hx, hrun, replaceTable, replaceOccurrences_of_free hy]
  simp only [← String.toList_append, String.ofList_toList, String.append_assoc]

theorem atFree_intercalate {sep : String} (hsep : AtFree sep) {xs : List String}
    (h : ∀ x ∈ xs, AtFree x) : AtFree (String.intercalate sep xs) := by
  induction xs with
  | nil => exact (by decide : AtFree "")
  | cons x xs ih =>
      have hx := h x List.mem_cons_self
      have ih := ih fun y hy => h y (List.mem_cons_of_mem _ hy)
      cases xs with
      | nil => simpa using hx
      | cons y ys =>
          rw [String.intercalate_cons_cons]
          exact (hx.append hsep).append ih

theorem atFree_name {k : String} (h : Name k) : AtFree k := atFree_word h.word

theorem atFree_columnRefs {sep : String} (hsep : AtFree sep) (hT : Name T) {cs : List String}
    (hcs : ∀ c ∈ cs, Name c) :
    AtFree (String.intercalate sep (cs.map fun c => T ++ ("." ++ c))) := by
  refine atFree_intercalate hsep fun x hx => ?_
  obtain ⟨c, hc, rfl⟩ := List.mem_map.mp hx
  exact (atFree_name hT).append (AtFree.append (by decide) (atFree_name (hcs c hc)))

theorem atFree_unionColumns (hq : q.Proper)
    (hcolumns : namedColumns params.columnArray params.columns = q.columns)
    (hfollow : namedColumns params.followColumnsArray params.followColumns = q.followColumns) :
    AtFree (unionColumns q.main q.follow params) := by
  have hmain := atFree_columnRefs (by decide : AtFree ("," ++ "")) hq.main hq.columns
  have hother := atFree_columnRefs (by decide : AtFree ("," ++ " ")) hq.follow hq.followColumns
  unfold unionColumns
  simp only [tableColumns_eq, hcolumns, hfollow]
  generalize String.intercalate ("," ++ "") _ = a at hmain ⊢
  generalize String.intercalate ("," ++ " ") _ = b at hother ⊢
  have hcomma : AtFree (if q.followColumns.length > 0 ∧ a.length > 1 then "," else "") := by
    split
    · decide
    · decide
  generalize (if q.followColumns.length > 0 ∧ a.length > 1 then "," else "") = sep at hcomma ⊢
  have hall : AtFree (a ++ (sep ++ b)) := hmain.append (hcomma.append hother)
  split
  · exact hall.append (by decide)
  · exact hall

theorem atFree_joinedColumns (hM : Name M) (hF : Name F) {cs : List String}
    (hcs : ∀ c ∈ cs, Name c) : AtFree (joinedColumns M F cs) := by
  induction cs using List.reverseRecOn with
  | nil => exact (by decide : AtFree "")
  | append_singleton cs c ih =>
      have hc := atFree_name (hcs c (by simp))
      have hkeyword : AtFree (if cs = [] then " on" else " and") := by
        split
        · decide
        · decide
      rw [joinedColumns_concat]
      exact (ih fun d hd => hcs d (List.mem_append_left _ hd)).append (hkeyword.append
        (AtFree.append (by decide) ((atFree_name hM).append (AtFree.append (by decide)
          (hc.append (AtFree.append (by decide) ((atFree_name hF).append
            (AtFree.append (by decide) (hc.append (by decide))))))))))

theorem atFree_clauseText (hT : Name T) (h : ∀ e ∈ dic.entries, Name e.1) {keyword : String}
    (hkeyword : AtFree keyword) : AtFree (clauseText keyword T dic) := by
  rw [clauseText]
  split
  · decide
  · rw [dictionaryToSqlWhere_eq]
    exact hkeyword.append ((atFree_name hT).append (AtFree.append (by decide)
      (atFree_clause (dictionaryAtoms_proper h))))

/-! ### The statement -/

/-- What an argument gives the builder. -/
theorem Gives.tableWhere {dic : Option (NSDictionary WhereValue)} {condition : Option String}
    {given : NSDictionary WhereValue} (h : Gives dic condition given) (keyword T : String) :
    ∃ d : NSDictionary WhereValue, d.entries.Perm given.entries ∧
      NBDataBase.tableWhere keyword T dic condition =
        (clauseText keyword T d, (dictionaryToSqlWhere d).2) := by
  cases dic with
  | none =>
      obtain ⟨hempty, hnone⟩ : checkIsEmpty condition = true ∧ given.entries = [] := h
      refine ⟨given, .refl _, ?_⟩
      rw [NBDataBase.tableWhere, if_pos hempty, clauseText, if_pos hnone, dictionaryToSqlWhere,
        hnone]
      rfl
  | some d =>
      refine ⟨d, h, ?_⟩
      rw [NBDataBase.tableWhere, clauseText]
      by_cases hnone : d.entries = []
      · rw [if_pos hnone, if_neg (by simp [hnone]), dictionaryToSqlWhere, hnone]
        rfl
      · rw [if_neg hnone, if_pos (List.length_pos_iff.mpr hnone)]

/-- The text of the statement, and its values. -/
theorem LeftJoin.Asked.text (hask : q.Asked params) (hq : q.Proper)
    (hnamed : checkStringIsEmpty q.main = false) :
    ∃ f w : NSDictionary WhereValue, f.entries.Perm q.followWhere.entries ∧
      w.entries.Perm q.conds.entries ∧
      createUnionSelectSQLWithParams params =
        some ("select " ++ (unionColumns q.main q.follow params ++ (" from" ++ (" " ++ (q.main ++
          (" " ++ ("left join " ++ (q.follow ++ (joinedColumns q.main q.follow q.joinColumns ++
            (clauseText " and " q.follow f ++ clauseText " where " q.main w))))))))),
          (dictionaryToSqlWhere f).2 ++ (dictionaryToSqlWhere w).2) := by
  obtain ⟨f, hf, hfollow⟩ := hask.followWhere.tableWhere " and " q.follow
  obtain ⟨w, hw, hmain⟩ := hask.conds.tableWhere " where " q.main
  have hfnames : ∀ e ∈ f.entries, Name e.1 := fun e he => hq.followWhere e (hf.mem_iff.mp he)
  have hwnames : ∀ e ∈ w.entries, Name e.1 := fun e he => hq.conds e (hw.mem_iff.mp he)
  refine ⟨f, w, hf, hw, ?_⟩
  have hcount : ¬ params.count > 0 := not_lt.mpr hask.count
  have hoffset : ¬ params.offset > 0 := not_lt.mpr hask.offset
  have hbare : ∀ sql, sqlString sql params.toNBDBQueryParams = sql := by
    intro sql
    simp only [sqlString, hask.groupBy, hask.orderBy, if_true, if_neg hcount, if_neg hoffset]
  have hfrom : ("select " ++ (unionColumns q.main q.follow params ++
      (" from @t left join " ++ q.follow))) ++ (joinedColumns q.main q.follow q.joinColumns ++
        clauseText " and " q.follow f) ++ clauseText " where " q.main w =
      ("select " ++ (unionColumns q.main q.follow params ++ " from")) ++ (" @t " ++
        ("left join " ++ (q.follow ++ (joinedColumns q.main q.follow q.joinColumns ++
          (clauseText " and " q.follow f ++ clauseText " where " q.main w))))) := by
    have hcut : " from @t left join " = " from" ++ (" @t " ++ "left join ") := by decide
    rw [hcut]
    simp only [String.append_assoc]
  have hbefore : AtFree ("select " ++ (unionColumns q.main q.follow params ++ " from")) :=
    AtFree.append (by decide)
      ((atFree_unionColumns hq hask.columns hask.followColumns).append (by decide))
  have hafter : AtFree ("left join " ++ (q.follow ++ (joinedColumns q.main q.follow q.joinColumns ++
      (clauseText " and " q.follow f ++ clauseText " where " q.main w)))) :=
    AtFree.append (by decide) ((atFree_name hq.follow).append
      ((atFree_joinedColumns hq.main hq.follow hq.joinColumns).append
        ((atFree_clauseText hq.follow hfnames (by decide)).append
          (atFree_clauseText hq.main hwnames (by decide)))))
  have hlen : ("left join ").length = 10 := rfl
  unfold createUnionSelectSQLWithParams
  simp only [hask.main, hask.follow, hnamed, formatted, Option.getD_some, hask.joinColumns, hbare,
    hfollow, hmain]
  rw [if_neg (by simp), hfrom, replaceTableName_at hbefore hafter (by
    rw [String.length_append, hlen]
    omega)]
  simp only [String.append_assoc]

/-- The columns of a query. -/
def columnRefs (q : LeftJoin) : List ColRef :=
  q.columns.map (columnRef q.main) ++ q.followColumns.map (columnRef q.follow)

theorem columnRefs_proper (hq : q.Proper) : ∀ a ∈ columnRefs q, a.Proper := by
  intro a ha
  rcases List.mem_append.mp ha with ha | ha
  · obtain ⟨c, hc, rfl⟩ := List.mem_map.mp ha
    exact columnRef_proper hq.main (hq.columns c hc)
  · obtain ⟨c, hc, rfl⟩ := List.mem_map.mp ha
    exact columnRef_proper hq.follow (hq.followColumns c hc)

theorem columnTokens_eq (q : LeftJoin) : columnTokens q =
    if columnRefs q = [] then [.sym '*']
    else sepBy (.sym ',') ((columnRefs q).map ColRef.tokens) := by
  simp [columnTokens, columnRefs, Function.comp_def]

theorem columnTokens_uncut (hq : q.Proper) : Uncut (columnTokens q) := by
  rw [columnTokens_eq]
  split
  · exact .cons (uncut_sym _) .nil
  · intro t ht
    rcases mem_sepBy ht with rfl | ⟨p, hp, ht⟩
    · exact uncut_sym _
    · obtain ⟨a, ha, rfl⟩ := List.mem_map.mp hp
      exact (columnRefs_proper hq a ha).uncut t ht

theorem outputColumns_columnTokens (hq : q.Proper) :
    outputColumns (columnTokens q) = some (columnRefs q) := by
  rw [columnTokens_eq]
  by_cases hnone : columnRefs q = []
  · rw [if_pos hnone, hnone]
    rfl
  · rw [if_neg hnone]
    have hwords : ∀ p ∈ (columnRefs q).map ColRef.tokens, ∀ t ∈ p,
        decide (t = Token.sym ',') = false := by
      intro p hp t ht
      obtain ⟨⟨table, column⟩, -, rfl⟩ := List.mem_map.mp hp
      cases table with
      | none =>
          rw [List.mem_singleton.mp ht]
          rfl
      | some table =>
          have ht : t ∈ [Token.word table, .sym '.', .word column] := ht
          simp only [List.mem_cons, List.not_mem_nil, or_false] at ht
          rcases ht with rfl | rfl | rfl
          · rfl
          · decide
          · rfl
    have hsplit := splitOnP_sepBy (t := .sym ',') (fun t => decide (t = Token.sym ','))
      (by decide) (by simpa using hnone) hwords
    have hstar : sepBy (.sym ',') ((columnRefs q).map ColRef.tokens) ≠ [.sym '*'] := by
      intro heq
      rw [heq] at hsplit
      obtain ⟨⟨table, column⟩, as, hrefs⟩ := List.exists_cons_of_ne_nil hnone
      rw [hrefs] at hsplit
      cases table <;> cases as <;>
        exact absurd hsplit (by simp [List.splitOnP_cons_eq_if_modifyHead, ColRef.tokens])
    have hread : ((columnRefs q).map ColRef.tokens).mapM outputColumn =
        some (columnRefs q) := by
      rw [List.mapM_map]
      refine (mapM_some fun a ha => ?_).trans (congrArg some (List.map_id _))
      exact outputColumn_tokens (columnRefs_proper hq a ha)
    rw [outputColumns, if_neg hstar, hsplit, hread]

/-- A conjunct of one table, its column qualified or not. -/
def atomOf (table : Option String) : Atom → JoinAtom
  | .eq c => .eq ⟨table, c⟩
  | .isIn c n => .isIn ⟨table, c⟩ n

theorem atomOf_tokens_none (a : Atom) : (atomOf none a).tokens = a.tokens := by
  cases a <;> rfl

theorem atomOf_tokens_some (T : String) (a : Atom) :
    (atomOf (some T) a).tokens = .word T :: .sym '.' :: a.tokens := by
  cases a <;> rfl

theorem atomOf_proper {table : Option String} (ht : ∀ t ∈ table, Name t) {a : Atom}
    (h : a.Proper) : (atomOf table a).Proper := by
  cases a with
  | eq c => exact ⟨ht, h⟩
  | isIn c n => exact ⟨⟨ht, h.1⟩, h.2⟩

/-- The conjuncts that SQLite reads in a clause: only the first one is qualified, and behind the
name of the table there has to be one. -/
def clauseAtoms (T : String) (dic : NSDictionary WhereValue) : Option (List JoinAtom) :=
  if dic.entries = [] then some []
  else
    match dictionaryAtoms dic.entries with
    | [] => none
    | a :: as => some (atomOf (some T) a.1 :: as.map fun a => atomOf none a.1)

theorem clausePieces_uncut (hT : Name T) (h : ∀ e ∈ dic.entries, Name e.1) :
    ∀ p ∈ clausePieces T dic, Uncut p := by
  have hproper := dictionaryAtoms_proper h
  intro p hp
  unfold clausePieces at hp
  split at hp
  · cases hp
  · split at hp
    · rw [List.mem_singleton.mp hp]
      exact .cons (uncut_name hT) (.cons (uncut_sym _) .nil)
    · rename_i a as hatoms
      rw [hatoms] at hproper
      rcases List.mem_cons.mp hp with rfl | hp
      · rw [← atomOf_tokens_some]
        exact (atomOf_proper (fun t ht => Option.some.inj ht ▸ hT)
          (hproper a List.mem_cons_self)).uncut
      · obtain ⟨b, hb, rfl⟩ := List.mem_map.mp hp
        rw [← atomOf_tokens_none]
        exact (atomOf_proper (fun t ht => by cases ht)
          (hproper b (List.mem_cons_of_mem _ hb))).uncut

/-- What SQLite reads in the pieces of a clause. -/
theorem clausePieces_read (hT : Name T) (h : ∀ e ∈ dic.entries, Name e.1) :
    (clausePieces T dic).mapM joinAtom = clauseAtoms T dic := by
  have hproper := dictionaryAtoms_proper h
  unfold clausePieces clauseAtoms
  split
  · rfl
  · split
    · have hnone : joinAtom [.word T, .sym '.'] = none := by
        simp [joinAtom, colRef, hT]
      exact mapM_none List.mem_cons_self hnone
    · rename_i a as hatoms
      rw [hatoms] at hproper
      have hfirst : joinAtom (.word T :: .sym '.' :: a.1.tokens) =
          some (atomOf (some T) a.1) := by
        rw [← atomOf_tokens_some]
        exact joinAtom_tokens (atomOf_proper (fun t ht => Option.some.inj ht ▸ hT)
          (hproper a List.mem_cons_self))
      have hrest : (as.map fun a => a.1.tokens).mapM joinAtom =
          some (as.map fun a => atomOf none a.1) := by
        rw [List.mapM_map]
        refine mapM_some fun b hb => ?_
        rw [Function.comp_apply, ← atomOf_tokens_none]
        exact joinAtom_tokens (atomOf_proper (fun t ht => by cases ht)
          (hproper b (List.mem_cons_of_mem _ hb)))
      rw [List.mapM_cons, hfirst, hrest]
      rfl

theorem opened_clauseText {keyword : String} (hopened : Opened keyword) (hne : keyword ≠ "") :
    Opened (clauseText keyword T dic) := by
  rw [clauseText]
  split
  · decide
  · exact hopened.append hne _

theorem clausePieces_eq_nil : clausePieces T dic = [] ↔ dic.entries = [] := by
  unfold clausePieces
  split
  · simp [*]
  · split <;> simp [*]

/-- The tokens of the join columns and of the two clauses behind them. -/
theorem LeftJoin.Proper.lex_on (hq : q.Proper) {f w : NSDictionary WhereValue}
    (hf : ∀ e ∈ f.entries, Name e.1) (hw : ∀ e ∈ w.entries, Name e.1) :
    lex (joinedColumns q.main q.follow q.joinColumns ++
      (clauseText " and " q.follow f ++ clauseText " where " q.main w)) =
      .word "on" :: (sepBy (.word "and") ((q.joinColumns.map fun c =>
        (joinedRef q.main q.follow c).tokens) ++ clausePieces q.follow f) ++
        if clausePieces q.main w = [] then []
        else .word "where" :: sepBy (.word "and") (clausePieces q.main w)) := by
  obtain ⟨hclosed, -, -, hlexon⟩ := lex_joinedColumns hq.main hq.follow hq.joinColumns hq.joined
  have hand : lex " and " = [.word "and"] := by decide
  have hwhere : lex " where " = [.word "where"] := by decide
  have hjoined : (q.joinColumns.map fun c => (joinedRef q.main q.follow c).tokens) ≠ [] := by
    simpa using hq.joined
  have hmain : lex (clauseText " where " q.main w) = if clausePieces q.main w = [] then []
      else .word "where" :: sepBy (.word "and") (clausePieces q.main w) := by
    by_cases hnone : w.entries = []
    · rw [if_pos (clausePieces_eq_nil.mpr hnone), clauseText, if_pos hnone]
      rfl
    · rw [if_neg (hnone ∘ clausePieces_eq_nil.mp), lex_clauseText hq.main hw hnone (by decide),
        hwhere]
      rfl
  rw [lex_closed hclosed, hlexon, lex_opened (opened_clauseText (by decide) (by decide)), hmain]
  by_cases hnone : f.entries = []
  · rw [clausePieces_eq_nil.mpr hnone, List.append_nil, clauseText, if_pos hnone]
    rfl
  · rw [lex_clauseText hq.follow hf hnone (by decide), hand,
      sepBy_append hjoined (hnone ∘ clausePieces_eq_nil.mp)]
    simp

/-- The pieces between the keywords have none of these in them. -/
theorem LeftJoin.Proper.uncut (hq : q.Proper) {f w : NSDictionary WhereValue}
    (hf : ∀ e ∈ f.entries, Name e.1) (hw : ∀ e ∈ w.entries, Name e.1) :
    ∀ p ∈ ((q.joinColumns.map fun c => (joinedRef q.main q.follow c).tokens) ++
      clausePieces q.follow f) ++ clausePieces q.main w, Uncut p := by
  intro p hp
  rcases List.mem_append.mp hp with hp | hp
  · rcases List.mem_append.mp hp with hp | hp
    · obtain ⟨c, hc, rfl⟩ := List.mem_map.mp hp
      exact (joinedRef_proper hq.main hq.follow (hq.joinColumns c hc)).uncut
    · exact clausePieces_uncut hq.follow hf p hp
  · exact clausePieces_uncut hq.main hw p hp

/-- **What SQLite reads** in a statement of the query. -/
theorem LeftJoin.Proper.prepare (hq : q.Proper)
    (hcolumns : namedColumns params.columnArray params.columns = q.columns)
    (hfollow : namedColumns params.followColumnsArray params.followColumns = q.followColumns)
    {f w : NSDictionary WhereValue} (hf : ∀ e ∈ f.entries, Name e.1)
    (hw : ∀ e ∈ w.entries, Name e.1) :
    prepareJoin ("select " ++ (unionColumns q.main q.follow params ++ (" from" ++ (" " ++ (q.main ++
      (" " ++ ("left join " ++ (q.follow ++ (joinedColumns q.main q.follow q.joinColumns ++
        (clauseText " and " q.follow f ++ clauseText " where " q.main w)))))))))) =
      ((clauseAtoms q.follow f).bind fun on => (clauseAtoms q.main w).map fun conds =>
        (⟨columnRefs q, q.main, q.follow,
          q.joinColumns.map (joinedRef q.main q.follow) ++ on, conds⟩ : JoinStmt)).filter
        fun st => st.params ≤ maxVariables := by
  obtain ⟨-, hopened, hne, -⟩ := lex_joinedColumns hq.main hq.follow hq.joinColumns hq.joined
  have hblank : ∀ x : String, Opened (" " ++ x) :=
    fun x => Opened.append (by decide) (by decide) x
  have hspace : ∀ x : String, lex (" " ++ x) = lex x := by
    intro x
    rw [lex_closed (by decide)]
    rfl
  have hfrom : lex " from" = [.word "from"] := by decide
  have hselect : lex "select " = [.word "select"] := by decide
  have hjoin : lex "left join " = [.word "left", .word "join"] := by decide
  have htokens : lex ("select " ++ (unionColumns q.main q.follow params ++ (" from" ++ (" " ++
      (q.main ++ (" " ++ ("left join " ++ (q.follow ++ (joinedColumns q.main q.follow
        q.joinColumns ++ (clauseText " and " q.follow f ++
          clauseText " where " q.main w)))))))))) =
      joinTokens (columnTokens q) q.main q.follow ((q.joinColumns.map fun c =>
        (joinedRef q.main q.follow c).tokens) ++ clausePieces q.follow f)
        (clausePieces q.main w) := by
    rw [lex_closed (by decide), lex_opened (Opened.append (by decide) (by decide) _),
      lex_unionColumns hq hcolumns hfollow, lex_opened (hblank _), hspace,
      lex_word_opened hq.main.word (hblank _), hspace, lex_closed (by decide),
      lex_word_opened hq.follow.word (hopened.append hne _), hq.lex_on hf hw, hselect, hfrom,
      hjoin]
    rfl
  have hjoinedread : (q.joinColumns.map fun c => (joinedRef q.main q.follow c).tokens).mapM
      joinAtom = some (q.joinColumns.map (joinedRef q.main q.follow)) := by
    rw [List.mapM_map]
    exact mapM_some fun c hc =>
      joinAtom_tokens (joinedRef_proper hq.main hq.follow (hq.joinColumns c hc))
  rw [prepareJoin, htokens, parseJoin_joinTokens (by simp [hq.joined]) (hq.uncut hf hw) hq.main
    hq.follow (columnTokens_uncut hq), outputColumns_columnTokens hq, List.mapM_append,
    hjoinedread, clausePieces_read hq.follow hf, clausePieces_read hq.main hw]
  cases clauseAtoms q.follow f <;> rfl

/-! ### Qualified clauses -/

/-- A dictionary has as many conjuncts as entries that are no empty arrays. -/
theorem dictionaryAtoms_length (entries : List (String × WhereValue)) :
    (dictionaryAtoms entries).length = (entries.filter fun e => e.2 ≠ .array []).length := by
  induction entries with
  | nil => rfl
  | cons e es ih =>
      rw [dictionaryAtoms] at ih ⊢
      obtain ⟨k, va⟩ := e
      cases va with
      | scalar v => simp [entryAtom, ih]
      | array vlist =>
          cases vlist with
          | nil =>
              have hnone : entryAtom (k, .array []) = none := rfl
              simp [hnone, ih]
          | cons v vs => simp [entryAtom, ih]

theorem boundValues_perm {dic dic' : NSDictionary WhereValue}
    (hperm : dic'.entries.Perm dic.entries) :
    (boundValues dic').length = (boundValues dic).length :=
  (hperm.flatMap_right _).length_eq

theorem OneSpeaks.perm {dic dic' : NSDictionary WhereValue} (h : OneSpeaks dic)
    (hperm : dic'.entries.Perm dic.entries) : OneSpeaks dic' := by
  rcases h with h | h
  · exact .inl (by rwa [h, List.perm_nil] at hperm)
  · exact .inr ((hperm.filter _).length_eq.trans h)

/-- The clause of such a dictionary is qualified. -/
theorem OneSpeaks.clauseAtoms (h : OneSpeaks dic) (T : String) :
    clauseAtoms T dic =
      some ((dictionaryAtoms dic.entries).map fun a => atomOf (some T) a.1) := by
  unfold NBDataBase.clauseAtoms
  rcases h with hnone | hone
  · rw [if_pos hnone, hnone]
    rfl
  · have hne : dic.entries ≠ [] := by
      intro hnil
      rw [hnil] at hone
      cases hone
    rw [← dictionaryAtoms_length] at hone
    obtain ⟨a, ha⟩ := List.length_eq_one_iff.mp hone
    rw [if_neg hne, ha]
    rfl

/-- A clause whose columns are all qualified is that of such a dictionary. -/
theorem oneSpeaks_of_qualified {as : List JoinAtom} (h : clauseAtoms T dic = some as)
    (hq : ∀ a ∈ as, ∀ c ∈ a.refs, c.table ≠ none) : OneSpeaks dic := by
  unfold clauseAtoms at h
  split at h
  · exact .inl ‹_›
  · refine .inr ?_
    rw [← dictionaryAtoms_length]
    cases hatoms : dictionaryAtoms dic.entries with
    | nil => rw [hatoms] at h; cases h
    | cons a bs =>
        cases bs with
        | nil => rfl
        | cons b bs =>
            -- the second key stands alone
            rw [hatoms] at h
            have hb : atomOf none b.1 ∈ as := by
              rw [← Option.some.inj h]
              simp
            exfalso
            cases hkey : b.1 with
            | eq c => exact hq _ hb ⟨none, c⟩ (by rw [hkey]; exact List.mem_cons_self) rfl
            | isIn c n => exact hq _ hb ⟨none, c⟩ (by rw [hkey]; exact List.mem_cons_self) rfl

/-! ### The rows -/

section Rows

variable {main follow : Table}

theorem resolve_main (main follow : Table) {c : String} (h : fold M ≠ fold F)
    (hc : main.has c = true) :
    Sources.resolve ⟨M, F, main, follow⟩ (columnRef M c) = some .main := by
  simp [Sources.resolve, columnRef, hc, h]

theorem resolve_follow (main follow : Table) {c : String} (h : fold M ≠ fold F)
    (hc : follow.has c = true) :
    Sources.resolve ⟨M, F, main, follow⟩ (columnRef F c) = some .follow := by
  simp [Sources.resolve, columnRef, hc, Ne.symm h]

/-- A conjunct is about the column that its qualifier finds. -/
theorem holds_atomOf {src : Sources} {a : Atom} {side : Side}
    (h : src.resolve (columnRef T a.column) = some side) (p : Row × Option Row)
    (values : List Obj) :
    src.holds R.conv p (atomOf (some T) a, values.map (bindObject R)) =
      values.any fun v => (src.cell (columnRef T a.column) p).equals
        (((src.table side).affinity a.column).ofComparison.apply R.conv (bindObject R v)) := by
  cases a with
  | eq c =>
      have h : src.resolve ⟨some T, c⟩ = some side := h
      simp only [atomOf, Sources.holds, Sources.affinity, h, Option.elim_some, List.any_map]
      rfl
  | isIn c n =>
      have h : src.resolve ⟨some T, c⟩ = some side := h
      simp only [atomOf, Sources.holds, Sources.affinity, h, Option.elim_some, List.any_map]
      rfl

/-- A conjunct on the main table is about the main row. -/
theorem holds_main {a : Atom} (h : fold M ≠ fold F) (hc : main.has a.column = true)
    (p : Row × Option Row) (values : List Obj) :
    Sources.holds ⟨M, F, main, follow⟩ R.conv p
      (atomOf (some M) a, values.map (bindObject R)) =
      values.any (columnIs R main p.1 a.column) := by
  have hresolve := resolve_main main follow h hc
  rw [holds_atomOf hresolve]
  simp only [Sources.cell, hresolve]
  rfl

/-- A conjunct on the other table is about the row of that. -/
theorem holds_follow {a : Atom} (h : fold M ≠ fold F) (hc : follow.has a.column = true)
    (r s : Row) (values : List Obj) :
    Sources.holds ⟨M, F, main, follow⟩ R.conv (r, some s)
      (atomOf (some F) a, values.map (bindObject R)) =
      values.any (columnIs R follow s a.column) := by
  have hresolve := resolve_follow main follow h hc
  rw [holds_atomOf hresolve]
  simp only [Sources.cell, hresolve]
  rfl

/-- A conjunct of a join column compares the two rows. -/
theorem holds_joined {c : String} (h : fold M ≠ fold F) (hm : main.has c = true)
    (hf : follow.has c = true) (r s : Row) (vs : List Value) :
    Sources.holds ⟨M, F, main, follow⟩ R.conv (r, some s) (joinedRef M F c, vs) =
      LeftJoin.agree R main follow r s c := by
  have hmain := resolve_main main follow h hm
  have hfollow := resolve_follow main follow h hf
  simp only [joinedRef, Sources.holds, Sources.cell, Sources.affinity, hmain, hfollow]
  rfl

/-- The conjuncts of a dictionary behind the name of their table, with their values. -/
def boundClause (R : Runtime) (T : String) (dic : NSDictionary WhereValue) :
    List (JoinAtom × List Value) :=
  (dictionaryAtoms dic.entries).map fun a => (atomOf (some T) a.1, a.2.map (bindObject R))

theorem boundClause_params : ∀ a ∈ boundClause R T dic, a.2.length = a.1.params := by
  intro a ha
  obtain ⟨b, hb, rfl⟩ := List.mem_map.mp ha
  obtain ⟨e, -, he⟩ := List.mem_filterMap.mp hb
  have hparams := entryAtom_params he
  rw [List.length_map, hparams]
  cases b.1 <;> rfl

theorem boundClause_values :
    (boundClause R T dic).flatMap (·.2) = (dictionaryToSqlWhere dic).2.map (bindObject R) := by
  rw [dictionaryToSqlWhere_eq, clause_values, boundClause, List.flatMap_map, List.map_flatMap]

/-- The columns of a clause are keys of its dictionary, behind the name of the table. -/
theorem boundClause_refs {a : JoinAtom × List Value} (ha : a ∈ boundClause R T dic) :
    ∀ c ∈ a.1.refs, ∃ e ∈ dic.entries, c = columnRef T e.1 := by
  obtain ⟨b, hb, rfl⟩ := List.mem_map.mp ha
  obtain ⟨e, he, heb⟩ := List.mem_filterMap.mp hb
  have hcolumn := entryAtom_column heb
  intro c hc
  refine ⟨e, he, ?_⟩
  rw [← hcolumn]
  cases hkey : b.1 with
  | eq k =>
      rw [hkey] at hc
      exact List.mem_singleton.mp hc
  | isIn k n =>
      rw [hkey] at hc
      exact List.mem_singleton.mp hc

theorem all_congr_mem {α : Type} {l : List α} {P Q : α → Bool} (h : ∀ a ∈ l, P a = Q a) :
    l.all P = l.all Q := by
  rw [Bool.eq_iff_iff, List.all_eq_true, List.all_eq_true]
  exact forall₂_congr fun a ha => by rw [h a ha]

/-- The clause on the main table holds of a pair when its dictionary holds of the main row. -/
theorem boundClause_main (h : fold M ≠ fold F) (hkeys : ∀ e ∈ dic.entries, main.has e.1 = true)
    (p : Row × Option Row) :
    (boundClause R M dic).all (Sources.holds ⟨M, F, main, follow⟩ R.conv p) =
      DictionaryHolds R main p.1 dic := by
  rw [DictionaryHolds, ← dictionaryAtoms_holds, boundClause, List.all_map]
  refine all_congr_mem fun a ha => ?_
  obtain ⟨e, he, hea⟩ := List.mem_filterMap.mp ha
  exact holds_main h (by rw [entryAtom_column hea]; exact hkeys e he) p a.2

/-- The clause on the other table, when its dictionary holds of the row of that. -/
theorem boundClause_follow (h : fold M ≠ fold F)
    (hkeys : ∀ e ∈ dic.entries, follow.has e.1 = true) (r s : Row) :
    (boundClause R F dic).all (Sources.holds ⟨M, F, main, follow⟩ R.conv (r, some s)) =
      DictionaryHolds R follow s dic := by
  rw [DictionaryHolds, ← dictionaryAtoms_holds, boundClause, List.all_map]
  refine all_congr_mem fun a ha => ?_
  obtain ⟨e, he, hea⟩ := List.mem_filterMap.mp ha
  exact holds_follow h (by rw [entryAtom_column hea]; exact hkeys e he) r s a.2

/-- The conjuncts of the join columns, which take no values. -/
def boundJoined (M F : String) (cs : List String) : List (JoinAtom × List Value) :=
  cs.map fun c => (joinedRef M F c, [])

theorem boundJoined_values (cs : List String) : (boundJoined M F cs).flatMap (·.2) = [] := by
  rw [boundJoined, List.flatMap_map]
  exact List.flatMap_eq_nil_iff.mpr fun _ _ => rfl

theorem boundJoined_agree (h : fold M ≠ fold F) {cs : List String}
    (hcs : ∀ c ∈ cs, main.has c = true ∧ follow.has c = true) (r s : Row) :
    (boundJoined M F cs).all (Sources.holds ⟨M, F, main, follow⟩ R.conv (r, some s)) =
      cs.all (LeftJoin.agree R main follow r s) := by
  rw [boundJoined, List.all_map]
  exact all_congr_mem fun c hc => holds_joined h (hcs c hc).1 (hcs c hc).2 r s []

/-- The output of the statement is that of the query. -/
theorem output_columnRefs (h : fold q.main ≠ fold q.follow) (hcols : q.ColumnsOf main follow)
    (p : Row × Option Row) :
    Sources.output ⟨q.main, q.follow, main, follow⟩ (columnRefs q) p = q.output main follow p := by
  have hnone : columnRefs q = [] ↔ q.columns = [] ∧ q.followColumns = [] := by
    simp [columnRefs]
  unfold Sources.output LeftJoin.output
  by_cases hall : columnRefs q = []
  · rw [if_pos hall, if_pos (hnone.mp hall)]
  · rw [if_neg hall, if_neg (hnone.not.mp hall), columnRefs, List.map_append, List.map_map,
      List.map_map]
    refine congrArg₂ (· ++ ·) (List.map_congr_left fun c hc => ?_)
      (List.map_congr_left fun c hc => ?_)
    · have hresolve := resolve_main main follow h (hcols.columns c hc)
      simp only [Function.comp_apply, Sources.cell, hresolve]
      rfl
    · have hresolve := resolve_follow main follow h (hcols.followColumns c hc)
      simp only [Function.comp_apply, Sources.cell, hresolve]
      rfl

/-- Every column of such a query is found. -/
theorem bound_found (h : fold q.main ≠ fold q.follow) (hcols : q.ColumnsOf main follow)
    {f w : NSDictionary WhereValue} (hf : ∀ e ∈ f.entries, follow.has e.1 = true)
    (hw : ∀ e ∈ w.entries, main.has e.1 = true) :
    ∀ a ∈ columnRefs q ++ ((boundJoined q.main q.follow q.joinColumns ++
        boundClause R q.follow f) ++ boundClause R q.main w).flatMap fun a => a.1.refs,
      (Sources.resolve ⟨q.main, q.follow, main, follow⟩ a).isSome = true := by
  have hmain : ∀ c, main.has c = true → (Sources.resolve ⟨q.main, q.follow, main, follow⟩
      (columnRef q.main c)).isSome = true := fun c hc => by
    rw [resolve_main main follow h hc]
    rfl
  have hfollow : ∀ c, follow.has c = true → (Sources.resolve ⟨q.main, q.follow, main, follow⟩
      (columnRef q.follow c)).isSome = true := fun c hc => by
    rw [resolve_follow main follow h hc]
    rfl
  intro a ha
  rcases List.mem_append.mp ha with ha | ha
  · rcases List.mem_append.mp ha with ha | ha
    · obtain ⟨c, hc, rfl⟩ := List.mem_map.mp ha
      exact hmain c (hcols.columns c hc)
    · obtain ⟨c, hc, rfl⟩ := List.mem_map.mp ha
      exact hfollow c (hcols.followColumns c hc)
  · obtain ⟨b, hb, hab⟩ := List.mem_flatMap.mp ha
    rcases List.mem_append.mp hb with hb | hb
    · rcases List.mem_append.mp hb with hb | hb
      · obtain ⟨c, hc, rfl⟩ := List.mem_map.mp hb
        have hab : a ∈ [columnRef q.main c, columnRef q.follow c] := hab
        simp only [List.mem_cons, List.not_mem_nil, or_false] at hab
        rcases hab with rfl | rfl
        · exact hmain c (hcols.joinColumns c hc).1
        · exact hfollow c (hcols.joinColumns c hc).2
      · obtain ⟨e, he, rfl⟩ := boundClause_refs hb a hab
        exact hfollow e.1 (hf e he)
    · obtain ⟨e, he, rfl⟩ := boundClause_refs hb a hab
      exact hmain e.1 (hw e he)

end Rows

/-- **A qualified query is kept.** -/
theorem LeftJoin.Qualified.kept (hq : q.Proper) (h : q.Qualified) : q.Kept R := by
  intro params hask
  obtain ⟨f, w, hf, hw, htext⟩ := hask.text hq h.named
  have hprepare := hq.prepare hask.columns hask.followColumns
    (fun e he => hq.followWhere e (hf.mem_iff.mp he)) fun e he => hq.conds e (hw.mem_iff.mp he)
  rw [(h.followWhere.perm hf).clauseAtoms, (h.conds.perm hw).clauseAtoms] at hprepare
  -- the conjuncts of the statement, each with its values
  have hatoms : ∀ T (dic : NSDictionary WhereValue), (boundClause R T dic).map (·.1) =
      (dictionaryAtoms dic.entries).map fun a => atomOf (some T) a.1 :=
    fun T dic => List.map_map
  have hjoined : (boundJoined q.main q.follow q.joinColumns).map (·.1) =
      q.joinColumns.map (joinedRef q.main q.follow) := List.map_map
  obtain ⟨st, hst⟩ : ∃ st : JoinStmt, st = ⟨columnRefs q, q.main, q.follow,
    (boundJoined q.main q.follow q.joinColumns ++ boundClause R q.follow f).map (·.1),
    (boundClause R q.main w).map (·.1)⟩ := ⟨_, rfl⟩
  have hstatement := hprepare.trans (congrArg (Option.filter _) (congrArg some
    (show _ = st by rw [hst, List.map_append, hatoms, hatoms, hjoined])))
  have hbound : ∀ a ∈ (boundJoined q.main q.follow q.joinColumns ++ boundClause R q.follow f) ++
      boundClause R q.main w, a.2.length = a.1.params := by
    intro a ha
    rcases List.mem_append.mp ha with ha | ha
    · rcases List.mem_append.mp ha with ha | ha
      · obtain ⟨c, -, rfl⟩ := List.mem_map.mp ha
        rfl
      · exact boundClause_params a ha
    · exact boundClause_params a ha
  have hvalues : ((boundJoined q.main q.follow q.joinColumns ++ boundClause R q.follow f) ++
      boundClause R q.main w).flatMap (·.2) =
      ((dictionaryToSqlWhere f).2 ++ (dictionaryToSqlWhere w).2).map (bindObject R) := by
    rw [List.flatMap_append, List.flatMap_append, boundJoined_values, boundClause_values,
      boundClause_values, List.nil_append, List.map_append]
  have hbehind : ∀ T (dic : NSDictionary WhereValue),
      LeftJoin.Behind T ((boundClause R T dic).map (·.1)) := by
    intro T dic a ha c hc
    obtain ⟨b, hb, rfl⟩ := List.mem_map.mp ha
    obtain ⟨e, -, rfl⟩ := boundClause_refs hb c hc
    rfl
  have hparams : st.params =
      ((dictionaryToSqlWhere f).2 ++ (dictionaryToSqlWhere w).2).length := by
    rw [hst, JoinStmt.params, ← List.map_append, params_sum hbound, hvalues, List.length_map]
  have htaken : st.params ≤ maxVariables := by
    rw [hparams, List.length_append, dictionaryToSqlWhere_values, dictionaryToSqlWhere_values,
      boundValues_perm hf, boundValues_perm hw]
    exact h.values
  rw [Option.filter_some, if_pos (decide_eq_true htaken)] at hstatement
  refine ⟨_, _, st, htext, hstatement, hparams, ?follow, ?main, ?rows⟩
  case main =>
    rw [hst]
    exact hbehind q.main w
  case follow =>
    rw [hst]
    have hlength : ((boundJoined q.main q.follow q.joinColumns).map (·.1)).length =
        q.joinColumns.length := by rw [hjoined, List.length_map]
    rw [List.map_append, List.drop_left' hlength]
    exact hbehind q.follow f
  case rows =>
    intro db main follow hmain hfollow hcols
    rw [hst]
    have hfkeys : ∀ e ∈ f.entries, follow.has e.1 = true :=
      fun e he => hcols.followWhere e (hf.mem_iff.mp he)
    have hwkeys : ∀ e ∈ w.entries, main.has e.1 = true :=
      fun e he => hcols.conds e (hw.mem_iff.mp he)
    rw [← hvalues, selectJoin_eq R.conv hmain hfollow hbound
      (bound_found h.differ hcols hfkeys hwkeys)]
    have hon : ∀ r s, ((boundJoined q.main q.follow q.joinColumns ++
        boundClause R q.follow f).all (Sources.holds ⟨q.main, q.follow, main, follow⟩ R.conv
          (r, some s))) = (q.joinColumns.all (LeftJoin.agree R main follow r s) &&
            DictionaryHolds R follow s q.followWhere) := by
      intro r s
      rw [List.all_append, boundJoined_agree h.differ hcols.joinColumns,
        boundClause_follow h.differ hfkeys, dictionaryHolds_perm hf]
    have hconds : ∀ p : Row × Option Row, (boundClause R q.main w).all
        (Sources.holds ⟨q.main, q.follow, main, follow⟩ R.conv p) =
          DictionaryHolds R main p.1 q.conds := by
      intro p
      rw [boundClause_main h.differ hwkeys, dictionaryHolds_perm hw]
    rw [leftJoin_congr hon, funext hconds, funext (output_columnRefs h.differ hcols)]
    rfl

/-! ### Clauses that are not qualified -/

namespace LeftJoin

/-- Parameters that ask for the query. -/
def asking (q : LeftJoin) : NBDBUnionParams where
  tableName := some q.main
  followTableName := some q.follow
  columnArray := q.columns
  followColumnsArray := q.followColumns
  leftJoinColumnsArray := q.joinColumns
  followWhereDic := some q.followWhere
  whereDic := some q.conds

theorem namedColumns_array (cs : List String) : namedColumns cs none = cs := by
  rw [namedColumns]
  split
  · rfl
  · rename_i hnone
    exact (List.length_eq_zero_iff.mp (by omega)).symm

theorem asked_asking (q : LeftJoin) : q.Asked q.asking where
  main := rfl
  follow := rfl
  columns := namedColumns_array _
  followColumns := namedColumns_array _
  joinColumns := namedColumns_array _
  followWhere := .refl _
  conds := .refl _
  groupBy := rfl
  orderBy := rfl
  count := le_refl 0
  offset := le_refl 0

/-- The columns that a query names. -/
def names (q : LeftJoin) : List String :=
  q.columns ++ q.followColumns ++ q.joinColumns ++ q.followWhere.entries.map (·.1) ++
    q.conds.entries.map (·.1)

/-- A table with all of them. -/
def wide (q : LeftJoin) : Table where
  columns := q.names.map fun c => (c, "BLOB")
  primaryKey := []
  rows := []

theorem wide_has {c : String} (h : c ∈ q.names) : q.wide.has c = true :=
  List.any_eq_true.mpr ⟨(c, "BLOB"), List.mem_map_of_mem h, decide_eq_true rfl⟩

theorem wide_columnsOf (q : LeftJoin) : q.ColumnsOf q.wide q.wide where
  columns c hc := wide_has (by simp [names, hc])
  followColumns c hc := wide_has (by simp [names, hc])
  joinColumns c hc := ⟨wide_has (by simp [names, hc]), wide_has (by simp [names, hc])⟩
  followWhere e he := wide_has (by
    have hmem : e.1 ∈ q.followWhere.entries.map (·.1) := List.mem_map_of_mem he
    simp [names, -List.mem_map, hmem])
  conds e he := wide_has (by
    have hmem : e.1 ∈ q.conds.entries.map (·.1) := List.mem_map_of_mem he
    simp [names, -List.mem_map, hmem])

end LeftJoin

/-- Of two tables with the same columns a column belongs to one by name only. -/
theorem resolve_same {t : Table} {a : ColRef}
    (h : (Sources.resolve ⟨M, F, t, t⟩ a).isSome = true) : a.table ≠ none ∧ fold M ≠ fold F := by
  refine ⟨fun hnone => ?_, fun heq => ?_⟩
  · simp [Sources.resolve, hnone] at h
  · simp only [Sources.resolve, heq] at h
    revert h
    generalize ((a.table.all fun t => fold t = fold F) && t.has a.column) = found
    cases found <;> decide

/-- **A query that is kept is qualified**: of a column that both tables have, SQLite has to be told
which one is meant. -/
theorem LeftJoin.Kept.qualified (hq : q.Proper) (h : q.Kept R) : q.Qualified := by
  have hask := q.asked_asking
  obtain ⟨sql, values, st, hsql, hst, hparams, -, -, hrows⟩ := h q.asking hask
  have hnamed : checkStringIsEmpty q.main = false := by
    by_contra hblank
    rw [Bool.not_eq_false] at hblank
    have hnone : createUnionSelectSQLWithParams q.asking = none :=
      createUnionSelectSQLWithParams_unnamed hblank
    rw [hnone] at hsql
    cases hsql
  obtain ⟨f, w, hf, hw, htext⟩ := hask.text hq hnamed
  have hprepare := hq.prepare hask.columns hask.followColumns
    (fun e he => hq.followWhere e (hf.mem_iff.mp he)) fun e he => hq.conds e (hw.mem_iff.mp he)
  rw [hsql] at htext
  obtain ⟨rfl, rfl⟩ := Prod.mk.inj (Option.some.inj htext)
  rw [hst] at hprepare
  obtain ⟨hprepare, htaken⟩ := Option.filter_eq_some_iff.mp hprepare.symm
  obtain ⟨on, hon, hprepare⟩ := Option.bind_eq_some_iff.mp hprepare
  obtain ⟨conds, hconds, rfl⟩ := Option.map_eq_some_iff.mp hprepare
  obtain ⟨db, hthere⟩ : ∃ db : Db, ∀ T, db (fold T) = some q.wide :=
    ⟨fun _ => some q.wide, fun _ => rfl⟩
  have hselect := hrows db q.wide q.wide (hthere q.main) (hthere q.follow) q.wide_columnsOf
  have hfound := selectJoin_found hselect (hthere q.main) (hthere q.follow)
  have hqualified := fun a ha => resolve_same (hfound a ha)
  refine ⟨hnamed, ?differ, ?followWhere, ?conds, ?values⟩
  case values =>
    have htaken := of_decide_eq_true htaken
    rwa [hparams, List.length_append, dictionaryToSqlWhere_values, dictionaryToSqlWhere_values,
      boundValues_perm hf, boundValues_perm hw] at htaken
  case differ =>
    obtain ⟨c, cs, hjoined⟩ := List.exists_cons_of_ne_nil hq.joined
    refine (hqualified (columnRef q.main c) ?_).2
    rw [JoinStmt.refs, hjoined]
    simp [joinedRef, JoinAtom.refs]
  case followWhere =>
    refine (oneSpeaks_of_qualified hon fun a ha c hc => (hqualified c ?_).1).perm hf.symm
    refine List.mem_append_right _ (List.mem_flatMap.mpr ⟨a, ?_, hc⟩)
    exact List.mem_append_left _ (List.mem_append_right _ ha)
  case conds =>
    refine (oneSpeaks_of_qualified hconds fun a ha c hc => (hqualified c ?_).1).perm hw.symm
    refine List.mem_append_right _ (List.mem_flatMap.mpr ⟨a, ?_, hc⟩)
    exact List.mem_append_right _ ha

/-- **A left join is kept** exactly when the tables have two names, each dictionary has one entry
that is no empty array, or none at all, and SQLite takes the values of both. -/
theorem LeftJoin.kept_iff (R : Runtime) (q : LeftJoin) (hq : q.Proper) : q.Kept R ↔ q.Qualified :=
  ⟨LeftJoin.Kept.qualified hq, LeftJoin.Qualified.kept hq⟩

/-- The books in some states, with their user when the age of that is 7. -/
def booksOfUsers : LeftJoin where
  main := "tb_books"
  follow := "tb_users"
  columns := ["_title"]
  followColumns := ["_name"]
  joinColumns := ["_userId"]
  followWhere :=
    { entries := [("_age", .scalar (.number (.integer 7)))]
      nodup := by decide }
  conds :=
    { entries := [("_name", .array []),
        ("_state", .array [.number (.integer 1), .number (.integer 2)])]
      nodup := by decide }

theorem booksOfUsers_proper : booksOfUsers.Proper := by
  constructor <;> decide +kernel

theorem booksOfUsers_kept : booksOfUsers.Kept demoRuntime :=
  (LeftJoin.kept_iff demoRuntime booksOfUsers booksOfUsers_proper).mpr
    ⟨by decide +kernel, by decide +kernel, .inr rfl, .inr rfl, by decide +kernel⟩

/-- The books of a name in a state. -/
def namedBooks : LeftJoin where
  main := "tb_books"
  follow := "tb_users"
  columns := []
  followColumns := []
  joinColumns := ["_userId"]
  followWhere := ⟨[], by decide⟩
  conds :=
    { entries := [("_name", .scalar (.string "NSString" "Ann")),
      ("_state", .scalar (.number (.integer 1)))]
      nodup := by decide }

theorem namedBooks_proper : namedBooks.Proper := by
  constructor <;> decide +kernel

/-- The second of two keys is not qualified, and ambiguous when both tables have a state. -/
theorem second_key_ambiguous :
    createUnionSelectSQLWithParams namedBooks.asking = some ("select * from tb_books left join " ++
      "tb_users on tb_books._userId=tb_users._userId  where tb_books. _name=? and _state=?",
      [.string "NSString" "Ann", .number (.integer 1)]) ∧
    (prepareJoin
      ("select * from tb_books left join tb_users on tb_books._userId=tb_users._userId " ++
      " where tb_books. _name=? and _state=?")).map (fun st =>
        selectJoin demoRuntime.conv (fun _ => some namedBooks.wide) st
          [.text "Ann", .num (.int 1)]) =
      some none ∧
    ¬ namedBooks.Kept demoRuntime := by
  refine ⟨by decide +kernel, by decide +kernel, fun h => ?_⟩
  rcases (h.qualified namedBooks_proper).conds with hnone | hone
  · cases hnone
  · cases hone

end NBDataBase
