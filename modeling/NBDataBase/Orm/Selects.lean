import NBDataBase.Orm.Builders

/-!
# Orm — what a select says

The text that `createSelectSQLWithParams` makes of its parameters, clause by clause.

* `Clause`, `tailClauses`: a keyword and what stands behind it; the clauses behind `from`.
* `Spaced`: a text is some pieces in a row, with white space between them.
* `Unmarked`: no ` @t ` in any case in what the parameters put into the text, with the blanks
  around it.
* `replaced_padded`: the table is put in clause by clause.  `spaced_iff`: the text is that of its
  clauses exactly when the parameters are unmarked.
* `limited`: the rows a `limit` clause leaves.
-/

namespace NBDataBase
open Occurrences Sql

/-! ### Clauses -/

/-- A clause: its keyword, and what stands behind it. -/
structure Clause where
  keyword : String
  body : String

def Clause.text (c : Clause) : String := c.keyword ++ (" " ++ c.body)

/-- What stands behind `where`, if there is a condition. -/
def whereText : Option Where → Option String
  | some (.dictionary dic) => some (dictionaryToSqlWhere dic).1
  | some (.string s) => if checkStringIsEmpty s then none else some s
  | _ => none

/-- What stands behind `group by` or `order by`. -/
def givenText (s : Option String) : Option String := if checkIsEmpty s then none else s

/-- What stands behind `limit`. -/
def limitText (params : NBDBQueryParams) : Option String :=
  if params.count > 0 then some (toString params.count ++ (" offset " ++ toString params.offset))
  else if params.offset > 0 then some ("2147483647 offset " ++ toString params.offset)
  else none

/-- The clauses behind `from`. -/
def tailClauses (params : NBDBQueryParams) : List Clause :=
  (whereText (queryCondition params)).toList.map (Clause.mk "where") ++
    ((givenText params.groupBy).toList.map (Clause.mk "group by") ++
      ((givenText params.orderBy).toList.map (Clause.mk "order by") ++
        (limitText params).toList.map (Clause.mk "limit")))

/-- The clauses of the query before its table is put in. -/
def selectClauses (params : NBDBQueryParams) : List Clause :=
  ⟨"select", columnsString params⟩ :: ⟨"from", "@t"⟩ :: tailClauses params

/-- The keywords and bodies of a query of the table `T`, in their order. -/
def selectPieces (T : String) (params : NBDBQueryParams) : List String :=
  "select" :: columnsString params :: "from" :: T ::
    (tailClauses params).flatMap fun c => [c.keyword, c.body]

/-- The query of the table `T` with one blank between its pieces; behind a table without clauses
one blank more. -/
def selectText (T : String) (params : NBDBQueryParams) : String :=
  "select " ++ (columnsString params ++ (" from " ++ (T ++ (" " ++
    String.intercalate " " ((tailClauses params).map Clause.text)))))

/-- A text is the pieces in their order, with white space between them. -/
inductive Spaced : List String → String → Prop where
  | nil : Spaced [] ""
  | cons {piece gap rest : String} {pieces : List String} (hgap : ∀ c ∈ gap.toList, isBlank c)
      (hne : pieces ≠ [] → gap ≠ "") (hrest : Spaced pieces rest) :
      Spaced (piece :: pieces) (piece ++ (gap ++ rest))

/-! ### The marker -/

/-- The marker of the table. -/
abbrev tableMarker : List Char := " @t ".toList

/-- The blank behind a query that ends with the marker in lower case. -/
def ending (body : String) : List Char :=
  if " @t".toList <:+ ' ' :: body.toList then [' '] else []

/-- The bodies of clauses with the blanks around them. -/
def surroundings : List Clause → List (List Char)
  | [] => []
  | [c] => [' ' :: (c.body.toList ++ ending c.body)]
  | c :: d :: cs => (' ' :: (c.body.toList ++ [' '])) :: surroundings (d :: cs)

/-- No marker, in any case, is in the columns or in the clauses behind `from`, with the blanks
around them. -/
structure Unmarked (params : NBDBQueryParams) : Prop where
  columns : ¬ Occurs Char.toLower tableMarker (' ' :: ((columnsString params).toList ++ [' ']))
  tail : ∀ s ∈ surroundings (tailClauses params), ¬ Occurs Char.toLower tableMarker s

/-- A where clause, or none that primary keys would stand for. -/
def Conditioned (params : NBDBQueryParams) : Prop :=
  (whereText (queryCondition params)).isSome ∨ params.usePrimaryKeyIfWhereIsNil = false

/-! ### The text before the table is put in -/

/-- The text of clauses. -/
def clausesText (cs : List Clause) : String := String.intercalate " " (cs.map Clause.text)

/-- A clause that may be left out, behind others. -/
def behind (keyword : String) (body : Option String) : String :=
  (body.map fun x => " " ++ (Clause.mk keyword x).text).getD ""

theorem clausesText_append (cs : List Clause) (hne : cs ≠ []) (keyword : String)
    (body : Option String) : clausesText (cs ++ body.toList.map (Clause.mk keyword)) =
      clausesText cs ++ behind keyword body := by
  cases body with
  | none => simp [behind]
  | some x =>
      rw [clausesText, List.map_append,
        String.intercalate_append_of_ne_nil (by simpa using hne) (by simp)]
      simp [clausesText, behind, String.append_assoc]

/-- The text of the query before its table is put in. -/
theorem clausesText_select (params : NBDBQueryParams) : clausesText (selectClauses params) =
    "select " ++ (columnsString params ++ " from @t") ++
      behind "where" (whereText (queryCondition params)) ++
      behind "group by" (givenText params.groupBy) ++
      behind "order by" (givenText params.orderBy) ++ behind "limit" (limitText params) := by
  have hstart : clausesText [⟨"select", columnsString params⟩, ⟨"from", "@t"⟩] =
      "select " ++ (columnsString params ++ " from @t") := by
    have hselect : "select " = "select" ++ " " := by decide
    have hfrom : " from @t" = " " ++ ("from" ++ (" " ++ "@t")) := by decide
    rw [clausesText, hselect, hfrom]
    simp only [List.map_cons, List.map_nil, String.intercalate_cons_cons,
      String.intercalate_singleton, Clause.text, String.append_assoc]
  have hsplit : selectClauses params = [⟨"select", columnsString params⟩, ⟨"from", "@t"⟩] ++
      (whereText (queryCondition params)).toList.map (Clause.mk "where") ++
      (givenText params.groupBy).toList.map (Clause.mk "group by") ++
      (givenText params.orderBy).toList.map (Clause.mk "order by") ++
      (limitText params).toList.map (Clause.mk "limit") := by
    simp [selectClauses, tailClauses, List.append_assoc]
  rw [hsplit, clausesText_append _ (by simp), clausesText_append _ (by simp),
    clausesText_append _ (by simp), clausesText_append _ (by simp), hstart]

theorem behind_where (x : String) : behind "where" (some x) = " where " ++ x := by
  have hkeyword : " where " = " " ++ ("where" ++ " ") := by decide
  rw [hkeyword]
  simp only [behind, Clause.text, Option.map_some, Option.getD_some, String.append_assoc]

theorem sqlString_behind (params : NBDBQueryParams) (sql : String) : sqlString sql params =
    sql ++ behind "group by" (givenText params.groupBy) ++
      behind "order by" (givenText params.orderBy) ++ behind "limit" (limitText params) := by
  have hgiven : ∀ (keyword lead : String) (s : Option String) (sql : String),
      lead = " " ++ (keyword ++ " ") →
      (if checkIsEmpty s then sql else sql ++ (lead ++ formatted s)) =
        sql ++ behind keyword (givenText s) := by
    intro keyword lead s sql hlead
    by_cases hs : checkIsEmpty s
    · rw [if_pos hs, givenText, if_pos hs, behind, Option.map_none, Option.getD_none,
        String.append_empty]
    · obtain ⟨x, rfl⟩ : ∃ x, s = some x := by
        cases s with
        | none => exact absurd rfl hs
        | some x => exact ⟨x, rfl⟩
      rw [if_neg hs, givenText, if_neg hs, hlead]
      simp only [behind, Clause.text, formatted, Option.map_some, Option.getD_some,
        String.append_assoc]
  have hlimit : ∀ sql : String, (if params.count > 0 then
      sql ++ (" limit " ++ (toString params.count ++ (" offset " ++ toString params.offset)))
      else if params.offset > 0 then sql ++ (" limit 2147483647 offset " ++ toString params.offset)
      else sql) = sql ++ behind "limit" (limitText params) := by
    intro sql
    have hkeyword : " limit " = " " ++ ("limit" ++ " ") := by decide
    have hmax : " limit 2147483647 offset " =
      " " ++ ("limit" ++ (" " ++ "2147483647 offset ")) := by decide
    unfold limitText
    split
    · rw [hkeyword]
      simp only [behind, Clause.text, Option.map_some, Option.getD_some, String.append_assoc]
    · split
      · rw [hmax]
        simp only [behind, Clause.text, Option.map_some, Option.getD_some, String.append_assoc]
      · simp [behind]
  unfold sqlString
  simp only [hgiven "group by" " group by " params.groupBy sql (by decide),
    hgiven "order by" " order by " params.orderBy _ (by decide), hlimit]

/-- What `extractWhereSql` puts behind a query. -/
theorem extractWhereSql_behind (R : Runtime) {condition : Option Where} {flag : Bool}
    (hdic : ∀ dic, condition = some (.dictionary dic) → dic.entries.length > 0)
    (h : (whereText condition).isSome ∨ flag = false) : ∃ values, ∀ sql,
      extractWhereSql R sql condition flag none =
        .ok ⟨sql ++ behind "where" (whereText condition), values, false⟩ := by
  -- without a condition no clause is put behind it, since no primary keys are asked for
  have hkeys : whereText condition = none → ∀ sql,
      extractWhereSql.byPrimaryKey R sql flag none =
        .ok ⟨sql ++ behind "where" (whereText condition), [], false⟩ := by
    intro hwhere sql
    rw [hwhere] at h ⊢
    obtain rfl : flag = false := h.resolve_left (by simp)
    rw [behind, Option.map_none, Option.getD_none, String.append_empty]
    rfl
  rcases condition with _ | (s | dic | _)
  · exact ⟨[], hkeys rfl⟩
  · by_cases hs : checkStringIsEmpty s
    · have hwhere : whereText (some (.string s)) = none := by rw [whereText, if_pos hs]
      refine ⟨[], fun sql => ?_⟩
      rw [extractWhereSql]
      simp only [hs, if_true]
      exact hkeys hwhere sql
    · have hwhere : whereText (some (.string s)) = some s := by rw [whereText, if_neg hs]
      refine ⟨[], fun sql => ?_⟩
      rw [hwhere, behind_where, extractWhereSql]
      simp only [hs]
      rfl
  · refine ⟨(dictionaryToSqlWhere dic).2, fun sql => ?_⟩
    rw [whereText, behind_where, extractWhereSql]
    simp only [if_pos (hdic dic rfl)]
    rfl
  · exact ⟨[], hkeys rfl⟩

/-- The query is the text of its clauses with the table put in. -/
theorem createSelectSQLWithParams_clauses (R : Runtime) {params : NBDBQueryParams} {T : String}
    (hT : mainTableName params = some T) (hblank : checkStringIsEmpty T = false)
    (h : Conditioned params) : ∃ values, createSelectSQLWithParams R params =
      .ok (some (replaceTableName (clausesText (selectClauses params)) T, values)) := by
  obtain ⟨values, hrun⟩ := extractWhereSql_behind R
    (fun _ hdic => (queryCondition_dictionary hdic).2) h
  refine ⟨values, ?_⟩
  rw [createSelectSQLWithParams_eq R hT hblank, hrun, clausesText_select, ← sqlString_behind]
  rfl

/-! ### Putting the table in, clause by clause -/

/-- The keyword of each clause, and its body with the blanks around it. -/
def padded (cs : List Clause) : List (List Char × List Char) :=
  (cs.map fun c => c.keyword.toList).zip (surroundings cs)

theorem padded_cons (c d : Clause) (cs : List Clause) : padded (c :: d :: cs) =
    (c.keyword.toList, ' ' :: (c.body.toList ++ [' '])) :: padded (d :: cs) := rfl

/-- The blank that is put behind a query. -/
theorem suffix_marker_iff (pre body : List Char) :
    " @t".toList <:+ pre ++ ' ' :: body ↔ " @t".toList <:+ ' ' :: body := by
  have hmark : " @t".toList = [' ', '@', 't'] := rfl
  refine ⟨fun h => ?_, fun h => h.trans (List.suffix_append _ _)⟩
  by_cases hlong : 3 ≤ (' ' :: body).length
  · exact List.suffix_of_suffix_length_le h (List.suffix_append _ _) (by simpa using hlong)
  -- a body of less than two characters puts its blank in place of a character of the marker
  · exfalso
    obtain ⟨x, hx⟩ := h
    rw [hmark] at hx
    rcases body with _ | ⟨a, _ | ⟨b, body⟩⟩
    · have hlast := congrArg List.getLast? hx
      simp at hlast
    · have hlast := congrArg (fun s => s.dropLast.getLast?) hx
      simp [List.dropLast_append_of_ne_nil] at hlast
    · simp at hlong

theorem toList_clausesText_cons (c d : Clause) (cs : List Clause) :
    (clausesText (c :: d :: cs)).toList =
      c.keyword.toList ++ ' ' :: (c.body.toList ++ ' ' :: (clausesText (d :: cs)).toList) := by
  have hblank : " ".toList = [' '] := rfl
  rw [clausesText, List.map_cons, List.map_cons, String.intercalate_cons_cons]
  simp [clausesText, Clause.text, hblank]

/-- The text of clauses with the blank that is put behind it. -/
theorem padded_text (cs : List Clause) : (padded cs).flatMap (fun e => e.1 ++ e.2) =
    (clausesText cs).toList ++ if " @t".toList <:+ (clausesText cs).toList then [' '] else [] := by
  have hblank : " ".toList = [' '] := rfl
  induction cs with
  | nil => rfl
  | cons c cs ih =>
      cases cs with
      | nil =>
          have htext : (clausesText [c]).toList = c.keyword.toList ++ ' ' :: c.body.toList := by
            simp [clausesText, Clause.text, hblank]
          have hsuffix := suffix_marker_iff c.keyword.toList c.body.toList
          rw [htext, if_congr hsuffix rfl rfl]
          simp [padded, surroundings, ending]
      | cons d cs =>
          obtain ⟨y, body, htail⟩ :
              ∃ y body, (clausesText (d :: cs)).toList = y ++ ' ' :: body := by
            cases cs with
            | nil =>
                refine ⟨d.keyword.toList, d.body.toList, ?_⟩
                simp [clausesText, Clause.text, hblank]
            | cons e cs => exact ⟨_, _, toList_clausesText_cons d e cs⟩
          have hsuffix : " @t".toList <:+ (clausesText (c :: d :: cs)).toList ↔
              " @t".toList <:+ (clausesText (d :: cs)).toList := by
            have hcons := suffix_marker_iff
              (c.keyword.toList ++ ' ' :: (c.body.toList ++ ' ' :: y)) body
            rw [toList_clausesText_cons, htail, suffix_marker_iff y body, ← hcons]
            simp
          rw [padded_cons, List.flatMap_cons, ih, if_congr hsuffix rfl rfl, toList_clausesText_cons]
          simp

/-- A word of a statement: no marker starts at it. -/
structure Keyword (k : List Char) : Prop where
  ne : k ≠ []
  free : '@' ∉ k

theorem Keyword.chain {k : List Char} (hk : Keyword k) :
    (k ++ [' ']).IsChain (Apart Char.toLower tableMarker) := chain_of_free hk.free

/-- No marker goes over the cut between a blank and a keyword. -/
theorem sealed_blank {k : List Char} (hk : Keyword k) (s t : List Char) :
    Sealed Char.toLower tableMarker (s ++ [' ']) (k ++ t) := by
  obtain ⟨r, k, rfl⟩ := List.exists_cons_of_ne_nil hk.ne
  have hr : r ≠ '@' := fun h => hk.free (h ▸ List.mem_cons_self)
  intro w hw hne hlen hstarts
  have hmarker : tableMarker.map Char.toLower = [' ', '@', 't', ' '] := rfl
  obtain ⟨w, rfl⟩ : ∃ v, w = v ++ [' '] := by
    rcases List.suffix_concat_iff.mp hw with rfl | ⟨v, rfl, -⟩
    · exact absurd rfl hne
    · exact ⟨v, rfl⟩
  obtain ⟨rest, hrest⟩ := hstarts
  rw [hmarker] at hrest
  rcases w with _ | ⟨a, _ | ⟨b, _ | ⟨c, w⟩⟩⟩
  · -- the keyword would start with the `@`
    simp only [List.nil_append, List.cons_append, List.map_cons, List.cons.injEq] at hrest
    exact hr (toLower_eq (d := '@') (by decide) hrest.2.1.symm)
  · simp only [List.cons_append, List.nil_append, List.map_cons, List.cons.injEq] at hrest
    exact absurd hrest.2.1 (by decide)
  · simp only [List.cons_append, List.nil_append, List.map_cons, List.cons.injEq] at hrest
    exact absurd hrest.2.2.1 (by decide)
  · have hfour : tableMarker.length = 4 := rfl
    rw [hfour] at hlen
    simp at hlen
    omega

/-- **The table is put in clause by clause.** -/
theorem replaced_padded {cs : List Clause} (hkeys : ∀ c ∈ cs, Keyword c.keyword.toList)
    (str : List Char) :
    replaced Char.toLower tableMarker str 0 ((padded cs).flatMap fun e => e.1 ++ e.2) =
      (padded cs).flatMap fun e => e.1 ++ replaced Char.toLower tableMarker str 0 e.2 := by
  induction cs with
  | nil => rfl
  | cons c cs ih =>
      have hkey := hkeys c List.mem_cons_self
      have ih := ih fun d hd => hkeys d (List.mem_cons_of_mem _ hd)
      cases cs with
      | nil =>
          simp only [padded, surroundings, List.map_cons, List.map_nil, List.zip_cons_cons,
            List.zip_nil_left, List.flatMap_cons, List.flatMap_nil, List.append_nil]
          exact replaced_run hkey.chain
      | cons d cs =>
          have hd := hkeys d (List.mem_cons_of_mem _ List.mem_cons_self)
          obtain ⟨t, ht⟩ : ∃ t, (padded (d :: cs)).flatMap (fun e => e.1 ++ e.2) =
              d.keyword.toList ++ t := by
            cases cs with
            | nil => exact ⟨_, List.append_nil _⟩
            | cons e cs => exact ⟨_, by rw [padded_cons, List.flatMap_cons, List.append_assoc]⟩
          have hcut : replaced Char.toLower tableMarker str 0
              ((' ' :: c.body.toList ++ [' ']) ++ (d.keyword.toList ++ t)) = _ :=
            replaced_append (by decide) (sealed_blank hd (' ' :: c.body.toList) t)
          rw [padded_cons, List.flatMap_cons, List.flatMap_cons, List.append_assoc,
            List.append_assoc, ← ih, ht, ← List.cons_append, ← hcut]
          exact replaced_run hkey.chain

/-! ### The text with the table -/

theorem tailClauses_keyword (params : NBDBQueryParams) :
    ∀ c ∈ tailClauses params, Keyword c.keyword.toList := by
  have hone : ∀ (k : String) (body : Option String), Keyword k.toList →
      ∀ c ∈ body.toList.map (Clause.mk k), Keyword c.keyword.toList := by
    intro k body hk c hc
    obtain ⟨x, -, rfl⟩ := List.mem_map.mp hc
    exact hk
  intro c hc
  rcases List.mem_append.mp hc with hc | hc
  · exact hone _ _ ⟨by decide, by decide⟩ c hc
  rcases List.mem_append.mp hc with hc | hc
  · exact hone _ _ ⟨by decide, by decide⟩ c hc
  rcases List.mem_append.mp hc with hc | hc
  · exact hone _ _ ⟨by decide, by decide⟩ c hc
  · exact hone _ _ ⟨by decide, by decide⟩ c hc

theorem padded_select (params : NBDBQueryParams) : padded (selectClauses params) =
    ("select".toList, ' ' :: ((columnsString params).toList ++ [' '])) ::
      ("from".toList, tableMarker) :: padded (tailClauses params) := by
  rw [selectClauses, padded_cons]
  cases tailClauses params with
  | nil => rfl
  | cons c cs => rfl

/-- What takes the place of the marker. -/
abbrev placedTable (T : String) : List Char := (" " ++ (T ++ " ")).toList

theorem replaced_marker (T : String) :
    replaced Char.toLower tableMarker (placedTable T) 0 tableMarker = placedTable T := by
  have h : replaced Char.toLower tableMarker (placedTable T) 0 (tableMarker ++ []) = _ :=
    replaced_starts (by decide) rfl []
  simpa [replaced] using h

/-- The text of a query of the table `T`. -/
theorem replaceTableName_clauses (T : String) (params : NBDBQueryParams) :
    (replaceTableName (clausesText (selectClauses params)) T).toList =
      "select".toList ++ (replaced Char.toLower tableMarker (placedTable T) 0
          (' ' :: ((columnsString params).toList ++ [' '])) ++
        ("from".toList ++ (placedTable T ++ (padded (tailClauses params)).flatMap fun e =>
          e.1 ++ replaced Char.toLower tableMarker (placedTable T) 0 e.2))) := by
  have hquery : (if " @t".toList <:+ (clausesText (selectClauses params)).toList then
      clausesText (selectClauses params) ++ " " else clausesText (selectClauses params)).toList =
      (padded (selectClauses params)).flatMap fun e => e.1 ++ e.2 := by
    rw [padded_text]
    split
    · rw [String.toList_append]
      rfl
    · exact (List.append_nil _).symm
  have hselect : Keyword "select".toList := ⟨by decide, by decide⟩
  have hfrom : Keyword "from".toList := ⟨by decide, by decide⟩
  have hkeys : ∀ c ∈ selectClauses params, Keyword c.keyword.toList := by
    intro c hc
    rcases List.mem_cons.mp hc with rfl | hc
    · exact hselect
    rcases List.mem_cons.mp hc with rfl | hc
    · exact hfrom
    · exact tailClauses_keyword params c hc
  have hpadded := replaced_padded hkeys (placedTable T)
  rw [replaceTableName, String.toList_ofList, replaceOccurrences_eq, hquery]
  rw [hpadded, padded_select, List.flatMap_cons, List.flatMap_cons, replaced_marker]
  simp only [List.append_assoc]

theorem surroundings_length (cs : List Clause) : (surroundings cs).length = cs.length := by
  induction cs with
  | nil => rfl
  | cons c cs ih =>
      cases cs with
      | nil => rfl
      | cons d cs => exact congrArg (· + 1) ih

theorem mem_surroundings {cs : List Clause} {e : List Char × List Char} (he : e ∈ padded cs) :
    e.2 ∈ surroundings cs := (List.of_mem_zip he).2

theorem exists_of_mem_surroundings {cs : List Clause} {s : List Char} (hs : s ∈ surroundings cs) :
    ∃ e ∈ padded cs, e.2 = s := by
  have hmap : (padded cs).map (·.2) = surroundings cs :=
    List.map_snd_zip (by rw [surroundings_length, List.length_map])
  obtain ⟨e, he, rfl⟩ := List.mem_map.mp (hmap ▸ hs)
  exact ⟨e, he, rfl⟩

/-- Clauses that have no marker are kept, and nothing is put behind them. -/
theorem padded_free {cs : List Clause} (hkeys : ∀ c ∈ cs, Keyword c.keyword.toList)
    (h : ∀ s ∈ surroundings cs, ¬ Occurs Char.toLower tableMarker s) (str : List Char) :
    ((padded cs).flatMap fun e => e.1 ++ replaced Char.toLower tableMarker str 0 e.2) =
      (clausesText cs).toList := by
  have hkeep : ∀ str : List Char,
      ((padded cs).flatMap fun e => e.1 ++ replaced Char.toLower tableMarker str 0 e.2) =
        (padded cs).flatMap fun e => e.1 ++ e.2 := by
    intro str
    refine List.flatMap_congr fun e he => ?_
    rw [replaced_of_free (h _ (mem_surroundings he))]
  have hfree : ¬ Occurs Char.toLower tableMarker ((padded cs).flatMap fun e => e.1 ++ e.2) := by
    have hsame := (replaced_padded hkeys []).trans (hkeep [])
    exact (filter_replaced_eq_iff (p := fun _ => true) (fun _ _ _ => rfl) (by decide)
      (by decide) _).mp (congrArg (List.filter fun _ => true) hsame)
  rw [hkeep, padded_text]
  rw [padded_text] at hfree
  split at hfree
  · rename_i hends
    obtain ⟨pre, hpre⟩ := hends
    rw [← hpre, List.append_assoc] at hfree
    exact absurd (Occurs.append_left List.infix_rfl pre) hfree
  · rename_i hends
    rw [if_neg hends, List.append_nil]

/-- **Unmarked parameters are said as they are.** -/
theorem replaceTableName_unmarked (T : String) {params : NBDBQueryParams} (h : Unmarked params) :
    replaceTableName (clausesText (selectClauses params)) T = selectText T params := by
  have htail := padded_free (tailClauses_keyword params) h.tail (placedTable T)
  have hblank : " ".toList = [' '] := rfl
  have hselect : "select ".toList = "select".toList ++ [' '] := rfl
  have hfrom : " from ".toList = ' ' :: ("from".toList ++ [' ']) := rfl
  refine String.toList_inj.mp ?_
  rw [replaceTableName_clauses, replaced_of_free h.columns, htail, selectText, clausesText]
  simp only [String.toList_append, hblank, hselect, hfrom, List.append_assoc, List.cons_append,
    List.nil_append]

/-! ### White space -/

/-- What is no white space. -/
def solid (s : List Char) : List Char := s.filter fun c => !isBlank c

theorem solid_append (s t : List Char) : solid (s ++ t) = solid s ++ solid t :=
  List.filter_append s t

theorem solid_blank {s : List Char} (h : ∀ c ∈ s, isBlank c) : solid s = [] := by
  refine List.filter_eq_nil_iff.mpr fun c hc => ?_
  rw [h c hc]
  decide

/-- The case of a letter leaves white space and the rest apart. -/
theorem isBlank_of_toLower {a b : Char} (h : a.toLower = b.toLower) : isBlank a = isBlank b := by
  have hiff : ∀ c : Char, isBlank c.toLower = isBlank c := by
    have hone : ∀ d : Char, d.val.toNat < 97 → d.toLower = d → ∀ c : Char,
        (c.toLower == d) = (c == d) := by
      intro d hd hlow c
      rw [Bool.eq_iff_iff, beq_iff_eq, beq_iff_eq]
      exact ⟨toLower_eq hd, fun hc => by rw [hc, hlow]⟩
    intro c
    simp only [isBlank, hone ' ' (by decide) rfl, hone '\t' (by decide) rfl,
      hone '\n' (by decide) rfl, hone '\r' (by decide) rfl, hone '\x0c' (by decide) rfl]
  rw [← hiff a, h, hiff b]

theorem Spaced.solid {pieces : List String} {text : String} (h : Spaced pieces text) :
    solid text.toList = pieces.flatMap fun x => NBDataBase.solid x.toList := by
  induction h with
  | nil => rfl
  | cons hgap _ _ ih =>
      rw [String.toList_append, String.toList_append, solid_append, solid_append,
        solid_blank hgap, List.nil_append, ih, List.flatMap_cons]

theorem isBlank_gap : ∀ c ∈ " ".toList, isBlank c := by
  intro c hc
  obtain rfl : c = ' ' := List.mem_singleton.mp hc
  rfl

theorem spaced_clauses (cs : List Clause) :
    Spaced (cs.flatMap fun c => [c.keyword, c.body]) (clausesText cs) := by
  have hnone : ∀ c ∈ "".toList, isBlank c := fun c hc => absurd hc List.not_mem_nil
  induction cs with
  | nil => exact .nil
  | cons c cs ih =>
      cases cs with
      | nil =>
          have htext : clausesText [c] = c.keyword ++ (" " ++ (c.body ++ ("" ++ ""))) := by
            simp [clausesText, Clause.text]
          rw [htext]
          exact .cons isBlank_gap (by simp) (.cons hnone (by simp) .nil)
      | cons d cs =>
          have htext : clausesText (c :: d :: cs) =
              c.keyword ++ (" " ++ (c.body ++ (" " ++ clausesText (d :: cs)))) := by
            rw [clausesText, List.map_cons, List.map_cons, String.intercalate_cons_cons]
            simp [clausesText, Clause.text, String.append_assoc]
          rw [htext]
          exact .cons isBlank_gap (by simp) (.cons isBlank_gap (by simp) ih)

/-- The text of a select is its pieces. -/
theorem spaced_selectText (T : String) (params : NBDBQueryParams) :
    Spaced (selectPieces T params) (selectText T params) := by
  have hselect : "select " = "select" ++ " " := by decide
  have hfrom : " from " = " " ++ ("from" ++ " ") := by decide
  rw [selectText, hselect, hfrom]
  simp only [String.append_assoc]
  exact .cons isBlank_gap (by simp) (.cons isBlank_gap (by simp) (.cons isBlank_gap (by simp)
    (.cons isBlank_gap (by simp) (spaced_clauses _))))

/-- A text of which no white space is left out says its parts only when the parts are
unchanged: all of them can only grow, or all can only shrink. -/
theorem solid_inj_of_flatten {T : String} {es : List (List Char × List Char)}
    (h : (es.map fun e => solid e.1 ++ solid (replaced Char.toLower tableMarker (placedTable T) 0
      e.2)).flatten = (es.map fun e => solid e.1 ++ solid e.2).flatten) :
    ∀ e ∈ es, solid (replaced Char.toLower tableMarker (placedTable T) 0 e.2) = solid e.2 := by
  have hkind : ∀ a b : Char, a.toLower = b.toLower → (!isBlank a) = !isBlank b :=
    fun a b hab => by rw [isBlank_of_toLower hab]
  have hne : tableMarker ≠ [] := by decide
  have hrows : (es.map fun e => solid e.1 ++
      solid (replaced Char.toLower tableMarker (placedTable T) 0 e.2)) = es.map fun e =>
        solid e.1 ++ solid e.2 := by
    rcases le_total (solid (placedTable T)).length (solid tableMarker).length with hle | hle
    · refine eq_of_flatten_eq (List.forall₂_map_left_iff.mpr (List.forall₂_map_right_iff.mpr
        (List.forall₂_same.mpr fun e _ => ?_))) h
      rw [List.length_append, List.length_append]
      exact Nat.add_le_add_left (length_filter_replaced_le hkind hne hle e.2) _
    · refine (eq_of_flatten_eq (List.forall₂_map_left_iff.mpr (List.forall₂_map_right_iff.mpr
        (List.forall₂_same.mpr fun e _ => ?_))) h.symm).symm
      rw [List.length_append, List.length_append]
      exact Nat.add_le_add_left (le_length_filter_replaced hkind hne hle e.2) _
  intro e he
  have hone := List.map_inj_left.mp hrows e he
  exact List.append_cancel_left hone

/-- **A select says its clauses** only when the parameters are unmarked, unless the table is called
like the marker. -/
theorem unmarked_of_spaced {T : String} {params : NBDBQueryParams}
    (hT : (solid T.toList).map Char.toLower ≠ "@t".toList)
    (h : Spaced (selectPieces T params)
      (replaceTableName (clausesText (selectClauses params)) T)) : Unmarked params := by
  have hkind : ∀ a b : Char, a.toLower = b.toLower → (!isBlank a) = !isBlank b :=
    fun a b hab => by rw [isBlank_of_toLower hab]
  have hblank : solid " ".toList = [] := solid_blank isBlank_gap
  have hname : solid (placedTable T) = solid T.toList := by
    rw [placedTable, String.toList_append, String.toList_append, solid_append, solid_append, hblank,
      List.nil_append, List.append_nil]
  have hbody : ∀ x : List Char, solid (' ' :: (x ++ [' '])) = solid x := fun x => by
    have hsplit : ' ' :: (x ++ [' ']) = " ".toList ++ (x ++ " ".toList) := rfl
    rw [hsplit, solid_append, solid_append, hblank, List.nil_append, List.append_nil]
  have htail : ∀ cs : List Clause, (padded cs).flatMap (fun e => solid e.1 ++ solid e.2) =
      (cs.flatMap fun c => [c.keyword, c.body]).flatMap fun x => solid x.toList := by
    intro cs
    induction cs with
    | nil => rfl
    | cons c cs ih =>
        cases cs with
        | nil =>
            have hend : solid (ending c.body) = [] := by
              unfold ending
              split
              · exact hblank
              · rfl
            have hlast : solid (' ' :: (c.body.toList ++ ending c.body)) = solid c.body.toList := by
              have hsplit : ' ' :: (c.body.toList ++ ending c.body) =
                " ".toList ++ (c.body.toList ++ ending c.body) := rfl
              rw [hsplit, solid_append, solid_append, hblank, hend, List.nil_append,
                List.append_nil]
            simp [padded, surroundings, hlast]
        | cons d cs =>
            rw [padded_cons, List.flatMap_cons, ih, hbody, List.flatMap_cons, List.flatMap_append]
            simp
  have hpieces : ∀ es : List (List Char × List Char),
      solid (es.flatMap fun e => e.1 ++ replaced Char.toLower tableMarker (placedTable T) 0 e.2) =
        es.flatMap fun e => solid e.1 ++
          solid (replaced Char.toLower tableMarker (placedTable T) 0 e.2) := fun es => by
    rw [solid, List.filter_flatMap]
    exact List.flatMap_congr fun e _ => solid_append e.1 _
  -- what is no white space, piece by piece, with the table as a piece of its own
  have hsolid := h.solid
  rw [replaceTableName_clauses] at hsolid
  have hrows := @solid_inj_of_flatten T
    (("select".toList, ' ' :: ((columnsString params).toList ++ [' '])) ::
      ("from".toList ++ T.toList, []) :: padded (tailClauses params)) (by
    have hnil : replaced Char.toLower tableMarker (placedTable T) 0 [] = [] := rfl
    have hempty : solid [] = [] := rfl
    simp only [List.map_cons, List.flatten_cons, ← List.flatMap_def, hnil, htail, hbody]
    simp only [selectPieces, List.flatMap_cons, solid_append, hname, hpieces] at hsolid
    simpa only [solid_append, List.append_assoc, hempty, List.nil_append] using hsolid)
  have hmarker : (solid tableMarker).map Char.toLower = "@t".toList := by decide
  have hfree := fun e he => (filter_replaced_eq_iff hkind (by decide)
    (fun heq => hT (hname ▸ heq.trans hmarker)) _).mp (hrows e he)
  refine ⟨hfree _ List.mem_cons_self, fun s hs => ?_⟩
  obtain ⟨e, he, rfl⟩ := exists_of_mem_surroundings hs
  exact hfree e (List.mem_cons_of_mem _ (List.mem_cons_of_mem _ he))

/-! ### The rows a limit leaves -/

/-- The numbers of `n offset m`. -/
def readLimit (body : String) : Option (ℤ × ℤ) :=
  match (body.toList.splitOn ' ').map String.ofList with
  | [n, word, m] =>
      if word = "offset" then do return (← n.toInt?, ← m.toInt?) else none
  | _ => none

/-- The rows SQLite keeps of `limit n offset m`: a negative offset is 0, and a negative limit is
none. -/
def limitRows {α : Type} (n m : ℤ) (rows : List α) : List α :=
  if n < 0 then rows.drop m.toNat else (rows.drop m.toNat).take n.toNat

/-- The rows under a limit clause, or under none. -/
def limited {α : Type} (body : Option String) (rows : List α) : Option (List α) :=
  match body with
  | none => some rows
  | some body => (readLimit body).map fun l => limitRows l.1 l.2 rows

theorem readLimit_text (n m : ℤ) :
    readLimit (toString n ++ (" offset " ++ toString m)) = some (n, m) := by
  have hblank : ∀ k : ℤ, ' ' ∉ (toString k).toList := fun k h => by
    rcases mem_toString h with h | h
    · exact absurd h (by decide)
    · exact absurd h (by decide)
  have hchars : (toString n ++ (" offset " ++ toString m)).toList =
      (toString n).toList ++ ' ' :: ("offset".toList ++ ' ' :: (toString m).toList) := by
    rw [String.toList_append, String.toList_append]
    rfl
  have hword : ' ' ∉ "offset".toList := by decide
  have hsplit : (toString n ++ (" offset " ++ toString m)).toList.splitOn ' ' =
      [(toString n).toList, "offset".toList, (toString m).toList] := by
    rw [hchars, List.splitOn_append_cons_self, List.splitOn_eq_singleton (hblank n),
      List.splitOn_append_cons_self, List.splitOn_eq_singleton hword,
      List.splitOn_eq_singleton (hblank m)]
    rfl
  have hint : ∀ k : ℤ, (toString k).toInt? = some k := fun k => by
    rw [Int.toString_eq_repr, Int.toInt?_repr]
  rw [readLimit, hsplit]
  simp only [List.map_cons, List.map_nil, String.ofList_toList, if_true, hint]
  rfl

/-- A limit clause drops the rows before the offset and keeps as many of the rest as are asked
for. -/
theorem limited_limitText {α : Type} (params : NBDBQueryParams) (rows : List α)
    (h : rows.length < 2 ^ 31) : limited (limitText params) rows =
      some (if params.count > 0 then
        (rows.drop (max params.offset 0).toNat).take params.count.toNat
      else rows.drop (max params.offset 0).toNat) := by
  have hoffset : (max params.offset 0).toNat = params.offset.toNat := by omega
  have hmax : "2147483647 offset " = toString (2147483647 : ℤ) ++ " offset " := by decide
  rw [hoffset]
  unfold limitText
  by_cases hcount : params.count > 0
  · rw [if_pos hcount, if_pos hcount, limited, readLimit_text, Option.map_some, limitRows,
      if_neg (by omega)]
  · rw [if_neg hcount, if_neg hcount]
    by_cases hpos : params.offset > 0
    · have hall : (rows.drop params.offset.toNat).length ≤ (2147483647 : ℤ).toNat := by
        rw [List.length_drop]
        omega
      rw [if_pos hpos, hmax, String.append_assoc, limited, readLimit_text, Option.map_some,
        limitRows, if_neg (by simp), List.take_of_length_le hall]
    · have hzero : params.offset.toNat = 0 := by omega
      rw [if_neg hpos, limited, hzero, List.drop_zero]

/-! ### What a select says -/

/-- **A select says what its parameters say** exactly when they are unmarked, for every table that
is not called like the marker; and its limit leaves the rows that are asked for. -/
theorem selectText_iff (R : Runtime) {params : NBDBQueryParams} {T : String}
    (hT : mainTableName params = some T) (hblank : checkStringIsEmpty T = false)
    (hwhere : Conditioned params) :
    ∃ text values, createSelectSQLWithParams R params = .ok (some (text, values)) ∧
      (Unmarked params → text = selectText T params) ∧
      ((solid T.toList).map Char.toLower ≠ "@t".toList →
        (Spaced (selectPieces T params) text ↔ Unmarked params)) ∧
      ∀ {α : Type} (rows : List α), rows.length < 2 ^ 31 →
        limited (limitText params) rows =
          some (if params.count > 0 then
            (rows.drop (max params.offset 0).toNat).take params.count.toNat
          else rows.drop (max params.offset 0).toNat) := by
  obtain ⟨values, hrun⟩ := createSelectSQLWithParams_clauses R hT hblank hwhere
  refine ⟨_, values, hrun, replaceTableName_unmarked T, fun hname => ⟨?_, ?_⟩, ?_⟩
  · exact unmarked_of_spaced hname
  · intro h
    rw [replaceTableName_unmarked T h]
    exact spaced_selectText T params
  · exact fun rows hrows => limited_limitText params rows hrows

/-- The query of the books with a name, from the third one on. -/
def pagedBooks (name : String) : NBDBQueryParams where
  tableName := some "book"
  condition := some ("name = '" ++ (name ++ "'"))
  offset := 2
  count := 5

/-- The marker is not in a name without blanks. -/
theorem select_pagedBooks : ∃ values, createSelectSQLWithParams demoRuntime (pagedBooks "@t") =
    .ok (some ("select * from book where name = '@t' limit 5 offset 2", values)) := by
  have hmain : mainTableName (pagedBooks "@t") = some "book" := rfl
  obtain ⟨text, values, hrun, htext, -, -⟩ :=
    selectText_iff demoRuntime hmain (by decide) (.inr rfl)
  have hunmarked : Unmarked (pagedBooks "@t") := ⟨by decide, by decide⟩
  have hsay : selectText "book" (pagedBooks "@t") =
      "select * from book where name = '@t' limit 5 offset 2" := by decide
  exact ⟨values, by rw [hrun, htext hunmarked, hsay]⟩

/-- A name with the marker between blanks becomes that of the table. -/
theorem select_marked : createSelectSQLWithParams demoRuntime (pagedBooks "a @t b") =
      .ok (some ("select * from book where name = 'a book b' limit 5 offset 2", [])) ∧
    ¬ Spaced (selectPieces "book" (pagedBooks "a @t b"))
      "select * from book where name = 'a book b' limit 5 offset 2" := by
  refine ⟨rfl, fun h => ?_⟩
  have hsolid := h.solid
  exact absurd hsolid (by decide)

end NBDataBase
