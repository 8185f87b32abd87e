import NBDataBase.Lib.Related
import NBDataBase.Orm.Aligned

/-!
# Orm — the text of a statement does not depend on values

Two calls of a statement builder that differ in the values of their models, of their `where`
dictionaries and of their `set` dictionaries only.  No value gets into the text: both calls raise
the same exception, or neither builds a statement, or both build the same text, with as many
values.

* `Model.Similar`: models of one class that are nil at the same keys.
* `WhereValue.Similar`: an array stands beside an array of its length.
* `BuilderCall.Similar`: calls of one builder that differ in such models and dictionaries.
* `text_independent`: similar calls build one text.

The texts of the arguments, that is a `where` or `set` string, the names of columns and of the
table, are in the statement as they are.
-/

namespace NBDataBase

/-- One text, and as many values. -/
def SameText (q q' : String × List Obj) : Prop := q.1 = q'.1 ∧ q.2.length = q'.2.length

theorem SameText.rfl {q : String × List Obj} : SameText q q := ⟨Eq.refl _, Eq.refl _⟩

/-! ### Similar arguments -/

/-- Models of one class that know the same keys, and are nil at the same. -/
structure Model.Similar (m m' : Model) : Prop where
  cls : m.cls = m'.cls
  keys : ∀ key, (m.valueForKey? key).map Option.isSome = (m'.valueForKey? key).map Option.isSome

inductive WhereValue.Similar : WhereValue → WhereValue → Prop
  | scalar (v v' : Obj) : Similar (.scalar v) (.scalar v')
  | array {vlist vlist' : List Obj} (h : vlist.length = vlist'.length) :
      Similar (.array vlist) (.array vlist')

/-- Dictionaries with the same keys in the same order, and related values. -/
def NSDictionary.Similar {β : Type} (r : β → β → Prop) (dic dic' : NSDictionary β) : Prop :=
  List.Forall₂ (fun e e' => e.1 = e'.1 ∧ r e.2 e'.2) dic.entries dic'.entries

inductive Where.Similar : Where → Where → Prop
  | string (s : String) : Similar (.string s) (.string s)
  | dictionary {dic dic' : NSDictionary WhereValue} (h : dic.Similar WhereValue.Similar dic') :
      Similar (.dictionary dic) (.dictionary dic')
  | other : Similar .other .other

inductive Sets.Similar : Sets → Sets → Prop
  | string (s : String) : Similar (.string s) (.string s)
  | array (columns : List String) : Similar (.array columns) (.array columns)
  | dictionary {dic dic' : NSDictionary Obj} (h : dic.Similar (fun _ _ => True) dic') :
      Similar (.dictionary dic) (.dictionary dic')
  | other : Similar .other .other

/-- Queries that differ in the values of their `where` dictionary. -/
def NBDBQueryParams.Similar (params params' : NBDBQueryParams) : Prop :=
  ∃ dic, params' = { params with whereDic := dic } ∧
    Option.Rel (NSDictionary.Similar WhereValue.Similar) params.whereDic dic

/-- Queries of two tables that differ in the values of their `where` dictionaries. -/
def NBDBUnionParams.Similar (params params' : NBDBUnionParams) : Prop :=
  ∃ dic follow, params' = { params with whereDic := dic, followWhereDic := follow } ∧
    Option.Rel (NSDictionary.Similar WhereValue.Similar) params.whereDic dic ∧
    Option.Rel (NSDictionary.Similar WhereValue.Similar) params.followWhereDic follow

/-- A loop over similar dictionaries that adds to a text. -/
theorem NSDictionary.Similar.foldl {β : Type} {r : β → β → Prop} {dic dic' : NSDictionary β}
    (h : dic.Similar r dic') {f : String × List Obj → String × β → String × List Obj}
    (hf : ∀ s s' e e', SameText s s' → e.1 = e'.1 → r e.2 e'.2 → SameText (f s e) (f s' e')) :
    SameText (dic.entries.foldl f ("", [])) (dic'.entries.foldl f ("", [])) :=
  List.rel_foldl (P := SameText) (R := fun e e' : String × β => e.1 = e'.1 ∧ r e.2 e'.2)
    (fun _ _ hs _ _ he => hf _ _ _ _ hs he.1 he.2) SameText.rfl h

variable {R : Runtime} {m m' : Model}

/-! ### Reading a model -/

/-- Nil in both, or in neither. -/
abbrev NilAlike (v v' : Option Obj) : Prop := Option.Rel (fun _ _ => True) v v'

theorem nilAlike_of_isSome {v v' : Option Obj} (h : v.isSome = v'.isSome) : NilAlike v v' := by
  cases v with
  | none =>
      cases v' with
      | none => exact .none
      | some v' => cases h
  | some v =>
      cases v' with
      | none => cases h
      | some v' => exact .some trivial

theorem Model.Similar.valueForKey (h : m.Similar m') (key : String) :
    Related NilAlike (m.valueForKey key) (m'.valueForKey key) := by
  have hkey := h.keys key
  rw [Model.valueForKey, Model.valueForKey]
  cases hm : m.valueForKey? key with
  | none =>
      rw [hm, Option.map_none] at hkey
      rw [Option.map_eq_none_iff.mp hkey.symm]
      exact .error _
  | some v =>
      rw [hm, Option.map_some] at hkey
      obtain ⟨v', hv', hsome⟩ := Option.map_eq_some_iff.mp hkey.symm
      rw [hv']
      exact .ok (nilAlike_of_isSome hsome.symm)

/-! ### `INSERT` -/

/-- The same lists of names and marks, and as many values. -/
def InsertState.Similar (s s' : InsertState) : Prop :=
  s.keys = s'.keys ∧ s.marks = s'.marks ∧ s.values.length = s'.values.length

theorem InsertState.Similar.append {s s' : InsertState} (h : s.Similar s') (key : String)
    (v v' : Obj) : (s.append key v).Similar (s'.append key v') := by
  obtain ⟨hkeys, hmarks, hvalues⟩ := h
  refine ⟨?_, ?_, ?_⟩
  · simp only [InsertState.append, hkeys]
  · simp only [InsertState.append, hkeys, hmarks]
  · simp only [InsertState.append, List.length_append, hvalues, List.length_singleton]

theorem insertStep_related (h : m.Similar m') (s s' : InsertState) (hs : s.Similar s')
    (p : Property) :
    Related InsertState.Similar (insertStep R m s p) (insertStep R m' s' p) := by
  unfold insertStep
  split
  · rw [h.cls]
    refine (Related.refl (r := Eq) (fun _ => rfl) _).bind ?_
    rintro key _ rfl
    refine (h.valueForKey key).bind fun v v' hv => ?_
    cases hv with
    | none => exact .pure hs
    | some _ => exact .pure (hs.append _ _ _)
  · exact .pure hs

theorem insertColumnStep_related (h : m.Similar m') (s s' : InsertState) (hs : s.Similar s')
    (column : String) :
    Related InsertState.Similar (insertColumnStep m s column) (insertColumnStep m' s' column) := by
  unfold insertColumnStep
  refine (h.valueForKey column).bind fun v v' hv => ?_
  cases hv with
  | none => exact .pure hs
  | some _ => exact .pure (hs.append _ _ _)

theorem insertText_similar {s s' : InsertState} (hs : s.Similar s') (tablename : String)
    (replace : Bool) :
    Option.Rel SameText (insertText tablename replace s) (insertText tablename replace s') := by
  obtain ⟨hkeys, hmarks, hvalues⟩ := hs
  rw [insertText, insertText, hkeys, hmarks]
  split
  · exact .none
  · exact .some ⟨rfl, hvalues⟩

/-- A whole insert of one of two similar models. -/
theorem insert_related (h : m.Similar m') (chain : List ClassDecl) (tablename : String)
    (replace : Bool) :
    Related (Option.Rel SameText)
      ((properties chain).foldlM (insertStep R m) {} >>= fun s =>
        pure (insertText tablename replace s))
      ((properties chain).foldlM (insertStep R m') {} >>= fun s =>
        pure (insertText tablename replace s)) :=
  (Related.foldlM_same (insertStep_related h) _ ⟨rfl, rfl, rfl⟩).bind fun _ _ hs =>
    .pure (insertText_similar hs _ _)

theorem createInsertSQLWithColumns_related (h : m.Similar m') (tableName : Option String)
    (columns : Option Columns) (replace : Bool) :
    Related (Option.Rel SameText) (createInsertSQLWithColumns R m tableName columns replace)
      (createInsertSQLWithColumns R m' tableName columns replace) := by
  rw [createInsertSQLWithColumns, createInsertSQLWithColumns, h.cls]
  cases tableName.or m'.cls.getTableName with
  | none => exact .pure .none
  | some tablename =>
      cases columns with
      | none => exact insert_related h _ _ _
      | some columns =>
          refine (Related.refl (r := Eq) (fun _ => rfl) (columnsArray R columns)).bind ?_
          rintro array _ rfl
          exact (Related.foldlM_same (insertColumnStep_related h) array ⟨rfl, rfl, rfl⟩).bind
            fun _ _ hs => .pure (insertText_similar hs _ _)

/-! ### `WHERE` -/

theorem primaryKeyStep_related (h : m.Similar m') (s s' : String × List Obj) (hs : SameText s s')
    (v : List ClassDecl × Property) :
    Related SameText (primaryKeyStep m s v) (primaryKeyStep m' s' v) := by
  obtain ⟨htext, hvalues⟩ := hs
  unfold primaryKeyStep
  split
  · refine (Related.refl (r := Eq) (fun _ => rfl) _).bind ?_
    rintro key _ rfl
    refine (h.valueForKey key).bind fun value value' hv => ?_
    cases hv with
    | none => exact .pure ⟨htext, hvalues⟩
    | some _ =>
        refine .pure ⟨?_, ?_⟩
        · simp only [htext]
        · simp only [List.length_append, hvalues, List.length_singleton]
  · exact .pure ⟨htext, hvalues⟩

theorem wherePrimaryKey_related (h : m.Similar m') :
    Related SameText (wherePrimaryKeySQLWithModel R m) (wherePrimaryKeySQLWithModel R m') := by
  unfold wherePrimaryKeySQLWithModel
  rw [h.cls]
  refine (Related.foldlM_same (primaryKeyStep_related h) _ ⟨rfl, rfl⟩).bind fun s s' hs => ?_
  rw [hs.1]
  split
  · exact (Related.refl (r := Eq) (fun _ => rfl) _).bind fun _ _ _ => .pure hs
  · exact .pure hs

theorem dictionaryStep_similar {s s' : String × List Obj} (hs : SameText s s')
    {e e' : String × WhereValue} (he : e.1 = e'.1 ∧ WhereValue.Similar e.2 e'.2) :
    SameText (dictionaryStep s e) (dictionaryStep s' e') := by
  obtain ⟨key, value⟩ := e
  obtain ⟨key', value'⟩ := e'
  obtain ⟨rfl, hvalue⟩ := he
  obtain ⟨htext, hvalues⟩ := hs
  cases hvalue with
  | scalar v v' => exact ⟨by simp only [dictionaryStep, htext], by simp [dictionaryStep, hvalues]⟩
  | @array vlist vlist' hlen =>
      cases vlist with
      | nil =>
          rw [List.length_nil] at hlen
          rw [List.length_eq_zero_iff.mp hlen.symm]
          exact ⟨htext, hvalues⟩
      | cons v vlist =>
          cases vlist' with
          | nil => cases hlen
          | cons v' vlist' =>
              have hmarks : (v :: vlist).map (fun _ => "?") = (v' :: vlist').map fun _ => "?" := by
                rw [List.map_const', List.map_const', hlen]
              refine ⟨?_, ?_⟩
              · simp only [dictionaryStep, htext, hmarks]
              · simp only [dictionaryStep, List.length_append, hvalues, hlen]

theorem dictionaryToSqlWhere_similar {dic dic' : NSDictionary WhereValue}
    (h : dic.Similar WhereValue.Similar dic') :
    SameText (dictionaryToSqlWhere dic) (dictionaryToSqlWhere dic') :=
  h.foldl fun _ _ _ _ hs hkey hvalue => dictionaryStep_similar hs ⟨hkey, hvalue⟩

/-- The same text and error, and as many values. -/
def Extracted.Similar (x x' : Extracted) : Prop :=
  x.sql = x'.sql ∧ x.values.length = x'.values.length ∧ x.error = x'.error

theorem Extracted.Similar.rfl {x : Extracted} : x.Similar x := ⟨Eq.refl _, Eq.refl _, Eq.refl _⟩

theorem byPrimaryKey_related {model model' : Option Model}
    (h : Option.Rel Model.Similar model model') (sql : String) (usePrimaryKey : Bool) :
    Related Extracted.Similar (extractWhereSql.byPrimaryKey R sql usePrimaryKey model)
      (extractWhereSql.byPrimaryKey R sql usePrimaryKey model') := by
  unfold extractWhereSql.byPrimaryKey
  split
  · cases h with
    | none => exact .refl (fun _ => .rfl) _
    | some h =>
        refine (wherePrimaryKey_related h).bind ?_
        rintro ⟨pwhere, values⟩ ⟨_, values'⟩ ⟨rfl, hvalues⟩
        dsimp only
        split
        · exact (Related.refl (r := Eq) (fun _ => rfl) _).bind fun _ _ _ => .pure .rfl
        · exact .pure ⟨rfl, hvalues, rfl⟩
  · exact .pure .rfl

theorem extractWhereSql_related {condition condition' : Option Where} {model model' : Option Model}
    (h : Option.Rel Where.Similar condition condition')
    (hm : Option.Rel Model.Similar model model') (sql : String) (usePrimaryKey : Bool) :
    Related Extracted.Similar (extractWhereSql R sql condition usePrimaryKey model)
      (extractWhereSql R sql condition' usePrimaryKey model') := by
  cases h with
  | none => exact byPrimaryKey_related hm _ _
  | some h =>
      cases h with
      | other => exact byPrimaryKey_related hm _ _
      | string s =>
          rw [extractWhereSql, extractWhereSql]
          split
          · exact byPrimaryKey_related hm _ _
          · exact .pure .rfl
      | @dictionary dic dic' hdic =>
          obtain ⟨htext, hvalues⟩ := dictionaryToSqlWhere_similar hdic
          rw [extractWhereSql, extractWhereSql, hdic.length_eq]
          split
          · exact .pure ⟨congrArg (fun wherekey => sql ++ (" where " ++ wherekey)) htext, hvalues,
              rfl⟩
          · exact (Related.refl (r := Eq) (fun _ => rfl) _).bind fun _ _ _ => .pure .rfl

/-! ### `SELECT` -/

theorem createSelectSQLWithPrimaryKey_related (h : m.Similar m') (tableName : Option String)
    (fieldName : Option String) :
    Related (Option.Rel SameText) (createSelectSQLWithPrimaryKeyAndTableName R m tableName
      fieldName)
      (createSelectSQLWithPrimaryKeyAndTableName R m' tableName fieldName) := by
  cases tableName with
  | none => exact .pure .none
  | some tableName =>
      refine (wherePrimaryKey_related h).bind ?_
      rintro ⟨pwhere, values⟩ ⟨_, values'⟩ ⟨rfl, hvalues⟩
      exact .pure (.some ⟨rfl, hvalues⟩)

/-- The condition of similar queries. -/
theorem queryCondition_similar {params params' : NBDBQueryParams} (h : params.Similar params') :
    Option.Rel Where.Similar (queryCondition params) (queryCondition params') := by
  obtain ⟨dic', rfl, hdic⟩ := h
  have hstring : Option.Rel Where.Similar (params.condition.map .string)
      (params.condition.map .string) := by
    cases params.condition with
    | none => exact .none
    | some s => exact .some (.string s)
  unfold queryCondition
  cases hwhere : params.whereDic with
  | none =>
      rw [hwhere] at hdic
      cases hdic
      exact hstring
  | some dic =>
      rw [hwhere] at hdic
      cases hdic with
      | some hdic =>
          dsimp only
          rw [hdic.length_eq]
          split
          · exact .some (.dictionary hdic)
          · exact hstring

theorem createSelectSQLWithParams_related {params params' : NBDBQueryParams}
    (h : params.Similar params') :
    Related (Option.Rel SameText) (createSelectSQLWithParams R params)
      (createSelectSQLWithParams R params') := by
  have hcondition := queryCondition_similar h
  obtain ⟨dic', rfl, -⟩ := h
  have hsame : mainTableName { params with whereDic := dic' } = mainTableName params := rfl
  cases hmain : mainTableName params with
  | none =>
      rw [createSelectSQLWithParams, createSelectSQLWithParams, hsame, hmain]
      exact .pure .none
  | some db_tableName =>
      cases hblank : checkStringIsEmpty db_tableName with
      | true =>
          rw [createSelectSQLWithParams, createSelectSQLWithParams, hsame, hmain]
          simp only [hblank]
          exact .pure .none
      | false =>
          rw [createSelectSQLWithParams_eq (R := R) hmain hblank,
            createSelectSQLWithParams_eq (R := R) (hsame.trans hmain) hblank]
          refine (extractWhereSql_related hcondition .none _ _).bind ?_
          rintro ⟨sql, values, error⟩ ⟨_, values', _⟩ ⟨rfl, hvalues, rfl⟩
          exact .pure (.some ⟨rfl, hvalues⟩)

theorem tableWhere_similar {dic dic' : Option (NSDictionary WhereValue)}
    (h : Option.Rel (NSDictionary.Similar WhereValue.Similar) dic dic') (keyword table : String)
    (condition : Option String) :
    SameText (tableWhere keyword table dic condition)
      (tableWhere keyword table dic' condition) := by
  cases h with
  | none => exact .rfl
  | @some dic dic' hdic =>
      obtain ⟨htext, hvalues⟩ := dictionaryToSqlWhere_similar hdic
      rw [tableWhere, tableWhere]
      dsimp only
      rw [hdic.length_eq]
      split
      · exact ⟨by rw [htext], hvalues⟩
      · exact .rfl

theorem createUnionSelectSQLWithParams_similar {params params' : NBDBUnionParams}
    (h : params.Similar params') :
    Option.Rel SameText (createUnionSelectSQLWithParams params)
      (createUnionSelectSQLWithParams params') := by
  obtain ⟨dic', follow', rfl, hdic, hfollow⟩ := h
  have hmain := tableWhere_similar hdic " where "
  have hon := tableWhere_similar hfollow " and "
  have hsame : mainTableName { params.toNBDBQueryParams with whereDic := dic' } =
      mainTableName params.toNBDBQueryParams := rfl
  rw [createUnionSelectSQLWithParams, createUnionSelectSQLWithParams, hsame]
  cases mainTableName params.toNBDBQueryParams with
  | none => exact .none
  | some mainTable =>
      dsimp only
      split
      · exact .none
      · refine .some ⟨?_, ?_⟩
        · rw [(hmain _ _).1, (hon _ _).1]
          rfl
        · rw [List.length_append, List.length_append, (hmain _ _).2, (hon _ _).2]

/-! ### `UPDATE` -/

theorem UpdateState.append_similar {s s' : UpdateState} (hs : SameText s s') (key : String)
    (v v' : Obj) : SameText (s.append key v) (s'.append key v') := by
  obtain ⟨htext, hvalues⟩ := hs
  exact ⟨by rw [UpdateState.append, UpdateState.append, htext],
    by simp only [UpdateState.append, List.length_append, hvalues, List.length_singleton]⟩

theorem updateColumnStep_related (h : m.Similar m') (s s' : UpdateState) (hs : SameText s s')
    (key : String) :
    Related SameText (updateColumnStep m s key) (updateColumnStep m' s' key) := by
  unfold updateColumnStep
  refine (h.valueForKey key).bind fun v v' hv => ?_
  cases hv with
  | none => exact .error _
  | some _ => exact .pure (UpdateState.append_similar hs _ _ _)

theorem updateStep_related (h : m.Similar m') (s s' : UpdateState) (hs : SameText s s')
    (p : Property) : Related SameText (updateStep m s p) (updateStep m' s' p) := by
  unfold updateStep
  split
  · rw [h.cls]
    refine (Related.refl (r := Eq) (fun _ => rfl) _).bind ?_
    rintro key _ rfl
    split
    · exact .pure hs
    · refine (h.valueForKey key).bind fun v v' hv => ?_
      cases hv with
      | none => exact .pure hs
      | some _ => exact .pure (UpdateState.append_similar hs _ _ _)
  · exact .pure hs

theorem dictionarySets_similar {dic dic' : NSDictionary Obj}
    (h : dic.Similar (fun _ _ => True) dic') :
    SameText (dic.entries.foldl (fun s e => UpdateState.append s e.1 e.2) ("", []))
      (dic'.entries.foldl (fun s e => UpdateState.append s e.1 e.2) ("", [])) :=
  h.foldl fun _ _ _ _ hs hkey _ => hkey ▸ UpdateState.append_similar hs _ _ _

theorem setList_related (h : m.Similar m') {sets sets' : Option Sets}
    (hsets : Option.Rel Sets.Similar sets sets') :
    Related SameText (setList m sets) (setList m' sets') := by
  cases hsets with
  | none =>
      rw [setList, setList, h.cls]
      exact .foldlM_same (updateStep_related h) _ .rfl
  | some hsets =>
      cases hsets with
      | array columns => exact .foldlM_same (updateColumnStep_related h) columns .rfl
      | dictionary hdic => exact .pure (dictionarySets_similar hdic)
      | other => exact .pure .rfl
      | string s =>
          rw [setList, setList, updateSets, updateSets]
          split
          · exact .foldlM_same (updateColumnStep_related h) _ .rfl
          · split
            · exact .pure .rfl
            · exact updateColumnStep_related h _ _ .rfl s

theorem createUpdateSQLWithModel_related (h : m.Similar m') (tableName : Option String)
    {sets sets' : Option Sets} (hsets : Option.Rel Sets.Similar sets sets')
    {condition condition' : Option Where} (hc : Option.Rel Where.Similar condition condition') :
    Related (Option.Rel SameText)
      (createUpdateSQLWithModelAndTableName R m tableName sets condition)
      (createUpdateSQLWithModelAndTableName R m' tableName sets' condition') := by
  unfold createUpdateSQLWithModelAndTableName
  refine (setList_related h hsets).bind ?_
  rintro ⟨updateKey, values⟩ ⟨_, values'⟩ ⟨rfl, hvalues⟩
  refine (extractWhereSql_related hc (.some h) _ _).bind ?_
  rintro ⟨sql, ws, error⟩ ⟨_, ws', _⟩ ⟨rfl, hws, rfl⟩
  dsimp only at hws ⊢
  split
  · exact .pure .none
  · exact .pure (.some ⟨rfl, by simp only [List.length_append, hvalues, hws]⟩)

theorem createUpdateSQLWithTableName_related (tableName : Option String) {sets sets' : Option Sets}
    (hsets : Option.Rel Sets.Similar sets sets') {condition condition' : Option Where}
    (hc : Option.Rel Where.Similar condition condition') :
    Related (Option.Rel SameText) (createUpdateSQLWithTableName R tableName sets condition)
      (createUpdateSQLWithTableName R tableName sets' condition') := by
  have hrest : ∀ s s' : UpdateState, SameText s s' → Related (Option.Rel SameText)
      (extractWhereSql R (updateText (formatted tableName) s.1) condition false none >>=
        fun result => pure (some (result.sql, s.2 ++ result.values)))
      (extractWhereSql R (updateText (formatted tableName) s'.1) condition' false none >>=
        fun result => pure (some (result.sql, s'.2 ++ result.values))) := by
    rintro ⟨updateKey, values⟩ ⟨_, values'⟩ ⟨rfl, hvalues⟩
    refine (extractWhereSql_related hc .none _ _).bind ?_
    rintro ⟨sql, ws, error⟩ ⟨_, ws', _⟩ ⟨rfl, hws, rfl⟩
    dsimp only at hvalues hws ⊢
    exact .pure (.some ⟨rfl, by simp only [List.length_append, hvalues, hws]⟩)
  have hno := Related.bind (r := Eq) (.refl (fun _ => rfl) (assertNo R))
    fun _ _ _ => hrest ("", []) ("", []) .rfl
  cases hsets with
  | none => exact hno
  | some hsets =>
      cases hsets with
      | array columns => exact hno
      | other => exact hno
      | dictionary hdic => exact hrest _ _ (dictionarySets_similar hdic)
      | string s =>
          unfold createUpdateSQLWithTableName
          dsimp only
          split
          · exact hrest _ _ .rfl
          · exact hno

/-! ### `DELETE` -/

/-- What the builders of a `DELETE` make of a clause. -/
theorem delete_related {x x' : Except Fault Extracted} (h : Related Extracted.Similar x x') :
    Related (Option.Rel SameText)
      (x >>= fun result =>
        if result.error then pure none else pure (some (result.sql, result.values)))
      (x' >>= fun result =>
        if result.error then pure none else pure (some (result.sql, result.values))) := by
  refine h.bind ?_
  rintro ⟨sql, values, error⟩ ⟨_, values', _⟩ ⟨rfl, hvalues, rfl⟩
  dsimp only at hvalues ⊢
  split
  · exact .pure .none
  · exact .pure (.some ⟨rfl, hvalues⟩)

theorem createDeleteSQLWithModel_related (h : m.Similar m') (tableName : Option String)
    {condition condition' : Option Where} (hc : Option.Rel Where.Similar condition condition') :
    Related (Option.Rel SameText) (createDeleteSQLWithModelAndTableName R m tableName condition)
      (createDeleteSQLWithModelAndTableName R m' tableName condition') := by
  unfold createDeleteSQLWithModelAndTableName
  rw [h.cls]
  exact delete_related (extractWhereSql_related hc (.some h) _ _)

theorem createDeleteSQLWithTableName_related (tableName : Option String)
    {condition condition' : Option Where} (hc : Option.Rel Where.Similar condition condition') :
    Related (Option.Rel SameText) (createDeleteSQLWithTableName R tableName condition)
      (createDeleteSQLWithTableName R tableName condition') := by
  have hnone : condition.isNone = condition'.isNone := by
    cases hc with
    | none => rfl
    | some _ => rfl
  have hbuild := delete_related (extractWhereSql_related (R := R) hc .none
    ("DELETE FROM " ++ formatted tableName) false)
  unfold createDeleteSQLWithTableName
  rw [hnone]
  split
  · exact Related.bind (r := Eq) (.refl (fun _ => rfl) _) fun _ _ _ => hbuild
  · exact hbuild

/-! ### The calls -/

/-- Calls of one builder that differ in the values of their models and dictionaries only. -/
inductive BuilderCall.Similar : BuilderCall → BuilderCall → Prop
  | createInsertSQLWithColumns {m m' : Model} (h : m.Similar m') (tableName : Option String)
      (columns : Option Columns) (replace : Bool) :
      Similar (.createInsertSQLWithColumns m tableName columns replace)
        (.createInsertSQLWithColumns m' tableName columns replace)
  | createInsertSQLWithModelAndBeginClass {m m' : Model} (h : m.Similar m')
      (beginClass : ModelClass) (replace : Bool) :
      Similar (.createInsertSQLWithModelAndBeginClass m beginClass replace)
        (.createInsertSQLWithModelAndBeginClass m' beginClass replace)
  | createUpdateSQLWithModelAndTableName {m m' : Model} (h : m.Similar m')
      (tableName : Option String) {sets sets' : Option Sets}
      (hsets : Option.Rel Sets.Similar sets sets') {condition condition' : Option Where}
      (hc : Option.Rel Where.Similar condition condition') :
      Similar (.createUpdateSQLWithModelAndTableName m tableName sets condition)
        (.createUpdateSQLWithModelAndTableName m' tableName sets' condition')
  | createUpdateSQLWithTableName (tableName : Option String) {sets sets' : Option Sets}
      (hsets : Option.Rel Sets.Similar sets sets') {condition condition' : Option Where}
      (hc : Option.Rel Where.Similar condition condition') :
      Similar (.createUpdateSQLWithTableName tableName sets condition)
        (.createUpdateSQLWithTableName tableName sets' condition')
  | createDeleteSQL {m m' : Model} (h : m.Similar m') {condition condition' : Option Where}
      (hc : Option.Rel Where.Similar condition condition') :
      Similar (.createDeleteSQL m condition) (.createDeleteSQL m' condition')
  | createDeleteSQLWithModelAndTableName {m m' : Model} (h : m.Similar m')
      (tableName : Option String) {condition condition' : Option Where}
      (hc : Option.Rel Where.Similar condition condition') :
      Similar (.createDeleteSQLWithModelAndTableName m tableName condition)
        (.createDeleteSQLWithModelAndTableName m' tableName condition')
  | createDeleteSQLWithTableName (tableName : Option String) {condition condition' : Option Where}
      (hc : Option.Rel Where.Similar condition condition') :
      Similar (.createDeleteSQLWithTableName tableName condition)
        (.createDeleteSQLWithTableName tableName condition')
  | createSelectSQLWithPrimaryKeyAndTableName {m m' : Model} (h : m.Similar m')
      (tableName fieldName : Option String) :
      Similar (.createSelectSQLWithPrimaryKeyAndTableName m tableName fieldName)
        (.createSelectSQLWithPrimaryKeyAndTableName m' tableName fieldName)
  | createSelectSQLWithParams {params params' : NBDBQueryParams} (h : params.Similar params') :
      Similar (.createSelectSQLWithParams params) (.createSelectSQLWithParams params')
  | createUnionSelectSQLWithParams {params params' : NBDBUnionParams} (h : params.Similar params') :
      Similar (.createUnionSelectSQLWithParams params) (.createUnionSelectSQLWithParams params')

/-- **The text of a statement does not depend on values.**  Calls that differ in values only raise
the same, or build nothing, or build one text with as many values. -/
theorem text_independent {call call' : BuilderCall} (h : call.Similar call') :
    Related (Option.Rel SameText) (call.run R) (call'.run R) := by
  cases h with
  | createInsertSQLWithColumns h => exact createInsertSQLWithColumns_related h _ _ _
  | createInsertSQLWithModelAndBeginClass h beginClass replace =>
      show Related _ (createInsertSQLWithModelAndBeginClass R _ beginClass replace)
        (createInsertSQLWithModelAndBeginClass R _ beginClass replace)
      unfold createInsertSQLWithModelAndBeginClass
      cases beginClass.getTableName with
      | none => exact .pure .none
      | some tablename => exact insert_related h _ _ _
  | createUpdateSQLWithModelAndTableName h tableName hsets hc =>
      exact createUpdateSQLWithModel_related h tableName hsets hc
  | createUpdateSQLWithTableName tableName hsets hc =>
      exact createUpdateSQLWithTableName_related tableName hsets hc
  | createDeleteSQL h hc => exact createDeleteSQLWithModel_related h none hc
  | createDeleteSQLWithModelAndTableName h tableName hc =>
      exact createDeleteSQLWithModel_related h tableName hc
  | createDeleteSQLWithTableName tableName hc =>
      exact createDeleteSQLWithTableName_related tableName hc
  | createSelectSQLWithPrimaryKeyAndTableName h tableName fieldName =>
      exact createSelectSQLWithPrimaryKey_related h tableName fieldName
  | createSelectSQLWithParams h => exact createSelectSQLWithParams_related h
  | createUnionSelectSQLWithParams h => exact .ok (createUnionSelectSQLWithParams_similar h)

/-- The users with some keys are renamed. -/
def renamedTo (name : String) : BuilderCall :=
  .createUpdateSQLWithTableName (some "tb_users")
    (some (.dictionary ⟨[("_name", .string "NSString" name)], List.nodup_singleton _⟩))
    (some (.dictionary ⟨[("_uid", .array [.string "NSString" name, .null])],
      List.nodup_singleton _⟩))

theorem renamedTo_similar (name name' : String) : (renamedTo name).Similar (renamedTo name') := by
  refine .createUpdateSQLWithTableName _ (.some (.dictionary ?_)) (.some (.dictionary ?_))
  · exact List.Forall₂.cons ⟨rfl, trivial⟩ .nil
  · exact List.Forall₂.cons ⟨rfl, .array rfl⟩ .nil

/-- What looks like SQL in a name stays a value. -/
theorem renamed_independent : Related (Option.Rel SameText) ((renamedTo "Ann").run demoRuntime)
    ((renamedTo "x' where 1=1 --").run demoRuntime) :=
  text_independent (renamedTo_similar _ _)

end NBDataBase
