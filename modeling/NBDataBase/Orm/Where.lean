import NBDataBase.Orm.Bound
import NBDataBase.Orm.Conditions

/-!
# Orm — operations under a dictionary

What the select, the delete and the updates do when their condition is a dictionary.

* `extractWhereSql_dictionary`: every builder appends the same clause and the same values.
* `query_dictionary`, `delete_dictionary`: the rows for which the dictionary holds are read or
  removed.
* `update_dictionary`, `assign_dictionary`: an update changes no other row, whether it sets columns
  by their names or assigns expressions.
* `dictionary_condition`: the three together.  An empty array says nothing; a dictionary of empty
  arrays alone has no clause.
-/

namespace NBDataBase
open Sql (Closed Opened fold Name Db Table Row Value Atom Bound Word lex prepare whereClause
  satisfies)

variable {R : Runtime} {T : String} {db : Db} {tbl : Table} {dic : NSDictionary WhereValue}

/-! ### Statements with a clause -/

/-- Only rows of which `P` holds are changed, each on its own. -/
def ChangesOnly (T : String) (tbl : Table) (P : Row → Bool) (db db' : Db) : Prop :=
  ∃ f : Row → Row, db' = Function.update db (fold T) (some { tbl with
    rows := tbl.rows.map fun r => if P r then f r else r })

theorem ChangesOnly.refl {P : Row → Bool} (htbl : db (fold T) = some tbl) :
    ChangesOnly T tbl P db db := by
  refine ⟨id, ?_⟩
  simp only [id, ite_self, List.map_id']
  exact (Function.update_eq_self_iff.mpr htbl.symm).symm

/-- No row is changed of which `P` does not hold. -/
def ChangesNoOther (T : String) (tbl : Table) (P : Row → Bool) (db db' : Db) : Prop :=
  ∃ tbl', db' = Function.update db (fold T) (some tbl') ∧ tbl.UpdatesOnly P tbl'

theorem ChangesNoOther.refl {P : Row → Bool} (htbl : db (fold T) = some tbl) :
    ChangesNoOther T tbl P db db :=
  ⟨tbl, (Function.update_eq_self_iff.mpr htbl.symm).symm, rfl, rfl,
    List.forall₂_same.mpr fun _ _ _ => rfl⟩

section Clause

variable {x : String} {as : List Atom} {values : List Obj} (hT : Name T)
  (htbl : db (fold T) = some tbl) (hx : IsClause x as)
  (hvalues : (as.map Atom.params).sum = values.length)

include hT htbl hx hvalues

/-- A delete removes the rows that the clause selects. -/
theorem executeUpdate_delete
    (hhas : ∀ b ∈ Sql.bind as (values.map (bindObject R)), tbl.has b.1 = true) :
    executeUpdate R ("DELETE FROM " ++ T ++ x) values db =
      (.ok true, Function.update db (fold T) (some { tbl with
        rows := tbl.rows.filter fun r =>
          !satisfies R.conv tbl (Sql.bind as (values.map (bindObject R))) r })) := by
  refine executeUpdate_done (prepare_delete hT hx) hvalues.le ?_
  refine Sql.onTable_of_some htbl ?_
  rw [Sql.deleteRows, if_pos (List.all_eq_true.mpr hhas)]

/-- An update changes no row that the clause does not select. -/
theorem executeUpdate_where (hwhere : x = "" ∨ ∃ y, x = " where " ++ y)
    {l : List (String × Obj)} (hw : ∀ e ∈ l, Word e.1) :
    ChangesOnly T tbl (satisfies R.conv tbl (Sql.bind as (values.map (bindObject R)))) db
      (executeUpdate R (updateText T (setText (l.map (·.1))) ++ x)
        (l.map (·.2) ++ values) db).2 := by
  have hwords : ∀ s ∈ l.map (·.1), Word s := fun s hs => by
    obtain ⟨e, he, rfl⟩ := List.mem_map.mp hs
    exact hw e he
  cases hst : prepare (updateText T (setText (l.map (·.1))) ++ x) with
  | none =>
      have hrefused : l.map (·.1) = [] ∨ ¬ ∀ s ∈ l.map (·.1), Name s := by
        by_contra h
        obtain ⟨hne, hn⟩ := not_or.mp h
        rw [prepare_update hT hne (not_not.mp hn) hx] at hst
        cases hst
      rw [executeUpdate_refused hst (update_refused hT hwords hrefused hwhere)]
      exact .refl htbl
  | some st =>
      obtain ⟨hne, hn, -⟩ := prepare_update_inv hT hwords hwhere hst
      have hst := prepare_update hT hne hn hx
      have hlen : (Sql.Stmt.update T (l.map (·.1)) as).params ≤ (l.map (·.2) ++ values).length := by
        simp only [Sql.Stmt.params, hvalues, List.length_append, List.length_map, le_refl]
      have hdrop : ((l.map (·.2) ++ values).map (bindObject R)).drop (l.map (·.1)).length =
          values.map (bindObject R) := by
        rw [List.map_append, List.drop_left' (by simp)]
      cases hrun : Sql.updateRows R.conv (l.map (·.1))
          (((l.map (·.2) ++ values).map (bindObject R)).take (l.map (·.1)).length)
          (Sql.bind as (values.map (bindObject R))) tbl with
      | none =>
          rw [← hdrop] at hrun
          rw [executeUpdate_failed hst hlen (Sql.onTable_of_none htbl hrun)]
          exact .refl htbl
      | some tbl' =>
          have htbl' := Sql.updateRows_eq hrun
          rw [← hdrop] at hrun
          rw [executeUpdate_done hst hlen (Sql.onTable_of_some htbl hrun), htbl']
          exact ⟨_, rfl⟩

omit hvalues in
/-- What an update assigns has no part in which rows it changes. -/
theorem executeUpdate_ground (hwhere : ∃ y, x = " where " ++ y) {s : String}
    (hs : Sql.Ground s) :
    ChangesNoOther T tbl (satisfies R.conv tbl (Sql.bind as (values.map (bindObject R)))) db
      (executeUpdate R (updateText T s ++ x) values db).2 := by
  obtain ⟨y, rfl⟩ := hwhere
  have hblank : Opened (" " ++ (" where " ++ y)) := Opened.append (by decide) (by decide) _
  have hclause : lex (" " ++ (" where " ++ y)) = .word "where" :: lex y := by
    rw [Sql.lex_closed (by decide), Sql.lex_closed (by decide)]
    rfl
  have hunread : prepare (Sql.Form.update.text T (s ++ (" " ++ (" where " ++ y)))) = none := by
    have hset : fold "set" = "set" := by decide
    have hbody : lex (" set " ++ (s ++ (" " ++ (" where " ++ y)))) =
        .word "set" :: (lex s ++ .word "where" :: lex y) := by
      rw [Sql.lex_closed (by decide), Sql.lex_opened hblank, hclause]
      rfl
    have hopened : Opened (" set " ++ (s ++ (" " ++ (" where " ++ y)))) :=
      Opened.append (by decide) (by decide) _
    have hnone : Sql.updateBody (.word "set" :: (lex s ++ .word "where" :: lex y)) = none := by
      simp [Sql.updateBody, Sql.keyword, hset, Sql.assignments_ground hs]
    rw [Sql.Form.text, prepare_update_eq hT hopened, hbody, hnone]
    rfl
  rw [updateText_form, executeUpdate_left hunread]
  cases hrun : R.sqlite.update (Sql.Form.update.text T (s ++ (" " ++ (" where " ++ y))))
      (values.map (bindObject R)) db with
  | none => exact .refl htbl
  | some db' => exact R.sqlite.selects hT hs hx.read ⟨y, rfl⟩ htbl hrun

end Clause

/-! ### The clause of a dictionary -/

/-- Some entry is no empty array, and SQLite takes the values. -/
structure Speaks (dic : NSDictionary WhereValue) : Prop where
  entry : ∃ e ∈ dic.entries, e.2 ≠ .array []
  values : (boundValues dic).length ≤ Sql.maxVariables

/-- The keys are columns of the table. -/
def KeysOf (dic : NSDictionary WhereValue) (tbl : Table) : Prop :=
  ∀ e ∈ dic.entries, Name e.1 ∧ tbl.has e.1 = true

theorem Speaks.entries (h : Speaks dic) : dic.entries.length > 0 := by
  obtain ⟨e, he, -⟩ := h.entry
  exact List.length_pos_of_mem he

theorem Speaks.atoms (h : Speaks dic) : dictionaryAtoms dic.entries ≠ [] := by
  obtain ⟨⟨k, va⟩, he, hne⟩ := h.entry
  have hsome : ∃ a, entryAtom (k, va) = some a := by
    cases va with
    | scalar v => exact ⟨_, rfl⟩
    | array vlist =>
        cases vlist with
        | nil => exact absurd rfl hne
        | cons v vs => exact ⟨_, rfl⟩
  obtain ⟨a, ha⟩ := hsome
  exact List.ne_nil_of_mem (List.mem_filterMap.mpr ⟨_, he, ha⟩)

/-- Every builder appends the same clause and the same values. -/
theorem extractWhereSql_dictionary (h : dic.entries.length > 0) (sql : String)
    (usePrimaryKey : Bool) (model : Option Model) :
    extractWhereSql R sql (some (.dictionary dic)) usePrimaryKey model =
      .ok ⟨sql ++ (" where " ++ (dictionaryToSqlWhere dic).1), (dictionaryToSqlWhere dic).2,
        false⟩ := by
  simp only [extractWhereSql, if_pos h]
  rfl

theorem KeysOf.isClause (hkeys : KeysOf dic tbl) (h : Speaks dic) :
    IsClause (" where " ++ (dictionaryToSqlWhere dic).1)
      ((dictionaryAtoms dic.entries).map (·.1)) :=
  dictionaryToSqlWhere_isClause h.atoms fun e he => (hkeys e he).1

theorem KeysOf.has (hkeys : KeysOf dic tbl) (vs : List Value) :
    ∀ b ∈ Sql.bind ((dictionaryAtoms dic.entries).map (·.1)) vs, tbl.has b.1 = true := by
  intro b hb
  obtain ⟨a, ha, hab⟩ := Sql.bind_column hb
  obtain ⟨x, hx, rfl⟩ := List.mem_map.mp ha
  obtain ⟨e, he, hea⟩ := List.mem_filterMap.mp hx
  rw [← hab, entryAtom_column hea]
  exact (hkeys e he).2

/-- The values are as many as the parameters. -/
theorem dictionary_params (dic : NSDictionary WhereValue) :
    (((dictionaryAtoms dic.entries).map (·.1)).map Atom.params).sum =
      (dictionaryToSqlWhere dic).2.length := by
  rw [dictionaryToSqlWhere_eq, clause_values, List.length_flatMap, List.map_map]
  congr 1
  refine List.map_congr_left fun a ha => ?_
  obtain ⟨e, -, hea⟩ := List.mem_filterMap.mp ha
  exact (entryAtom_params hea).symm

/-! ### Deletes -/

theorem Name.length (hT : Name T) : T.length ≠ 0 :=
  fun e => hT.word.1 (String.length_eq_zero_iff.mp e)

/-- **A delete under a dictionary** removes the rows for which it holds. -/
theorem delete_dictionary (hT : Name T) (htbl : db (fold T) = some tbl) (h : Speaks dic)
    (hkeys : KeysOf dic tbl) :
    deleteRecordFromTableName R T (some (.dictionary dic)) db =
      (.ok true, Function.update db (fold T) (some { tbl with
        rows := tbl.rows.filter fun r => !DictionaryHolds R tbl r dic })) := by
  have hbuilt : createDeleteSQLWithTableName R (some T) (some (.dictionary dic)) =
      .ok (some ("DELETE FROM " ++ T ++ (" where " ++ (dictionaryToSqlWhere dic).1),
        (dictionaryToSqlWhere dic).2)) := by
    simp only [createDeleteSQLWithTableName, extractWhereSql_dictionary h.entries]
    rfl
  rw [deleteRecordFromTableName, if_neg (Name.length hT), executeBuilt_some hbuilt,
    executeUpdate_delete hT htbl (hkeys.isClause h) (dictionary_params dic) (hkeys.has _)]
  simp only [satisfies_dictionary]

/-! ### Selects -/

/-- A query of every column of `T` under a dictionary. -/
def dictionaryQuery (T : String) (dic : NSDictionary WhereValue) : NBDBQueryParams where
  tableName := some T
  whereDic := some dic

/-- No `@` stands in the text. -/
def AtFree (s : String) : Prop := '@' ∉ s.toList

instance (s : String) : Decidable (AtFree s) := by unfold AtFree; infer_instance

theorem AtFree.append {a b : String} (ha : AtFree a) (hb : AtFree b) : AtFree (a ++ b) := by
  unfold AtFree at *
  rw [String.toList_append, List.mem_append]
  exact not_or.mpr ⟨ha, hb⟩

theorem atFree_word {k : String} (h : Word k) : AtFree k := fun hk => by
  have := h.2 '@' hk
  exact absurd this (by decide)

theorem atFree_marks (n : ℕ) :
    AtFree (String.intercalate "," ((List.replicate n ()).map fun _ => "?")) := by
  induction n with
  | zero => decide
  | succ n ih =>
      cases n with
      | zero => decide
      | succ n =>
          simp only [List.replicate_succ, List.map_cons, String.intercalate_cons_cons] at ih ⊢
          exact AtFree.append (AtFree.append (by decide) (by decide)) ih

theorem atFree_atomText {a : Atom} (h : a.Proper) : AtFree (atomText a) := by
  cases a with
  | eq k =>
      have hk : Name k := h
      exact AtFree.append (by decide) (AtFree.append (atFree_word hk.word) (by decide))
  | isIn k n =>
      have hk : Name k := h.1
      exact AtFree.append (by decide) (AtFree.append (atFree_word hk.word)
        (AtFree.append (by decide) (AtFree.append (atFree_marks n) (by decide))))

theorem atFree_clause {l : List (Atom × List Obj)} (h : ∀ a ∈ l, a.1.Proper) :
    AtFree (l.foldl clauseAppend ("", [])).1 := by
  induction l using List.reverseRecOn with
  | nil => decide
  | append_singleton l a ih =>
      have hand : ∀ b : Bool, AtFree (if b then " and" else "") := by decide
      rw [List.foldl_append, List.foldl_cons, List.foldl_nil, clauseAppend]
      refine AtFree.append (ih fun x hx => h x (List.mem_append_left _ hx)) (AtFree.append ?_ ?_)
      · simpa using hand (decide ((l.foldl clauseAppend ("", [])).1.length > 0))
      · exact atFree_atomText (h a (by simp))

/-- The table takes the place of `@t`. -/
theorem replaceTableName_eq {x : String} (hfree : AtFree x) (hclosed : Closed x) (hne : x ≠ "") :
    replaceTableName ("select * from @t" ++ (" where " ++ x)) T =
      "select * from " ++ (T ++ (" where " ++ x)) := by
  have hsuffix : ¬ " @t".toList <:+ ("select * from @t" ++ (" where " ++ x)).toList := by
    rintro ⟨pre, hpre⟩
    have hlast : some 't' = x.toList.getLast? := by
      have hx : x.toList ≠ [] := by simpa using hne
      have hend := congrArg List.getLast? hpre
      rw [← String.append_assoc, String.toList_append, List.getLast?_append_of_ne_nil _ (by decide),
        List.getLast?_append_of_ne_nil _ hx] at hend
      exact hend
    exact absurd (hclosed 't' hlast.symm) (by decide)
  have hsplit : ("select * from @t" ++ (" where " ++ x)).toList =
      "select * from".toList ++ (" @t ".toList ++ ("where " ++ x).toList) := by
    simp only [String.toList_append]
    rfl
  have hrun : ∀ str cs : List Char,
      replaceOccurrences " @t ".toList str 0 ("select * from".toList ++ (" @t ".toList ++ cs)) =
        "select * from".toList ++ (str ++ replaceOccurrences " @t ".toList str 0 cs) :=
    fun _ _ => rfl
  have hwhere : AtFree ("where " ++ x) := AtFree.append (by decide) hfree
  have hfrom : "select * from " = "select * from" ++ " " := by decide
  have hmark : " where " = " " ++ "where " := by decide
  rw [replaceTableName, if_neg hsuffix, hsplit, hrun, replaceOccurrences_of_free hwhere]
  simp only [← String.toList_append, String.ofList_toList, hfrom, hmark, String.append_assoc]

theorem createSelectSQLWithParams_dictionary (hblank : checkStringIsEmpty T = false)
    (h : Speaks dic) (hkeys : KeysOf dic tbl) :
    createSelectSQLWithParams R (dictionaryQuery T dic) =
      .ok (some ("select * from " ++ (T ++ (" where " ++ (dictionaryToSqlWhere dic).1)),
        (dictionaryToSqlWhere dic).2)) := by
  have hproper : ∀ a ∈ dictionaryAtoms dic.entries, a.1.Proper := fun a ha =>
    (hkeys.isClause h).proper a.1 (List.mem_map_of_mem ha)
  obtain ⟨hclosed, -, hne⟩ := lex_clause hproper
  have hmain : mainTableName (dictionaryQuery T dic) = some T := rfl
  have hquery : "select " ++ ("*" ++ " from @t") = "select * from @t" := by decide
  have hreplace := replaceTableName_eq (T := T) (atFree_clause hproper) hclosed (hne h.atoms)
  rw [← dictionaryToSqlWhere_eq] at hreplace
  simp only [createSelectSQLWithParams, hmain, hblank]
  show (extractWhereSql R ("select " ++ ("*" ++ " from @t")) (if dic.entries.length > 0 then
    some (.dictionary dic) else none) false none >>= _) = _
  rw [if_pos h.entries, extractWhereSql_dictionary h.entries, hquery]
  exact congrArg (fun sql => Except.ok (some (sql, (dictionaryToSqlWhere dic).2))) hreplace

theorem prepare_query (hT : Name T) {x : String} {as : List Atom} (hx : IsClause x as) :
    prepare ("select * from " ++ (T ++ x)) = some (.select T as) := by
  have hkeywords : ["select", "from"].map fold = ["select", "from"] := by decide
  have hparse := Sql.parse_select hT hkeywords hx.proper
  rw [prepare, Sql.lex_closed (by decide), Sql.lex_word_opened hT.word hx.opened, hx.tokens]
  exact hparse

/-- The rows that the query of a dictionary selects. -/
theorem select_dictionary (htbl : db (fold T) = some tbl) (hkeys : KeysOf dic tbl) :
    Sql.select R.conv db (.select T ((dictionaryAtoms dic.entries).map (·.1)))
      ((dictionaryToSqlWhere dic).2.map (bindObject R)) =
      some (tbl.rows.filter (DictionaryHolds R tbl · dic)) := by
  simp only [Sql.select, htbl, Option.bind_some, Sql.selectRows,
    if_pos (List.all_eq_true.mpr (hkeys.has _))]
  congr 2
  exact funext fun r => satisfies_dictionary dic

/-- **A query under a dictionary** reads the rows for which it holds. -/
theorem query_dictionary (hT : Name T) (hblank : checkStringIsEmpty T = false)
    (htbl : db (fold T) = some tbl) (h : Speaks dic) (hkeys : KeysOf dic tbl) :
    queryBaseWithParams R (dictionaryQuery T dic) db =
      (.ok (tbl.rows.filter (DictionaryHolds R tbl · dic)), db) := by
  rw [queryBaseWithParams, createSelectSQLWithParams_dictionary hblank h hkeys]
  exact executeQuery_done (prepare_query hT (hkeys.isClause h)) (dictionary_params dic).le
    (select_dictionary htbl hkeys)

/-! ### Updates -/

/-- The columns an update sets, by their names. -/
def SetsColumns : Option Sets → Prop
  | none => True
  | some (.dictionary sets) => ∀ e ∈ sets.entries, Name e.1
  | some sets => ∃ cs, sets.names = some cs ∧ ∀ c ∈ cs, Name c

/-- Such an update raises, or sets words to values. -/
theorem SetsColumns.setList {sets : Option Sets} (h : SetsColumns sets) (m : Model) :
    (∃ e, setList m sets = .error e) ∨ ∃ l : List (String × Obj), (∀ e ∈ l, Word e.1) ∧
      setList m sets = .ok (setText (l.map (·.1)), l.map (·.2)) := by
  have hcolumns : ∀ sets : Sets, (∃ cs, sets.names = some cs ∧ ∀ c ∈ cs, Name c) →
      (∃ e, NBDataBase.setList m (some sets) = .error e) ∨
        ∃ l : List (String × Obj), (∀ e ∈ l, Word e.1) ∧
          NBDataBase.setList m (some sets) = .ok (setText (l.map (·.1)), l.map (·.2)) := by
    rintro sets ⟨cs, hcs, hn⟩
    cases hrun : NBDataBase.setList m (some sets) with
    | error e => exact .inl ⟨e, rfl⟩
    | ok s =>
        refine .inr ⟨columnBindings m cs, fun e he => ?_, by rw [setList_columns hcs hrun]⟩
        exact (hn e.1 (mem_columnBindings.mp he).1).word
  match sets, h with
  | none, _ =>
      by_cases hb : AllBacked m.cls.chain (properties m.cls.chain)
      · exact .inr ⟨_, updateBindings_word hb, updateLoop_run hb⟩
      · exact .inl ⟨_, updateLoop_error hb _⟩
  | some (.dictionary sets), h =>
      exact .inr ⟨sets.entries, fun e he => (h e he).word,
        congrArg Except.ok (foldl_updateAppend sets.entries)⟩
  | some (.string s), h => exact hcolumns _ h
  | some (.array cs), h => exact hcolumns _ h
  | some .other, h => exact hcolumns _ h

theorem executeUpdate_dictionary (hT : Name T) (htbl : db (fold T) = some tbl) (h : Speaks dic)
    (hkeys : KeysOf dic tbl) {l : List (String × Obj)} (hw : ∀ e ∈ l, Word e.1) :
    ChangesOnly T tbl (DictionaryHolds R tbl · dic) db (executeUpdate R
      (updateText T (setText (l.map (·.1))) ++ (" where " ++ (dictionaryToSqlWhere dic).1))
        (l.map (·.2) ++ (dictionaryToSqlWhere dic).2) db).2 := by
  have hrun := executeUpdate_where (R := R) hT htbl (hkeys.isClause h) (dictionary_params dic)
    (.inr ⟨_, rfl⟩) hw
  have hholds : satisfies R.conv tbl (Sql.bind ((dictionaryAtoms dic.entries).map (·.1))
      ((dictionaryToSqlWhere dic).2.map (bindObject R))) = (DictionaryHolds R tbl · dic) :=
    funext fun r => satisfies_dictionary dic
  rwa [hholds] at hrun

/-- An update that assigns expressions. -/
theorem executeUpdate_assign (hT : Name T) (htbl : db (fold T) = some tbl) (h : Speaks dic)
    (hkeys : KeysOf dic tbl) {s : String} (hs : Sql.Ground s) :
    ChangesNoOther T tbl (DictionaryHolds R tbl · dic) db (executeUpdate R
      (updateText T s ++ (" where " ++ (dictionaryToSqlWhere dic).1))
        ([] ++ (dictionaryToSqlWhere dic).2) db).2 := by
  have hrun : ChangesNoOther T tbl (satisfies R.conv tbl (Sql.bind ((dictionaryAtoms
      dic.entries).map (·.1)) ((dictionaryToSqlWhere dic).2.map (bindObject R)))) db
      (executeUpdate R (updateText T s ++ (" where " ++ (dictionaryToSqlWhere dic).1))
        (dictionaryToSqlWhere dic).2 db).2 :=
    executeUpdate_ground hT htbl (hkeys.isClause h) ⟨_, rfl⟩ hs
  have hholds : satisfies R.conv tbl (Sql.bind ((dictionaryAtoms dic.entries).map (·.1))
      ((dictionaryToSqlWhere dic).2.map (bindObject R))) = (DictionaryHolds R tbl · dic) :=
    funext fun r => satisfies_dictionary dic
  rwa [hholds] at hrun

/-- An update of a model under a dictionary, when its `SET` list is built. -/
theorem createUpdateSQL_dictionary {m : Model} {sets : Option Sets} {s : UpdateState}
    (hset : setList m sets = .ok s) (h : dic.entries.length > 0) :
    createUpdateSQLWithModelAndTableName R m (some T) sets (some (.dictionary dic)) =
      .ok (some (updateText T s.1 ++ (" where " ++ (dictionaryToSqlWhere dic).1),
        s.2 ++ (dictionaryToSqlWhere dic).2)) := by
  simp only [createUpdateSQLWithModelAndTableName, hset]
  show (extractWhereSql R _ (some (.dictionary dic)) true (some m) >>= _) = _
  rw [extractWhereSql_dictionary h]
  rfl

/-- **An update of a model under a dictionary** changes no row for which it does not hold. -/
theorem update_dictionary (hT : Name T) (htbl : db (fold T) = some tbl) (h : Speaks dic)
    (hkeys : KeysOf dic tbl) (m : Model) {tableClass : ModelClass}
    (hclass : tableClass.getTableName = some T) {sets : Option Sets} (hsets : SetsColumns sets) :
    ChangesOnly T tbl (DictionaryHolds R tbl · dic) db
      (updateWithModelTableSetWhere R m tableClass sets (some (.dictionary dic)) db).2 := by
  have hlen : ¬ (tableClass.getTableName.getD "").length = 0 := by
    rw [hclass]
    exact Name.length hT
  rw [updateWithModelTableSetWhere, if_neg hlen]
  obtain ⟨e, he⟩ | ⟨l, hw, hl⟩ := hsets.setList m
  · have hbuilt : createUpdateSQLWithModelAndTableClass R m tableClass sets
        (some (.dictionary dic)) = .error e := by
      simp only [createUpdateSQLWithModelAndTableClass, createUpdateSQLWithModelAndTableName, he]
      rfl
    rw [executeBuilt_error hbuilt]
    exact .refl htbl
  · have hbuilt : createUpdateSQLWithModelAndTableClass R m tableClass sets
        (some (.dictionary dic)) = .ok (some (updateText T (setText (l.map (·.1))) ++
          (" where " ++ (dictionaryToSqlWhere dic).1),
            l.map (·.2) ++ (dictionaryToSqlWhere dic).2)) := by
      have hrun := createUpdateSQL_dictionary (R := R) (T := T) hl h.entries
      rw [createUpdateSQLWithModelAndTableClass, hclass, hrun]
    rw [executeBuilt_some hbuilt]
    exact executeUpdate_dictionary hT htbl h hkeys hw

/-- An update of a table under a dictionary changes no row for which it does not hold. -/
theorem updateTableName_dictionary (hT : Name T) (htbl : db (fold T) = some tbl) (h : Speaks dic)
    (hkeys : KeysOf dic tbl) {sets : NSDictionary Obj} (hsets : ∀ e ∈ sets.entries, Name e.1) :
    ChangesOnly T tbl (DictionaryHolds R tbl · dic) db
      (updateTableNameSetWhere R T (some (.dictionary sets)) (some (.dictionary dic)) db).2 := by
  have hbuilt : createUpdateSQLWithTableName R (some T) (some (.dictionary sets))
      (some (.dictionary dic)) = .ok (some (updateText T (setText (sets.entries.map (·.1))) ++
        (" where " ++ (dictionaryToSqlWhere dic).1),
          sets.entries.map (·.2) ++ (dictionaryToSqlWhere dic).2)) := by
    simp only [createUpdateSQLWithTableName, foldl_updateAppend]
    show (extractWhereSql R _ (some (.dictionary dic)) false none >>= _) = _
    rw [extractWhereSql_dictionary h.entries]
    rfl
  rw [updateTableNameSetWhere, if_neg (Name.length hT), executeBuilt_some hbuilt]
  exact executeUpdate_dictionary hT htbl h hkeys fun e he => (hsets e he).word

/-- A string that the builder of a model's update takes over as its `SET` list. -/
def TakenOver (s : String) : Prop :=
  (componentsSeparatedByComma s).length = 1 ∧ hasSubstring s "=" = true

theorem updateSets_takenOver {s : String} (h : TakenOver s) (m : Model) :
    setList m (some (.string s)) = .ok (s, []) := by
  simp only [setList, updateSets, h.1, Nat.lt_irrefl, if_false, h.2, if_true]
  rfl

/-- **An update that assigns expressions** changes no row for which the dictionary does not hold:
of a model. -/
theorem assign_dictionary (hT : Name T) (htbl : db (fold T) = some tbl) (h : Speaks dic)
    (hkeys : KeysOf dic tbl) (m : Model) {tableClass : ModelClass}
    (hclass : tableClass.getTableName = some T) {s : String} (hs : Sql.Ground s)
    (htaken : TakenOver s) :
    ChangesNoOther T tbl (DictionaryHolds R tbl · dic) db
      (updateWithModelTableSetWhere R m tableClass (some (.string s)) (some (.dictionary dic))
        db).2 := by
  have hlen : ¬ (tableClass.getTableName.getD "").length = 0 := by
    rw [hclass]
    exact Name.length hT
  have hbuilt := createUpdateSQL_dictionary (R := R) (T := T) (updateSets_takenOver htaken m)
    h.entries
  rw [updateWithModelTableSetWhere, if_neg hlen, createUpdateSQLWithModelAndTableClass, hclass,
    executeBuilt_some hbuilt]
  exact executeUpdate_assign hT htbl h hkeys hs

/-- Of a table. -/
theorem assignTableName_dictionary (hT : Name T) (htbl : db (fold T) = some tbl) (h : Speaks dic)
    (hkeys : KeysOf dic tbl) {s : String} (hs : Sql.Ground s) (heq : hasSubstring s "=" = true) :
    ChangesNoOther T tbl (DictionaryHolds R tbl · dic) db
      (updateTableNameSetWhere R T (some (.string s)) (some (.dictionary dic)) db).2 := by
  have hbuilt : createUpdateSQLWithTableName R (some T) (some (.string s))
      (some (.dictionary dic)) = .ok (some (updateText T s ++
        (" where " ++ (dictionaryToSqlWhere dic).1), [] ++ (dictionaryToSqlWhere dic).2)) := by
    simp only [createUpdateSQLWithTableName, if_pos heq]
    show (extractWhereSql R _ (some (.dictionary dic)) false none >>= _) = _
    rw [extractWhereSql_dictionary h.entries]
    rfl
  rw [updateTableNameSetWhere, if_neg (Name.length hT), executeBuilt_some hbuilt]
  exact executeUpdate_assign hT htbl h hkeys hs

/-! ### The condition -/

/-- **A dictionary condition** means the conjunction of its entries other than empty arrays: its
clause is read back as conditions that hold of a row exactly when the dictionary does, in
whatever order it enumerates its keys, and a query, a delete and the updates act on these rows.
In which order a query returns them is left open. -/
theorem dictionary_condition (R : Runtime) (hT : Name T) (htbl : db (fold T) = some tbl)
    (h : Speaks dic) (hkeys : KeysOf dic tbl) :
    (∃ as, whereClause (lex (" where " ++ (dictionaryToSqlWhere dic).1)) = some as ∧
      ∀ r, satisfies R.conv tbl (Sql.bind as ((dictionaryToSqlWhere dic).2.map (bindObject R))) r =
        DictionaryHolds R tbl r dic) ∧
    (∀ sql usePrimaryKey model, extractWhereSql R sql (some (.dictionary dic)) usePrimaryKey model =
      .ok ⟨sql ++ (" where " ++ (dictionaryToSqlWhere dic).1), (dictionaryToSqlWhere dic).2,
        false⟩) ∧
    (∀ dic' : NSDictionary WhereValue, dic'.entries.Perm dic.entries → ∀ r,
      DictionaryHolds R tbl r dic' = DictionaryHolds R tbl r dic) ∧
    (checkStringIsEmpty T = false → ∃ rows,
      queryBaseWithParams R (dictionaryQuery T dic) db = (.ok rows, db) ∧
        rows.Perm (tbl.rows.filter (DictionaryHolds R tbl · dic))) ∧
    deleteRecordFromTableName R T (some (.dictionary dic)) db =
      (.ok true, Function.update db (fold T) (some { tbl with
        rows := tbl.rows.filter fun r => !DictionaryHolds R tbl r dic })) ∧
    (∀ m tableClass sets, tableClass.getTableName = some T → SetsColumns sets →
      ChangesOnly T tbl (DictionaryHolds R tbl · dic) db
        (updateWithModelTableSetWhere R m tableClass sets (some (.dictionary dic)) db).2) ∧
    (∀ sets : NSDictionary Obj, (∀ e ∈ sets.entries, Name e.1) →
      ChangesOnly T tbl (DictionaryHolds R tbl · dic) db
        (updateTableNameSetWhere R T (some (.dictionary sets)) (some (.dictionary dic)) db).2) ∧
    (∀ m tableClass s, tableClass.getTableName = some T → Sql.Ground s → TakenOver s →
      ChangesNoOther T tbl (DictionaryHolds R tbl · dic) db
        (updateWithModelTableSetWhere R m tableClass (some (.string s)) (some (.dictionary dic))
          db).2) ∧
    (∀ s, Sql.Ground s → hasSubstring s "=" = true →
      ChangesNoOther T tbl (DictionaryHolds R tbl · dic) db
        (updateTableNameSetWhere R T (some (.string s)) (some (.dictionary dic)) db).2) := by
  have hclause := hkeys.isClause h
  refine ⟨⟨_, ?_, fun r => satisfies_dictionary dic⟩,
    fun sql usePrimaryKey model => extractWhereSql_dictionary h.entries sql usePrimaryKey model,
    fun dic' hperm r => dictionaryHolds_perm hperm,
    fun hblank => ⟨_, query_dictionary hT hblank htbl h hkeys, .refl _⟩,
    delete_dictionary hT htbl h hkeys,
    fun m tableClass sets hclass hsets => update_dictionary hT htbl h hkeys m hclass hsets,
    fun sets hsets => updateTableName_dictionary hT htbl h hkeys hsets,
    fun m tableClass s hclass hs htaken => assign_dictionary hT htbl h hkeys m hclass hs htaken,
    fun s hs heq => assignTableName_dictionary hT htbl h hkeys hs heq⟩
  exact hclause.read

/-- A table of two columns with one row. -/
def ageTable : Table where
  columns := [("_name", "VARCHAR"), ("_age", "NUMERIC")]
  primaryKey := []
  rows := [fun c => if c = "_age" then .num (.int 7) else .null]

/-- The age is 7, and the name is none at all. -/
def noNameAge7 : NSDictionary WhereValue where
  entries := [("_name", .array []), ("_age", .scalar (.number (.integer 7)))]
  nodup := by decide

theorem noNameAge7_speaks : Speaks noNameAge7 :=
  ⟨⟨("_age", .scalar (.number (.integer 7))), by simp [noNameAge7], by simp⟩, by decide +kernel⟩

theorem noNameAge7_keys : KeysOf noNameAge7 ageTable := by
  intro e he
  have hall : ∀ e ∈ [("_name", WhereValue.array []), ("_age", .scalar (.number (.integer 7)))],
      Name e.1 ∧ ageTable.has e.1 = true := by decide +kernel
  exact hall e he

/-- The condition at a table and a dictionary. -/
theorem dictionary_condition_age :
    deleteRecordFromTableName demoRuntime "tb_users" (some (.dictionary noNameAge7))
      (Function.update (fun _ => none) "tb_users" (some ageTable)) =
    (.ok true, Function.update (Function.update (fun _ => none) "tb_users" (some ageTable))
      (fold "tb_users") (some { ageTable with
        rows := ageTable.rows.filter fun r =>
          !DictionaryHolds demoRuntime ageTable r noNameAge7 })) :=
  (dictionary_condition demoRuntime (T := "tb_users") (by decide +kernel) (by rfl)
    noNameAge7_speaks noNameAge7_keys).2.2.2.2.1

/-- A row is read though no name is among none. -/
theorem empty_array_selects : ¬ ∀ (R : Runtime) (T : String) (db : Db) (tbl : Table)
    (dic : NSDictionary WhereValue), Name T → checkStringIsEmpty T = false →
    db (fold T) = some tbl → dic.entries ≠ [] → KeysOf dic tbl →
    queryBaseWithParams R (dictionaryQuery T dic) db =
      (.ok (tbl.rows.filter fun r => dic.entries.all (EntryHolds R tbl r)), db) := by
  intro h
  let db : Db := Function.update (fun _ => none) "tb_users" (some ageTable)
  have hT : Name "tb_users" := by decide +kernel
  have hblank : checkStringIsEmpty "tb_users" = false := by decide +kernel
  have htbl : db (fold "tb_users") = some ageTable := rfl
  have hclaim := h demoRuntime "tb_users" db ageTable noNameAge7 hT hblank htbl (by decide)
    noNameAge7_keys
  rw [query_dictionary hT hblank htbl noNameAge7_speaks noNameAge7_keys] at hclaim
  have hrows := congrArg List.length (Except.ok.inj (Prod.mk.inj hclaim).1)
  revert hrows
  decide +kernel

end NBDataBase
