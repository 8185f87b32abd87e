import NBDataBase.Orm.Sets
import NBDataBase.Orm.Singles
import NBDataBase.Orm.Upsert

/-!
# Orm — upserts of named columns

`insertToDBWithModel:tableName:update:columns:` against the array form with an array of one.

* `insertToDBWithModelTableNameUpdateColumns`: the form for a model.  A record that is there is
  updated in the named columns; one that is not is inserted whole.
* `NamesColumns`: the argument names columns of the model, as a string or as an array.
* `UpsertsAgree`: whatever the table holds, and also when there is none, the two forms end alike
  and leave the same database, with a row that has the key of the model.
* `NamesAll`: the names leave out nothing that an insert of the model stores, and nothing is
  archived.
* `upsertsAgree_iff`: the one exactly when the other.
-/

namespace NBDataBase
open Sql (fold Name Db Table Row Value Atom Affinity assign satisfies prepare)

/-- `insertToDBWithModel:tableName:update:columns:`. -/
def insertToDBWithModelTableNameUpdateColumns (R : Runtime) (model : Model) (tableName : String)
    (update : Bool) (columns : Columns) : Action Bool := do
  let isExists ← if update then isExistsWithModelTableName R model tableName else pure false
  if isExists then
    executeBuilt R
      (createUpdateSQLWithModelAndTableName R model (some tableName) (some columns.sets) none)
  else insertToDBWithModelTableNameReplace R model tableName false

/-- The argument names the columns `cs` of the model. -/
structure NamesColumns (m : Model) (columns : Columns) (cs : List String) : Prop where
  form : columns = .array cs ∨ cs ≠ [] ∧ columns = .string (String.intercalate "," cs)
  stored : ∀ c ∈ cs, ∃ p ∈ properties m.cls.chain, p.isStored = true ∧ p.column = c

/-- On this database the two forms end alike and leave the same database, with a row that has the
key of the model. -/
def AgreesAt (R : Runtime) (T : String) (m : Model) (columns : Columns) (db : Db) : Prop :=
  ∃ result db', insertToDBWithModelTableNameUpdateColumns R m T true columns db = (result, db') ∧
    insertToDBWithDataArrayTableNameColumnsUpdate R [m] T (some columns) db =
      (result.map fun _ => (), db') ∧
    ∃ tbl, db' (fold T) = some tbl ∧ ∃ r ∈ tbl.rows, HasKey R tbl m r = true

/-- They do so on every database whose table of that name, if there is one, is of the class. -/
def UpsertsAgree (R : Runtime) (T : String) (m : Model) (columns : Columns) : Prop :=
  ∀ db, (∀ tbl, db (fold T) = some tbl → TableOf m.cls tbl) → AgreesAt R T m columns db

/-- The names leave out nothing that an insert of the model stores, and nothing of it is
archived. -/
def NamesStored (R : Runtime) (m : Model) (cs : List String) : Prop :=
  ∀ p ∈ properties m.cls.chain, p.isStored = true → ∀ v, m.value p.column = some v →
    ¬ Archived m p ∧ (p.column ∈ cs ∨ bindObject R v = .null)

/-- The statements are built and accepted, FMDB finds the table that SQLite finds, and the two
inserts write the same. -/
structure NamesAll (R : Runtime) (T : String) (m : Model) (cs : List String) : Prop where
  keys : getPrimaryKeys m.cls.chain ≠ []
  keysBacked : KeysBacked m.cls.chain
  allBacked : AllBacked m.cls.chain (properties m.cls.chain)
  storable : Storable m
  keysStored : ¬ SomeKeyNull R m
  lower : R.lowercaseString T = fold T
  named : NamesStored R m cs

/-- The class with another table. -/
def ModelClass.withTable (cls : ModelClass) (T : String) : ModelClass :=
  { cls with getTableName := some T }

/-- The model with another table. -/
def Model.withTable (m : Model) (T : String) : Model :=
  { m with cls := m.cls.withTable T }

variable {R : Runtime} {T : String} {m : Model} {columns : Columns} {cs : List String}
  {tbl : Table} {db db₁ : Db} {r : Row} {p : Property} {v : Obj}

/-! ### The named columns -/

/-- The row after the update of the named columns. -/
def namedRow (R : Runtime) (tbl : Table) (m : Model) (cs : List String) (r : Row) : Row :=
  assign R.conv tbl cs (cs.map fun c => bindObject R ((m.value c).getD .null)) r

section Named

variable (h : m.cls.Valid T) (hc : NamesColumns m columns cs)
include h hc

theorem NamesColumns.names : ∀ c ∈ cs, Name c := by
  intro c hmem
  obtain ⟨p, hp, hst, rfl⟩ := hc.stored c hmem
  exact h.columns p hp hst

/-- As the columns of an insert. -/
theorem NamesColumns.array : columnsArray R columns = .ok cs := by
  rcases hc.form with rfl | ⟨hne, rfl⟩
  · rfl
  · have hwords : ∀ c ∈ cs, Sql.Word c := fun c hmem => (hc.names h c hmem).word
    rw [columnsArray, components_words hne hwords]
    rfl

/-- As the columns of an update. -/
theorem NamesColumns.sets : columns.sets.names = some cs := by
  rcases hc.form with rfl | ⟨hne, rfl⟩
  · rfl
  · exact names_columns hne fun c hmem => (hc.names h c hmem).word

omit h in
theorem NamesColumns.has (htbl : TableOf m.cls tbl) : ∀ c ∈ cs, tbl.has c = true := by
  intro c hmem
  obtain ⟨p, hp, hst, rfl⟩ := hc.stored c hmem
  obtain ⟨hcol, t, ht⟩ := isStored_iff.mp hst
  exact htbl.has (p.column, t) (stored_mem hp hcol ht)

/-- A name that reads as the column of a property is that column. -/
theorem NamesColumns.eq_of_fold (hp : p ∈ properties m.cls.chain) (hcol : isColumn p.name = true)
    {c : String} (hmem : c ∈ cs) (hfold : fold c = fold p.column) : c = p.column := by
  obtain ⟨q, hq, hst, rfl⟩ := hc.stored c hmem
  rw [h.eq_of_fold hq hp (usesColumn_of_column (isStored_iff.mp hst).1)
    (usesColumn_of_column hcol) hfold]

/-- What the row of the named columns holds in the column of a property. -/
theorem NamesColumns.rowOf_column (hp : p ∈ properties m.cls.chain)
    (hcol : isColumn p.name = true) :
    rowOf R tbl (columnBindings m cs) (fold p.column) =
      if p.column ∈ cs then ((m.value p.column).map fun v =>
        (tbl.affinity p.column).apply R.conv (bindObject R v)).getD .null
      else .null := by
  have honly : ∀ e ∈ columnBindings m cs, fold e.1 = fold p.column →
      e.1 = p.column ∧ p.column ∈ cs ∧ m.value p.column = some e.2 := by
    rintro ⟨c, w⟩ he hfold
    obtain ⟨hmem, hw⟩ := mem_columnBindings.mp he
    obtain rfl := hc.eq_of_fold h hp hcol hmem hfold
    exact ⟨rfl, hmem, hw⟩
  rw [rowOf_eq]
  by_cases hbound : p.column ∈ cs ∧ (m.value p.column).isSome
  · obtain ⟨hmem, hsome⟩ := hbound
    obtain ⟨v, hv⟩ := Option.isSome_iff_exists.mp hsome
    have hfind : (columnBindings m cs).find? (fun e => fold e.1 = fold p.column) =
        some (p.column, v) := by
      refine find_of_only (mem_columnBindings.mpr ⟨hmem, hv⟩) (by simp) fun e he hfold => ?_
      obtain ⟨hcolumn, -, hw⟩ := honly e he (of_decide_eq_true hfold)
      rw [hv] at hw
      exact Prod.ext hcolumn (Option.some.inj hw).symm
    rw [hfind, if_pos hmem, hv]
    rfl
  · have hfind : (columnBindings m cs).find? (fun e => fold e.1 = fold p.column) = none := by
      rw [List.find?_eq_none]
      intro e he hfold
      obtain ⟨-, hmem, hw⟩ := honly e he (by simpa using hfold)
      exact hbound ⟨hmem, by rw [hw]; rfl⟩
    rw [hfind]
    split
    · rename_i hmem
      have hnil : m.value p.column = none := by
        by_contra hsome
        exact hbound ⟨hmem, Option.isSome_iff_ne_none.mpr hsome⟩
      rw [hnil]
      rfl
    · rfl

/-- A named column gets the value. -/
theorem NamesColumns.namedRow_column (hp : p ∈ properties m.cls.chain)
    (hcol : isColumn p.name = true) (hmem : p.column ∈ cs) (hv : m.value p.column = some v)
    (r : Row) :
    namedRow R tbl m cs r (fold p.column) =
      (tbl.affinity p.column).apply R.conv (bindObject R v) := by
  have hin : (p.column, bindObject R v) ∈
      cs.map fun c => (c, bindObject R ((m.value c).getD .null)) :=
    List.mem_map.mpr ⟨p.column, hmem, by rw [hv, Option.getD_some]⟩
  have hassign : assign R.conv tbl _ _ r (fold p.column) = _ := Sql.assign_mem hin ?_ r
  · rw [← hassign, namedRow, List.map_map, List.map_map]
    simp [Function.comp_def]
  · intro e he hfold
    obtain ⟨c, hmemc, rfl⟩ := List.mem_map.mp he
    obtain rfl := hc.eq_of_fold h hp hcol hmemc hfold
    rw [hv, Option.getD_some]

/-- The insert of the named columns. -/
theorem NamesColumns.insert_run (hA : AllBacked m.cls.chain (properties m.cls.chain)) :
    createInsertSQLWithColumns R m (some T) (some columns) false =
      .ok (insertText T false (.of (columnBindings m cs))) := by
  have hstep : ∀ s, ∀ c ∈ cs, insertColumnStep m s c =
      .ok (((m.value c).map fun v => (c, v)).elim s fun e => s.append e.1 e.2) := by
    intro s c hmem
    obtain ⟨p, hp, hst, rfl⟩ := hc.stored c hmem
    unfold insertColumnStep
    rw [(hA p hp (isStored_iff.mp hst).1).valueForKey]
    cases m.value p.column <;> rfl
  have hloop : cs.foldlM (insertColumnStep m) {} = .ok (.of (columnBindings m cs)) := by
    rw [Loop.foldlM_ok hstep]
    exact congrArg _ (Loop.foldl_filterMap (fun c => (m.value c).map fun v => (c, v))
      (fun (s : InsertState) e => s.append e.1 e.2) cs {})
  unfold createInsertSQLWithColumns
  simp only [Option.some_or, hc.array h]
  show (cs.foldlM (insertColumnStep m) {} >>= _) = _
  rw [hloop]
  rfl

/-- The update of the named columns, when each has a value. -/
theorem NamesColumns.update_ok (hK : KeysBacked m.cls.chain) (hk : keyBindings m ≠ [])
    (hvalues : ∀ c ∈ cs, (m.value c).isSome) :
    createUpdateSQLWithModelAndTableName R m (some T) (some columns.sets) none =
      .ok (some (updateText T (setText cs) ++ keyText ((keyBindings m).map (·.1)),
        cs.map (fun c => (m.value c).getD .null) ++ (keyBindings m).map (·.2))) := by
  unfold createUpdateSQLWithModelAndTableName
  simp only [setList, updateSets_values (hc.sets h) hvalues]
  show (extractWhereSql R _ none true (some m) >>= _) = _
  rw [extractWhereSql_run _ hK hk]
  rfl

/-- It raises on a name without a value. -/
theorem NamesColumns.update_error (hvalues : ¬ ∀ c ∈ cs, (m.value c).isSome) :
    ∃ e, createUpdateSQLWithModelAndTableName R m (some T) (some columns.sets) none = .error e := by
  rcases hrun : updateSets m columns.sets with e | s
  · refine ⟨e, ?_⟩
    unfold createUpdateSQLWithModelAndTableName
    rw [setList, hrun]
    rfl
  · rw [updateSets_names (hc.sets h)] at hrun
    exact absurd (updateColumns_ok_iff.mp ⟨s, hrun⟩) hvalues

end Named

/-! ### The rows of the two inserts -/

section Rows

variable (h : m.cls.Valid T) (hc : NamesColumns m columns cs) (htbl : TableOf m.cls tbl)
include h hc htbl

/-- Where the rows agree, what has a value is not archived, and named unless it is NULL. -/
theorem namesStored_of_rows
    (hrows : rowOf R tbl (columnBindings m cs) = storedRow R tbl m) : NamesStored R m cs := by
  intro p hp hst v hv
  obtain ⟨hcol, t, ht⟩ := isStored_iff.mp hst
  have hcell := congrFun hrows (fold p.column)
  rw [hc.rowOf_column h hp hcol, storedRow_column h hp hcol, hv, Option.map_some, Option.map_some,
    Option.getD_some, Option.getD_some] at hcell
  have harch : ¬ Archived m p := by
    rintro ⟨w, hw, hblob, hdata⟩
    obtain rfl : w = v := Option.some.inj (hw.symm.trans hv)
    have harchive : p.encode R w = .data (R.archivedData w) := by
      rw [Property.encode, if_pos ⟨hblob, hdata⟩]
    rw [htbl.affinity_blob (stored_mem hp hcol hblob), harchive] at hcell
    split at hcell
    · exact bindObject_ne_blob R hdata _ hcell
    · cases hcell
  refine ⟨harch, ?_⟩
  by_cases hmem : p.column ∈ cs
  · exact .inl hmem
  · rw [if_neg hmem, encode_of_not_archived hv harch] at hcell
    exact .inr (Affinity.apply_eq_null.mp hcell.symm)

omit htbl in
/-- The names of what is stored make the row of the model. -/
theorem NamesStored.rows (hst : Storable m) (hnamed : NamesStored R m cs) :
    rowOf R tbl (columnBindings m cs) = storedRow R tbl m := by
  funext c
  by_cases hcolumn : ∃ p ∈ properties m.cls.chain, isColumn p.name = true ∧ fold p.column = c
  · obtain ⟨p, hp, hcol, rfl⟩ := hcolumn
    rw [hc.rowOf_column h hp hcol, storedRow_column h hp hcol]
    cases hv : m.value p.column with
    | none => simp
    | some v =>
        obtain ⟨harch, hin⟩ := hnamed p hp (hst p hp hcol (by simp [hv])) v hv
        rw [Option.map_some, Option.map_some, Option.getD_some, Option.getD_some,
          encode_of_not_archived hv harch]
        split
        · rfl
        · rename_i hmem
          rw [hin.resolve_left hmem, Affinity.apply_null]
  · -- no property has the column
    have hnone : ∀ l : List (String × Obj), (∀ e ∈ l, ∃ p ∈ properties m.cls.chain,
        isColumn p.name = true ∧ p.column = e.1) → rowOf R tbl l c = .null := by
      intro l hl
      rw [rowOf_eq, List.find?_eq_none.mpr fun e he hfold => ?_]
      · rfl
      · obtain ⟨p, hp, hcol, hpe⟩ := hl e he
        exact hcolumn ⟨p, hp, hcol, hpe ▸ of_decide_eq_true hfold⟩
    rw [storedRow, hnone _ fun e he => ?_, hnone _ fun e he => ?_]
    · obtain ⟨p, hp, hcol, hpe, -⟩ := mem_insertBindings.mp he
      exact ⟨p, hp, hcol, hpe⟩
    · obtain ⟨p, hp, hst, hpe⟩ := hc.stored e.1 (mem_columnBindings.mp he).1
      exact ⟨p, hp, (isStored_iff.mp hst).1, hpe⟩

end Rows

/-! ### The parts of a run -/

/-- What the existence check finds decides the step. -/
theorem upsertStep_run {select update insert : Except Fault (Option (String × List Obj))}
    {b : Bool} (hselect : hasRow R select db = (.ok b, db)) (hsome : select ≠ .ok none) :
    upsertStep R select update insert db =
      ignore (executeBuilt R (if b then update else insert)) db := by
  rcases select with e | (_ | ⟨sql, values⟩)
  · cases hselect
  · exact absurd rfl hsome
  · rcases hquery : executeQuery R sql values db with ⟨e | rows, db'⟩
    · have hrun : hasRow R (.ok (some (sql, values))) db = (executeQuery R sql values >>= fun rs =>
          pure (!rs.isEmpty)) db := rfl
      rw [hrun, Action.bind_error hquery] at hselect
      cases hselect
    · rw [hasRow_some rfl hquery] at hselect
      obtain ⟨hb, rfl⟩ := Prod.mk.inj hselect
      have hstep : upsertStep R (.ok (some (sql, values))) update insert db' =
          (executeQuery R sql values >>= fun rs => if !rs.isEmpty then
            ignore (executeBuilt R update) else ignore (executeBuilt R insert)) db' := rfl
      rw [hstep, Action.bind_ok hquery, ← Except.ok.inj hb]
      cases rows.isEmpty <;> rfl

/-- A select on a database without tables finds no row. -/
theorem hasRow_missing {sql : String} {values : List Obj} {as : List Atom}
    (hst : prepare sql = some (.select T as)) (hfresh : db (fold T) = none) :
    hasRow R (.ok (some (sql, values))) db = (.ok false, db) := by
  have hquery : executeQuery R sql values db = (.ok [], db) := by
    unfold executeQuery
    rw [hst]
    dsimp only
    split
    · rfl
    · simp [Sql.select, hfresh]
  exact hasRow_some rfl hquery

section Runs

variable (h : m.cls.Valid T)
include h

/-- In a database without the table the existence check finds nothing. -/
theorem isExists_missing (hK : KeysBacked m.cls.chain) (hk : keyBindings m ≠ [])
    (hfresh : db (fold T) = none) : isExistsWithModelTableName R m T db = (.ok false, db) := by
  rw [isExistsWithModelTableName, createSelectSQL_run hK hk]
  exact hasRow_missing (prepare_select h.name (keyText_isClause (keyBindings_names h))) hfresh

omit h in
/-- A table that FMDB finds is not made. -/
theorem create_found (hfound : (db (R.lowercaseString T)).isSome = true) (cls : ModelClass) :
    createTableIfNotExists R cls T db = (.ok (), db) := by
  rw [create_cases, if_pos hfound]

/-- A table that is not there is made. -/
theorem create_fresh (hfresh : db (fold T) = none) (hlower : db (R.lowercaseString T) = none) :
    createTableIfNotExists R m.cls T db =
      (.ok (), Function.update db (fold T) (some (createdTable m.cls))) := by
  have hname : Option.or (some T) m.cls.getTableName = some T := rfl
  obtain ⟨sql, hsql, hst⟩ := createTableSQL_prepare h.creates h.name hname
  have hexec : Sql.exec R.conv db
      (.create T (storedColumns m.cls.chain) (getPrimaryKeys m.cls.chain)) [] =
      some (Function.update db (fold T) (some (createdTable m.cls))) := by
    rw [Sql.exec, hfresh, if_neg (by simp), if_pos h.creates.creatable]
    rfl
  rw [create_cases, if_neg (by simp [hlower]), hsql, Option.elim_some]
  have hrun : executeUpdate R sql [] db = (.ok true, _) :=
    executeUpdate_done hst (Nat.le_refl 0) hexec
  rw [hrun]

/-- The insert of the whole model, by the name of its table. -/
theorem createInsertSQL_named : createInsertSQL R m (some T) false =
    createInsertSQL R m none false :=
  (createInsertSQL_own h.table none false).symm

end Runs

/-- The form for an array of one. -/
theorem array_run (hcreate : createTableIfNotExists R m.cls T db = (.ok (), db₁)) :
    insertToDBWithDataArrayTableNameColumnsUpdate R [m] T (some columns) db =
      upsertStep R (createSelectSQLWithPrimaryKeyAndTableName R m (some T) none)
        (createUpdateSQLWithModelAndTableName R m (some T) (some columns.sets) none)
        (createInsertSQLWithColumns R m (some T) (some columns) false) db₁ :=
  Action.bind_ok hcreate

theorem model_run (R : Runtime) (T : String) (m : Model) (columns : Columns) (db : Db) :
    insertToDBWithModelTableNameUpdateColumns R m T true columns db =
      (isExistsWithModelTableName R m T >>= fun isExists =>
        if isExists then executeBuilt R
          (createUpdateSQLWithModelAndTableName R m (some T) (some columns.sets) none)
        else insertToDBWithModelTableNameReplace R m T false) db := rfl

/-- The form for a model, when the record is there. -/
theorem model_update (hexists : isExistsWithModelTableName R m T db = (.ok true, db)) :
    insertToDBWithModelTableNameUpdateColumns R m T true columns db = executeBuilt R
      (createUpdateSQLWithModelAndTableName R m (some T) (some columns.sets) none) db := by
  rw [model_run, Action.bind_ok hexists, if_pos rfl]

/-- The form for a model, when it is not. -/
theorem model_insert (hexists : isExistsWithModelTableName R m T db = (.ok false, db))
    (hcreate : createTableIfNotExists R m.cls T db = (.ok (), db₁)) :
    insertToDBWithModelTableNameUpdateColumns R m T true columns db =
      executeBuilt R (createInsertSQL R m (some T) false) db₁ := by
  rw [model_run, Action.bind_ok hexists, if_neg (by simp)]
  exact Action.bind_ok hcreate

/-! ### Upserts that agree -/

section Agree

variable (h : m.cls.Valid T) (hc : NamesColumns m columns cs)
  (hkeys : ∀ p ∈ keyProperties m, m.value p.column ≠ none)
include h hc hkeys

omit hc in
/-- No key is archived. -/
theorem NamesStored.keysPlain (hnamed : NamesStored R m cs) : KeysPlain m := by
  intro p hp
  obtain ⟨v, hv⟩ := Option.ne_none_iff_exists'.mp (hkeys p hp)
  obtain ⟨hmem, hkey⟩ := mem_keyProperties.mp hp
  exact ⟨⟨v, hv⟩, (hnamed p hmem (h.keys p hmem hkey) v hv).1⟩

omit hc in
/-- The names are those of some columns with values. -/
theorem NamesAll.columnBindings_ne (hall : NamesAll R T m cs) : columnBindings m cs ≠ [] := by
  obtain ⟨e, he⟩ := List.exists_mem_of_ne_nil _ (keyBindings_of_values hkeys hall.keys)
  obtain ⟨p, hp, -, hv⟩ := mem_keyBindings.mp he
  obtain ⟨hmem, hkey⟩ := mem_keyProperties.mp hp
  obtain ⟨harch, hin⟩ := hall.named p hmem (h.keys p hmem hkey) e.2 hv
  have hin : p.column ∈ cs := hin.resolve_right fun hnull =>
    hall.keysStored ⟨p, hp, harch, e.2, hv, hnull⟩
  exact List.ne_nil_of_mem (mem_columnBindings.mpr ⟨hin, hv⟩ : (p.column, e.2) ∈ _)

/-- **The two inserts** write the same row into a table that has none with the key. -/
theorem NamesAll.inserts (hall : NamesAll R T m cs)
    (hexists : isExistsWithModelTableName R m T db = (.ok false, db))
    (hcreate : createTableIfNotExists R m.cls T db = (.ok (), db₁))
    (hexists₁ : isExistsWithModelTableName R m T db₁ = (.ok false, db₁))
    (hdb₁ : db₁ (fold T) = some tbl) (htbl : TableOf m.cls tbl)
    (hfree : tbl.rows.any (HasKey R tbl m) = false) : AgreesAt R T m columns db := by
  have hrow : rowOf R tbl (columnBindings m cs) = storedRow R tbl m :=
    hall.named.rows h hc hall.storable
  have hself := hasKey_of_stored h htbl hall.keys hall.keysStored hkeys fun _ _ => rfl
  have hmodel := insert_run (R := R) h hall.allBacked hdb₁ htbl hall.storable
    (insertBindings_of_values hkeys h hall.keys)
  have harray := insertText_run (R := R) h.name hdb₁ (hall.columnBindings_ne h hkeys)
    (fun e he => hc.names h e.1 (mem_columnBindings.mp he).1)
    (fun e he => hc.has htbl e.1 (mem_columnBindings.mp he).1)
    (hc.insert_run (R := R) h hall.allBacked)
  have hnone : tbl.rows.any (tbl.sameKey (storedRow R tbl m)) = false := hfree
  rw [hfree, if_neg (by simp)] at hmodel
  rw [hrow, hnone, if_neg (by simp)] at harray
  refine ⟨.ok true, Function.update db₁ (fold T)
    (some { tbl with rows := tbl.rows ++ [storedRow R tbl m] }), ?_, ?_, _,
    Function.update_self .., storedRow R tbl m, List.mem_append_right _ List.mem_cons_self, hself⟩
  · rw [model_insert hexists hcreate, createInsertSQL_named h]
    exact hmodel
  · have hselect : createSelectSQLWithPrimaryKeyAndTableName R m (some T) none ≠ .ok none := by
      rw [createSelectSQL_run hall.keysBacked (keyBindings_of_values hkeys hall.keys)]
      simp
    rw [array_run hcreate, upsertStep_run hexists₁ hselect, if_neg (by simp), ignore_run, harray]

/-- A row of the key keeps it: a named key is set to what the row has. -/
theorem NamesAll.hasKey_namedRow (hall : NamesAll R T m cs) (htbl : TableOf m.cls tbl)
    (hr : HasKey R tbl m r = true) : HasKey R tbl m (namedRow R tbl m cs r) = true := by
  rw [hasKey_eq htbl hall.keys, keyEquals_iff] at hr ⊢
  intro p hp
  obtain ⟨hmem, hkey⟩ := mem_keyProperties.mp hp
  have hcol := h.key_column hmem hkey
  obtain ⟨v, hv⟩ := Option.ne_none_iff_exists'.mp (hkeys p hp)
  by_cases hin : p.column ∈ cs
  · obtain ⟨harch, -⟩ := hall.named p hmem (h.keys p hmem hkey) v hv
    have hstored : namedRow R tbl m cs r (fold p.column) = storedRow R tbl m (fold p.column) := by
      rw [hc.namedRow_column h hmem hcol hin hv, stored_key h hp, hv, Option.map_some,
        Option.getD_some, encode_of_not_archived hv harch]
    rw [hstored]
    refine Value.equals_self fun hnull => hall.keysStored ⟨p, hp, harch, v, hv, ?_⟩
    exact (stored_key_null h hp hv harch).mp hnull
  · have hkept : namedRow R tbl m cs r (fold p.column) = r (fold p.column) := by
      refine Sql.assign_other (fun c hmemc hfold => hin ?_) r
      rw [← hc.eq_of_fold h hmem hcol hmemc hfold]
      exact hmemc
    rw [hkept]
    exact hr p hp

/-- **The update** of a record that is there leaves its key, also when it raises. -/
theorem NamesAll.updates (hall : NamesAll R T m cs) (hdb : db (fold T) = some tbl)
    (htbl : TableOf m.cls tbl) (hsome : tbl.rows.any (HasKey R tbl m) = true) :
    ∃ result db', executeBuilt R
        (createUpdateSQLWithModelAndTableName R m (some T) (some columns.sets) none) db =
        (result, db') ∧
      ∃ tbl', db' (fold T) = some tbl' ∧ ∃ r ∈ tbl'.rows, HasKey R tbl' m r = true := by
  obtain ⟨r, hr, hkey⟩ := List.any_eq_true.mp hsome
  by_cases hvalues : ∀ c ∈ cs, (m.value c).isSome
  · have hk := keyBindings_of_values hkeys hall.keys
    have hne : cs ≠ [] := by
      rintro rfl
      exact hall.columnBindings_ne h hkeys rfl
    have hsame : Addressed R tbl m = HasKey R tbl m := funext fun r =>
      ((hall.named.keysPlain h hkeys).addressed_eq h htbl).trans
        (hasKey_eq htbl hall.keys r).symm
    have hkept : ∀ r, Addressed R tbl m r = true →
        ∀ r', tbl.sameKey (namedRow R tbl m cs r) r' = tbl.sameKey r r' := by
      intro r hr r'
      rw [hsame] at hr
      have hnew := hall.hasKey_namedRow h hc hkeys htbl hr
      exact (Table.sameKey_of_sameKey hnew r').symm.trans (Table.sameKey_of_sameKey hr r')
    have hrows := Sql.updateRows_of_sameKey htbl.unique (hc.has htbl) (keyBindings_has h htbl _)
      hkept
    have hnew := hall.hasKey_namedRow h hc hkeys htbl hkey
    refine ⟨.ok true, Function.update db (fold T) (some { tbl with
      rows := tbl.rows.map fun r => if Addressed R tbl m r then namedRow R tbl m cs r else r }),
      ?_, _, Function.update_self .., namedRow R tbl m cs r, ?_, hnew⟩
    · rw [executeBuilt_some (hc.update_ok h hall.keysBacked hk hvalues)]
      refine executeUpdate_done (prepare_update h.name hne (hc.names h)
        (keyText_isClause (keyBindings_names h))) ?_ (Sql.onTable_of_some hdb ?_)
      · simp [Sql.Stmt.params, Function.comp_def, Sql.Atom.params]
      · rw [List.map_append, List.take_left' (by simp), List.drop_left' (by simp), List.map_map]
        exact hrows
    · refine List.mem_map.mpr ⟨r, hr, ?_⟩
      have hadd : Addressed R tbl m r = true := hsame ▸ hkey
      exact if_pos hadd
  · obtain ⟨e, he⟩ := hc.update_error (R := R) h hvalues
    exact ⟨.error e, db, executeBuilt_error he db, tbl, hdb, r, hr, hkey⟩

/-- **The two forms agree** when nothing that is stored is left out. -/
theorem NamesAll.agree (hall : NamesAll R T m cs) : UpsertsAgree R T m columns := by
  intro db htable
  have hk := keyBindings_of_values hkeys hall.keys
  have hfind : ∀ {db : Db} {tbl : Table}, db (fold T) = some tbl → TableOf m.cls tbl →
      isExistsWithModelTableName R m T db = (.ok (tbl.rows.any (HasKey R tbl m)), db) := by
    intro db tbl hdb htbl
    have hsame : Addressed R tbl m = HasKey R tbl m := funext fun r =>
      ((hall.named.keysPlain h hkeys).addressed_eq h htbl).trans
        (hasKey_eq htbl hall.keys r).symm
    have hexists := isExists_run (R := R) h hdb hall.keysBacked htbl hk
    rw [isExistsWithModel, createSelectSQLWithPrimaryKey, h.table, hsame] at hexists
    exact hexists
  cases hdb : db (fold T) with
  | none =>
      have hself : Function.update db (fold T) (some (createdTable m.cls)) (fold T) =
          some (createdTable m.cls) := Function.update_self ..
      exact hall.inserts h hc hkeys (isExists_missing h hall.keysBacked hk hdb)
        (create_fresh h hdb (by rw [hall.lower, hdb])) (hfind hself (created_tableOf h)) hself
        (created_tableOf h) rfl
  | some tbl =>
      have htbl := htable tbl hdb
      have hthere : (db (R.lowercaseString T)).isSome = true := by
        rw [hall.lower, hdb]
        rfl
      have hcreate := create_found hthere m.cls
      have hexists := hfind hdb htbl
      cases hany : tbl.rows.any (HasKey R tbl m) with
      | false =>
          rw [hany] at hexists
          exact hall.inserts h hc hkeys hexists hcreate hexists hdb htbl hany
      | true =>
          rw [hany] at hexists
          obtain ⟨result, db', hrun, htbl'⟩ := hall.updates h hc hkeys hdb htbl hany
          refine ⟨result, db', by rw [model_update hexists, hrun], ?_, htbl'⟩
          have hselect :
              createSelectSQLWithPrimaryKeyAndTableName R m (some T) none ≠ .ok none := by
            rw [createSelectSQL_run hall.keysBacked hk]
            simp
          rw [array_run hcreate, upsertStep_run hexists hselect, if_pos rfl, ignore_run, hrun]

end Agree

/-! ### Upserts of an empty database -/

/-- The database with the table that an upsert makes in an empty one. -/
def freshDb (T : String) (cls : ModelClass) : Db :=
  Function.update (fun _ => none) (fold T) (some (createdTable cls))

theorem freshDb_self (T : String) (cls : ModelClass) :
    freshDb T cls (fold T) = some (createdTable cls) := Function.update_self ..

/-- The existence check finds nothing in an empty database, if it does not raise. -/
theorem isExists_empty (hT : Name T) (m : Model) :
    (∃ e, isExistsWithModelTableName R m T (fun _ => none) = (.error e, fun _ => none)) ∨
      isExistsWithModelTableName R m T (fun _ => none) = (.ok false, fun _ => none) := by
  unfold isExistsWithModelTableName
  cases hw : wherePrimaryKeySQLWithModel R m with
  | error e =>
      have hbuilt : createSelectSQLWithPrimaryKeyAndTableName R m (some T) none = .error e := by
        simp only [createSelectSQLWithPrimaryKeyAndTableName, hw]
        rfl
      exact .inl ⟨e, hasRow_error hbuilt _⟩
  | ok w =>
      obtain ⟨keys, hkeys, hclause⟩ := wherePrimaryKeySQL_keys hw
      obtain ⟨g, -, hg⟩ := select_read R hkeys w.2
      have hbuilt : createSelectSQLWithPrimaryKeyAndTableName R m (some T) none =
          .ok (some ("SELECT " ++ ("*" ++ (" FROM " ++ (T ++ keyText keys))), w.2)) := by
        simp only [createSelectSQLWithPrimaryKeyAndTableName, hw, ← hclause]
        rfl
      have hquery : executeQuery R ("SELECT " ++ ("*" ++ (" FROM " ++ (T ++ keyText keys)))) w.2
          (fun _ => none) = (.ok [], fun _ => none) := by
        rw [hg T hT]
        rfl
      exact .inr (hasRow_some hbuilt hquery)

/-- What the form for a model leaves has a row of the model. -/
theorem AgreesAt.row (hat : AgreesAt R T m columns db) {x : Except Fault Bool} {db' : Db}
    (hrun : insertToDBWithModelTableNameUpdateColumns R m T true columns db = (x, db')) :
    ∃ tbl, db' (fold T) = some tbl ∧ ∃ r ∈ tbl.rows, HasKey R tbl m r = true := by
  obtain ⟨result, db'', hmodel, -, hrow⟩ := hat
  obtain ⟨-, rfl⟩ := Prod.mk.inj (hrun.symm.trans hmodel)
  exact hrow

/-- Both forms leave the same database. -/
theorem AgreesAt.same (hat : AgreesAt R T m columns db) {x : Except Fault Bool}
    {y : Except Fault Unit} {db' db'' : Db}
    (hmodel : insertToDBWithModelTableNameUpdateColumns R m T true columns db = (x, db'))
    (harray : insertToDBWithDataArrayTableNameColumnsUpdate R [m] T (some columns) db =
      (y, db'')) : db' = db'' := by
  obtain ⟨result, db₀, hmodel', harray', -⟩ := hat
  obtain ⟨-, rfl⟩ := Prod.mk.inj (hmodel.symm.trans hmodel')
  exact (Prod.mk.inj (harray.symm.trans harray')).2.symm

section Empty

variable (h : m.cls.Valid T) (hat : AgreesAt R T m columns fun _ => none)
include h hat

/-- The form for a model inserts into the table it makes. -/
theorem AgreesAt.model_inserts :
    insertToDBWithModelTableNameUpdateColumns R m T true columns (fun _ => none) =
      insertToDBWithModelReplace R m false (freshDb T m.cls) := by
  rcases isExists_empty (R := R) h.name m with ⟨e, he⟩ | hfalse
  · have hrun : insertToDBWithModelTableNameUpdateColumns R m T true columns (fun _ => none) =
        (.error e, fun _ => none) := by
      rw [model_run]
      exact Action.bind_error he
    obtain ⟨tbl, hnone, -⟩ := hat.row hrun
    cases hnone
  · rw [model_insert hfalse (create_fresh h rfl rfl), createInsertSQL_named h]
    rfl

/-- An insert that leaves the new table empty leaves no row of the model. -/
theorem AgreesAt.inserts {x : Except Fault Bool} :
    insertToDBWithModelReplace R m false (freshDb T m.cls) ≠ (x, freshDb T m.cls) := by
  intro hinsert
  obtain ⟨tbl, htbl, r, hr, -⟩ := hat.row ((hat.model_inserts h).trans hinsert)
  obtain rfl := Option.some.inj ((freshDb_self T m.cls).symm.trans htbl)
  cases hr

omit h in
theorem AgreesAt.keysBacked : KeysBacked m.cls.chain := by
  by_contra hK
  have hrun : insertToDBWithModelTableNameUpdateColumns R m T true columns (fun _ => none) =
      (.error .invalidArgument, fun _ => none) := by
    rw [model_run]
    exact Action.bind_error (hasRow_error (createSelectSQL_error hK) _)
  obtain ⟨tbl, hnone, -⟩ := hat.row hrun
  cases hnone

theorem AgreesAt.allBacked : AllBacked m.cls.chain (properties m.cls.chain) := by
  have hown : Option.or none m.cls.getTableName = some T := h.table
  by_contra hA
  exact hat.inserts h (executeBuilt_error (createInsertSQL_error (R := R) false hown hA) _)

theorem AgreesAt.storable : Storable m := by
  intro p hp hcol hv
  by_contra hno
  have hhas := created_has_not h hp hcol (Bool.not_eq_true _ ▸ hno)
  exact hat.inserts h (insert_rejected h (hat.allBacked h) (freshDb_self T m.cls) hp hcol hv hhas)

/-- The form for a model leaves the row of the model, and nothing else. -/
theorem AgreesAt.model_stores :
    insertToDBWithModelTableNameUpdateColumns R m T true columns (fun _ => none) = (.ok true,
      Function.update (freshDb T m.cls) (fold T)
        (some (rowTable m.cls (storedRow R (createdTable m.cls) m)))) := by
  have hown : Option.or none m.cls.getTableName = some T := h.table
  have hne : insertBindings R m (properties m.cls.chain) ≠ [] := by
    intro hnil
    have hbuilt := createInsertSQL_run (R := R) false hown (hat.allBacked h)
    rw [hnil] at hbuilt
    exact hat.inserts h (executeBuilt_none hbuilt _)
  rw [hat.model_inserts h, insert_run h (hat.allBacked h) (freshDb_self T m.cls)
    (created_tableOf h) (hat.storable h) hne]
  rfl

/-- Which has the key of the model. -/
theorem AgreesAt.stored_key : ∃ r,
    HasKey R (rowTable m.cls (storedRow R (createdTable m.cls) m)) m r = true := by
  obtain ⟨tbl, htbl, r, -, hkey⟩ := hat.row (hat.model_stores h)
  rw [Function.update_self] at htbl
  obtain rfl := Option.some.inj htbl
  exact ⟨r, hkey⟩

theorem AgreesAt.keys : getPrimaryKeys m.cls.chain ≠ [] := by
  obtain ⟨r, hkey⟩ := hat.stored_key h
  intro hnil
  rw [HasKey, Table.sameKey, rowTable, createdTable, hnil] at hkey
  cases hkey

theorem AgreesAt.keysStored : ¬ SomeKeyNull R m := by
  obtain ⟨r, hkey⟩ := hat.stored_key h
  intro hnull
  rw [not_hasKey_of_null h (rowTable_tableOf h _) hnull] at hkey
  cases hkey

/-- The form for an array leaves the same row. -/
theorem AgreesAt.named (hc : NamesColumns m columns cs)
    (hkeys : ∀ p ∈ keyProperties m, m.value p.column ≠ none) : NamesStored R m cs := by
  have hk := keyBindings_of_values hkeys (hat.keys h)
  have hexists := isExists_run (R := R) h (freshDb_self T m.cls) (hat.keysBacked)
    (created_tableOf h) hk
  rw [isExistsWithModel, createSelectSQLWithPrimaryKey, h.table] at hexists
  have hselect : createSelectSQLWithPrimaryKeyAndTableName R m (some T) none ≠ .ok none := by
    rw [createSelectSQL_run (hat.keysBacked) hk]
    simp
  have hrun : insertToDBWithDataArrayTableNameColumnsUpdate R [m] T (some columns)
      (fun _ => none) = ignore (executeBuilt R (createInsertSQLWithColumns R m (some T)
        (some columns) false)) (freshDb T m.cls) := by
    rw [array_run (create_fresh h rfl rfl)]
    exact upsertStep_run hexists hselect
  have hinsert := hc.insert_run (R := R) h (hat.allBacked h)
  have hne : columnBindings m cs ≠ [] := by
    intro hnil
    rw [hnil] at hinsert
    rw [ignore_run, executeBuilt_none hinsert] at hrun
    have hsame : _ = freshDb T m.cls (fold T) :=
      congrFun (hat.same (hat.model_stores h) hrun) (fold T)
    rw [Function.update_self, freshDb_self] at hsame
    cases congrArg Table.rows (Option.some.inj hsame)
  have hdone := insertText_run (R := R) h.name (freshDb_self T m.cls) hne
    (fun e he => hc.names h e.1 (mem_columnBindings.mp he).1)
    (fun e he => hc.has (created_tableOf h) e.1 (mem_columnBindings.mp he).1) hinsert
  rw [ignore_run, hdone] at hrun
  have hsame := congrFun (hat.same (hat.model_stores h) hrun) (fold T)
  dsimp only at hsame
  rw [Function.update_self, Function.update_self] at hsame
  have hrows : [storedRow R (createdTable m.cls) m] =
      [rowOf R (createdTable m.cls) (columnBindings m cs)] :=
    congrArg Table.rows (Option.some.inj hsame)
  exact namesStored_of_rows h hc (created_tableOf h) (List.singleton_inj.mp hrows).symm

end Empty

/-! ### Both directions -/

section Both

variable (hkeys : ∀ p ∈ keyProperties m, m.value p.column ≠ none)
include hkeys

/-- FMDB looks the table up as SQLite does: a table that only FMDB finds is not made, and nothing
is inserted. -/
theorem UpsertsAgree.lower (h : m.cls.Valid T) (hagree : UpsertsAgree R T m columns) :
    R.lowercaseString T = fold T := by
  have hempty := hagree (fun _ => none) fun _ hnone => by cases hnone
  have hk := keyBindings_of_values hkeys (hempty.keys h)
  by_contra hne
  let db : Db := Function.update (fun _ => none) (R.lowercaseString T) (some (createdTable m.cls))
  have hfresh : db (fold T) = none := Function.update_of_ne (Ne.symm hne) ..
  have hfound : (db (R.lowercaseString T)).isSome = true := by simp [db]
  have hat := hagree db fun tbl hdb => by rw [hfresh] at hdb; cases hdb
  have hkeeps : KeepsTables (executeValues R (createInsertSQL R m (some T) false)) :=
    insert_keepsTables fun _ _ => createInsertSQLWithColumns_some
  have hbuilt : executeValues R (createInsertSQL R m (some T) false) =
      executeBuilt R (createInsertSQL R m (some T) false) :=
    executeValues_eq fun _ _ hb => (createInsertSQLWithColumns_some hb).2
  rw [hbuilt] at hkeeps
  have hnone := hkeeps db (fold T)
  have hrun : insertToDBWithModelTableNameUpdateColumns R m T true columns db =
      executeBuilt R (createInsertSQL R m (some T) false) db :=
    model_insert (isExists_missing h hempty.keysBacked hk hfresh) (create_found hfound m.cls)
  rcases hinsert : executeBuilt R (createInsertSQL R m (some T) false) db with ⟨x, db'⟩
  rw [hinsert] at hrun hnone
  obtain ⟨tbl, htbl, -⟩ := hat.row hrun
  have hnone : (db' (fold T)).isSome = (db (fold T)).isSome := hnone
  rw [htbl, hfresh] at hnone
  cases hnone

/-- Under its own table nothing of a model is left out where the two forms agree. -/
theorem UpsertsAgree.namesAll (h : m.cls.Valid T) (hc : NamesColumns m columns cs)
    (hagree : UpsertsAgree R T m columns) : NamesAll R T m cs := by
  have hat := hagree (fun _ => none) fun _ hnone => by cases hnone
  exact
    { keys := hat.keys h
      keysBacked := hat.keysBacked
      allBacked := hat.allBacked h
      storable := hat.storable h
      keysStored := hat.keysStored h
      lower := hagree.lower hkeys h
      named := hat.named h hc hkeys }

end Both

theorem tableOf_withTable {cls : ModelClass} : TableOf (cls.withTable T) tbl ↔ TableOf cls tbl :=
  ⟨fun h => ⟨h.has, h.affinity, h.primaryKey, h.unique⟩,
    fun h => ⟨h.has, h.affinity, h.primaryKey, h.unique⟩⟩

/-- The two forms name the table themselves: that of the class does not matter. -/
theorem upsertsAgree_withTable :
    UpsertsAgree R T (m.withTable T) columns ↔ UpsertsAgree R T m columns :=
  forall_congr' fun _ => imp_congr (forall₂_congr fun _ _ => tableOf_withTable) Iff.rfl

theorem namesAll_withTable : NamesAll R T (m.withTable T) cs ↔ NamesAll R T m cs := by
  constructor
  · intro h
    exact ⟨h.keys, h.keysBacked, h.allBacked, h.storable, h.keysStored, h.lower, h.named⟩
  · intro h
    exact ⟨h.keys, h.keysBacked, h.allBacked, h.storable, h.keysStored, h.lower, h.named⟩

theorem UpsertsAgree.namesAll_withTable (h : (m.cls.withTable T).Valid T)
    (hkeys : ∀ p ∈ keyProperties m, m.value p.column ≠ none) (hc : NamesColumns m columns cs)
    (hagree : UpsertsAgree R T m columns) : NamesAll R T m cs := by
  have hnames : NamesColumns (m.withTable T) columns cs := ⟨hc.form, hc.stored⟩
  exact NBDataBase.namesAll_withTable.mp
    ((upsertsAgree_withTable.mpr hagree).namesAll hkeys h hnames)

/-- **An upsert of named columns** is the same for a model and for an array of one exactly when the
names leave out nothing that the insert of the whole model stores. -/
theorem upsertsAgree_iff (R : Runtime) (m : Model) (T : String) (columns : Columns)
    (cs : List String) (h : (m.cls.withTable T).Valid T)
    (hkeys : ∀ p ∈ keyProperties m, m.value p.column ≠ none) (hc : NamesColumns m columns cs) :
    UpsertsAgree R T m columns ↔ NamesAll R T m cs := by
  constructor
  · intro hagree
    exact hagree.namesAll_withTable h hkeys hc
  · intro hall
    have hnames : NamesColumns (m.withTable T) columns cs := ⟨hc.form, hc.stored⟩
    exact upsertsAgree_withTable.mp ((namesAll_withTable.mpr hall).agree h hnames hkeys)

/-! ### Users -/

/-- The demo's users, in a table of another name. -/
theorem userClass_staff : (userClass.withTable "tb_staff").Valid "tb_staff" where
  table := rfl
  name := by decide +kernel
  ordinary := by decide +kernel
  columns := userClass_valid.columns
  distinct := userClass_valid.distinct
  keys := userClass_valid.keys
  stores := userClass_valid.stores

theorem user_key_values (name : Option String) :
    ∀ p ∈ keyProperties (user name), (user name).value p.column ≠ none := by
  intro p hp
  obtain ⟨v, hv⟩ := (user_keysPlain name p hp).1
  simp [hv]

/-- The names are those of columns of a user. -/
theorem user_names (name : Option String) {cs : List String}
    (hcs : ∀ c ∈ cs, c ∈ ["_uid", "_name", "_age"]) : NamesColumns (user name) (.array cs) cs := by
  have hall : ∀ c ∈ ["_uid", "_name", "_age"], ∃ p ∈ properties userClass.chain,
      p.isStored = true ∧ p.column = c := by decide +kernel
  exact ⟨.inl rfl, fun c hc => hall c (hcs c hc)⟩

/-- The age is not named: a user that is not in the table is inserted with it as a model, and
without it as an array of one. -/
theorem age_left_out :
    (userClass.withTable "tb_staff").Valid "tb_staff" ∧
      (∀ p ∈ keyProperties (user (some "Ann")), (user (some "Ann")).value p.column ≠ none) ∧
      NamesColumns (user (some "Ann")) (.array ["_uid", "_name"]) ["_uid", "_name"] ∧
      ¬ UpsertsAgree demoRuntime "tb_staff" (user (some "Ann")) (.array ["_uid", "_name"]) := by
  have hnames := user_names (some "Ann") (by decide : ∀ c ∈ ["_uid", "_name"], _)
  refine ⟨userClass_staff, user_key_values _, hnames, fun hagree => ?_⟩
  have hall := hagree.namesAll_withTable userClass_staff (user_key_values _) hnames
  have hage : (user (some "Ann")).value (⟨"age", "d", "age"⟩ : Property).column =
      some (.number (.double (some (.finite 20)))) := by decide +kernel
  obtain ⟨-, hin⟩ := hall.named ⟨"age", "d", "age"⟩ (by decide +kernel) (by decide +kernel) _ hage
  rcases hin with hin | hnull
  · revert hin
    decide +kernel
  · cases hnull

/-- With every column named the two forms agree. -/
theorem whole_user_agrees : UpsertsAgree demoRuntime "tb_staff" (user (some "Ann"))
    (.array ["_uid", "_name", "_age"]) := by
  have hkeys := user_key_values (some "Ann")
  refine (upsertsAgree_iff demoRuntime (user (some "Ann")) "tb_staff" _ ["_uid", "_name", "_age"]
    userClass_staff hkeys (user_names _ fun _ hc => hc)).mpr
    { keys := by decide +kernel
      keysBacked := by decide +kernel
      allBacked := by decide +kernel
      storable := ?_
      keysStored := ?_
      lower := rfl
      named := fun p hp _ v _ => ⟨user_plain _ hp, .inl ?_⟩ }
  · have hall : ∀ p ∈ properties userClass.chain, p.isStored = true := by decide +kernel
    exact fun p hp _ _ => hall p hp
  · rintro ⟨p, hp, -, v, hv, hnull⟩
    obtain rfl := user_keys _ p hp
    have huid : (user (some "Ann")).value (⟨"_pk_uid", "@\"NSString\"", "uid"⟩ : Property).column =
        some (.string "NSString" "1") := by decide +kernel
    rw [huid] at hv
    obtain rfl := Option.some.inj hv
    cases hnull
  · have hcolumns : ∀ p ∈ properties userClass.chain,
        p.column ∈ ["_uid", "_name", "_age"] := by decide +kernel
    exact hcolumns p hp

end NBDataBase
