import NBDataBase.Orm.Issues

/-!
# Orm — runs of operations

What any sequence of operations on a connection does to the database, whatever they return and
whichever of them raise.

* `Operation.kinds`, `Operation.tables`: the statements an operation issues, and their tables.
* `perform_steps`: an operation changes the database by changes of its kinds to its tables;
  `runOperations_steps`: so does a run.
* `runOperations_sound`: a run keeps the database sound.
* `runOperations_untouched`: a table that no operation names is as it was.
* `runOperations_extends`, `runOperations_keeps`: a table that is not dropped keeps its columns and
  its key, and one that is only added to keeps its rows.
-/

namespace NBDataBase
open Sql (Db Table Kind Name fold)
open Relation (ReflTransGen)

namespace Operation

/-! ### Kinds and tables -/

/-- The kinds of the statements that an operation issues. -/
def kinds : Operation → List Kind
  | updateTableInDB _ | createTableTableNames _ _ => [.create, .addColumn]
  | insertToDBWithModelReplace _ replace | insertToDBWithModelTableReplace _ _ replace =>
      [.insert replace]
  | insertToDBWithModelUpdate _ update | insertToDBWithModelUpdateColumns _ update _ =>
      if update then [.update, .insert false] else [.insert false]
  | insertToDBWithModelTableNameReplace _ _ replace => [.create, .insert replace]
  | insertToDBWithModelTableNameUpdateColumns _ _ update _
  | insertToDBWithDataArrayUpdate _ _ _ update =>
      if update then [.update, .create, .insert false] else [.create, .insert false]
  | writeArray (.insertTable _ replace) _ => [.insert replace]
  | writeArray (.insertTableName _ replace) _ | writeArray (.insertColumns _ _ replace) _
  | insertStrings _ _ _ _ replace | insertNumbers _ _ _ _ replace => [.create, .insert replace]
  | writeArray (.updateTable _ _) _ | writeArray (.updateTableName _ _) _ => [.update]
  | deleteRecordWithModel _ | deleteRecordWithModelTableName _ _
  | deleteRecordFromTableName _ _ | eraseTableName _ => [.delete]
  | deleteTableName _ => [.drop]
  | updateWithModelTableSetWhere _ _ _ _ | updateWithModelTableNameSetWhere _ _ _ _
  | updateTableNameSetWhere _ _ _ => [.update]
  | isExistsWithModel _ | isExistsWithModelTableName _ _ | isExistTableName _ | query _ _ => []

/-- The tables that an operation writes to. -/
def tables : Operation → List String
  | updateTableInDB registedClassesArray =>
      registedClassesArray.filterMap fun cls => cls.bind (·.getTableName)
  | createTableTableNames tableClass tableNameArray =>
      formatted tableClass.getTableName :: tableNameArray
  | insertToDBWithModelReplace model _ | insertToDBWithModelUpdate model _
  | insertToDBWithModelUpdateColumns model _ _ | deleteRecordWithModel model =>
      [formatted model.cls.getTableName]
  | insertToDBWithModelTableReplace _ tableClass _ | writeArray (.insertTable tableClass _) _
  | writeArray (.updateTable tableClass _) _ | updateWithModelTableSetWhere _ tableClass _ _ =>
      [formatted tableClass.getTableName]
  | insertToDBWithModelTableNameReplace _ tableName _
  | insertToDBWithModelTableNameUpdateColumns _ tableName _ _
  | writeArray (.insertTableName tableName _) _ | writeArray (.insertColumns tableName _ _) _
  | writeArray (.updateTableName tableName _) _ | insertStrings _ _ tableName _ _
  | insertNumbers _ _ tableName _ _
  | deleteRecordWithModelTableName _ tableName | deleteRecordFromTableName tableName _
  | deleteTableName tableName | eraseTableName tableName
  | updateWithModelTableNameSetWhere _ tableName _ _ | updateTableNameSetWhere tableName _ _ =>
      [tableName]
  | insertToDBWithDataArrayUpdate array tableName _ _ =>
      -- a longer array is written to the tables of its models
      tableName :: array.map fun data => formatted data.cls.getTableName
  | isExistsWithModel _ | isExistsWithModelTableName _ _ | isExistTableName _ | query _ _ => []

end Operation

variable {R : Runtime} {P : Platform} {order : KeyOrder} {ks : List Kind} {Ts : List String}
  {T : String} {cls : ModelClass}

/-! ### Migrations -/

theorem issue_within {k : Kind} {sql : String} (hk : k ∈ ks) (hT : T ∈ Ts) (h : Reads k T sql) :
    Action.Within R ks Ts (issue R sql) :=
  .bind (executeUpdate_within hk hT h []) fun _ => .pure [sql]

theorem alterStep_within (hk : .addColumn ∈ ks) (hT : T ∈ Ts) (dic : ColumnTypes) (key : String) :
    Action.Within R ks Ts (alterStep R T dic key) := by
  unfold alterStep
  split
  · exact .pure []
  · exact issue_within hk hT (reads_alter key _)

theorem migrateTable_within (hcreate : .create ∈ ks) (halter : .addColumn ∈ ks)
    (hown : formatted cls.getTableName ∈ Ts) (hT : T ∈ Ts) :
    Action.Within R ks Ts (migrateTable R order cls T) := by
  refine .bind (tableExists_within T) fun b => ?_
  cases b with
  | false =>
      rw [Bool.not_false, if_pos rfl]
      split
      · rename_i sql hsql
        exact issue_within hcreate hown (createTableSQLWithTableName_reads hsql)
      · exact .pure []
  | true =>
      refine .bind (getTableSchema_within T) fun columnNames => ?_
      dsimp only
      split
      · exact .pure []
      · exact .collect fun key _ => alterStep_within halter hT _ key

theorem updateTable_within (hcreate : .create ∈ ks) (halter : .addColumn ∈ ks)
    (hT : ∀ T, cls.getTableName = some T → T ∈ Ts) :
    Action.Within R ks Ts (updateTable R order cls) := by
  unfold updateTable
  split
  · exact .pure []
  · rename_i T hname
    refine migrateTable_within hcreate halter ?_ (hT T hname)
    rw [hname]
    exact hT T hname

/-! ### Inserts of arrays -/

theorem insertTableName_within {replace : Bool} (hcreate : .create ∈ ks)
    (hinsert : .insert replace ∈ ks) (hT : T ∈ Ts) (model : Model) :
    Action.Within R ks Ts (insertToDBWithModelTableNameReplace R model T replace) :=
  .bind (createTableIfNotExists_within hcreate hT model.cls) fun _ =>
    executeBuilt_within hinsert hT (createInsertSQL_issues (some T) replace)

theorem updateTableName_within (hupdate : .update ∈ ks) (hT : T ∈ Ts) (model : Model)
    (sets : Option Sets) (condition : Option Where) :
    Action.Within R ks Ts (updateWithModelTableNameSetWhere R model T sets condition) :=
  named_within (executeBuilt_within hupdate hT
    (createUpdateSQLWithModelAndTableName_issues (some T) sets condition))

theorem updateTableSet_within (hupdate : .update ∈ ks) (hT : formatted cls.getTableName ∈ Ts)
    (model : Model) (sets : Option Sets) (condition : Option Where) :
    Action.Within R ks Ts (updateWithModelTableSetWhere R model cls sets condition) :=
  named_within (executeBuilt_within hupdate hT
    (createUpdateSQLWithModelAndTableName_issues cls.getTableName sets condition))

/-- An array of models, by its form. -/
theorem write_steps {execute : String → Action Bool} (w : ArrayWrite) (array : List Model)
    (hks : ∀ k ∈ (Operation.writeArray w array).kinds, k ∈ ks)
    (hTs : ∀ T ∈ (Operation.writeArray w array).tables, T ∈ Ts) (hnames : ∀ T ∈ Ts, Name T)
    (conn : DbConnection) :
    ReflTransGen (Sql.Step R.conv (Changes ks Ts)) conn.db (w.write R execute array conn).2.db := by
  rcases array with _ | ⟨data, _ | ⟨data', rest⟩⟩
  · exact .refl
  · cases w with
    | insertTable tableClass replace =>
        exact ignore_within (executeValues_within (hks _ (by simp [Operation.kinds]))
          (hTs _ (by simp [Operation.tables, formatted]))
          (createInsertSQLWithModelAndBeginClass_issues tableClass replace)) hnames conn.db
    | insertTableName tableName replace =>
        exact ignore_within (insertTableName_within (hks _ (by simp [Operation.kinds]))
          (hks _ (by simp [Operation.kinds])) (hTs _ (by simp [Operation.tables])) data)
            hnames conn.db
    | insertColumns tableName columns replace =>
        exact Action.Within.bind (createTableIfNotExists_within (hks _ (by simp [Operation.kinds]))
          (hTs _ (by simp [Operation.tables])) data.cls) (fun _ => ignore_within
            (executeValues_within (hks _ (by simp [Operation.kinds]))
              (hTs _ (by simp [Operation.tables, formatted]))
              (createInsertSQLWithColumns_issues (some tableName) columns replace))) hnames conn.db
    | updateTable tableClass sets =>
        exact ignore_within (updateTableSet_within (hks _ (by simp [Operation.kinds]))
          (hTs _ (by simp [Operation.tables, formatted])) data sets none) hnames conn.db
    | updateTableName tableName sets =>
        exact ignore_within (updateTableName_within (hks _ (by simp [Operation.kinds]))
          (hTs _ (by simp [Operation.tables])) data sets none) hnames conn.db
  · cases w with
    | insertTable tableClass replace =>
        exact run_within (.pure ()) (fun data _ =>
          executeValues_within (hks _ (by simp [Operation.kinds]))
          (hTs _ (by simp [Operation.tables, formatted]))
          (createInsertSQLWithModelAndBeginClass_issues tableClass replace)) hnames conn
    | insertTableName tableName replace =>
        exact run_within (createTableIfNotExists_within (hks _ (by simp [Operation.kinds]))
          (hTs _ (by simp [Operation.tables])) data.cls) (fun data _ => executeValues_within
            (hks _ (by simp [Operation.kinds])) (hTs _ (by simp [Operation.tables, formatted]))
            (createInsertSQL_issues (some tableName) replace)) hnames conn
    | insertColumns tableName columns replace =>
        exact run_within (createTableIfNotExists_within (hks _ (by simp [Operation.kinds]))
          (hTs _ (by simp [Operation.tables])) data.cls) (fun data _ => executeValues_within
            (hks _ (by simp [Operation.kinds])) (hTs _ (by simp [Operation.tables, formatted]))
            (createInsertSQLWithColumns_issues (some tableName) columns replace)) hnames conn
    | updateTable tableClass sets =>
        exact run_within (.pure ()) (fun data _ =>
          executeBuilt_within (hks _ (by simp [Operation.kinds]))
          (hTs _ (by simp [Operation.tables, formatted]))
          (createUpdateSQLWithModelAndTableName_issues tableClass.getTableName sets none))
            hnames conn
    | updateTableName tableName sets =>
        exact run_within (.pure ()) (fun data _ =>
          executeBuilt_within (hks _ (by simp [Operation.kinds]))
          (hTs _ (by simp [Operation.tables, formatted]))
          (createUpdateSQLWithModelAndTableName_issues (some tableName) sets none)) hnames conn

theorem upsertOne_within (hupdate : .update ∈ ks) (hcreate : .create ∈ ks)
    (hinsert : .insert false ∈ ks) (hT : T ∈ Ts) (data : Model) (columns : Option Columns) :
    Action.Within R ks Ts
      (insertToDBWithDataArrayTableNameColumnsUpdate R [data] T columns) := by
  refine .bind (createTableIfNotExists_within hcreate hT data.cls) fun _ =>
    .bind (getTableSchema_within T) fun _ => ?_
  rw [upsertStep_eq]
  exact ignore_within (upsertResult_within hupdate hinsert hT hT
    (createUpdateSQLWithModelAndTableName_issues (some T) _ none)
    (createInsertSQLWithColumns_issues (some T) columns false))

/-- An array of models, with or without updates. -/
theorem insertUpdate_steps {execute : String → Action Bool} (array : List Model) (T : String)
    (columns : Option Columns) (update : Bool)
    (hks : ks = (Operation.insertToDBWithDataArrayUpdate array T columns update).kinds)
    (hTs : Ts = (Operation.insertToDBWithDataArrayUpdate array T columns update).tables)
    (hnames : ∀ T ∈ Ts, Name T) (conn : DbConnection) :
    ReflTransGen (Sql.Step R.conv (Changes ks Ts)) conn.db
      (insertToDBWithDataArrayUpdate R execute array T columns update conn).2.db := by
  have hT : T ∈ Ts := by simp [hTs, Operation.tables]
  have hcreate : Kind.create ∈ ks := by cases update <;> simp [hks, Operation.kinds]
  have hinsert : Kind.insert false ∈ ks := by cases update <;> simp [hks, Operation.kinds]
  have hown : ∀ data ∈ array, formatted data.cls.getTableName ∈ Ts := by
    intro data hdata
    rw [hTs, Operation.tables]
    exact List.mem_cons_of_mem _ (List.mem_map_of_mem hdata)
  cases update with
  | false =>
      have hplain : ReflTransGen (Sql.Step R.conv (Changes ks Ts)) conn.db
          ((ArrayWrite.insertColumns T columns false).write R execute array conn).2.db :=
        write_steps _ array (by simp [Operation.kinds, hcreate, hinsert])
          (by simp [Operation.tables, hT]) hnames conn
      rcases array with _ | ⟨data, _ | ⟨data', rest⟩⟩
      · exact .refl
      · exact hplain
      · exact hplain
  | true =>
      have hupdate : Kind.update ∈ ks := by simp [hks, Operation.kinds]
      rcases array with _ | ⟨data, _ | ⟨data', rest⟩⟩
      · exact .refl
      · exact upsertOne_within hupdate hcreate hinsert hT data columns hnames conn.db
      · have hstart : Action.Within R ks Ts
            ((BatchWrite.upsert T columns).start R (data :: data' :: rest)) :=
          .bind (createTableIfNotExists_within hcreate hT data.cls) fun _ =>
            .bind (getTableSchema_within T) fun _ => .pure ()
        have helement : ∀ x ∈ data :: data' :: rest, Action.Within R ks Ts
            ((BatchWrite.upsert T columns).element R execute x) := fun x hx =>
          upsertResult_within hupdate hinsert (hown x hx) (hown x hx)
            (createUpdateSQLWithModelAndTableName_issues x.cls.getTableName _ none)
            (createInsertSQLWithColumns_issues none columns false)
        exact run_within hstart helement hnames conn

/-- The insert of a value as text, as the literal that it holds or as any other statement. -/
theorem executeText_within {replace : Bool} (hk : .insert replace ∈ ks) (hT : T ∈ Ts)
    (C v : String) : Action.Within R ks Ts
      (executeText R (fun sql => executeUpdate R sql []) (insertValueText T C v replace)) := by
  intro hnames
  unfold executeText
  cases hread : readInsert (insertValueText T C v replace) with
  | none => exact executeUpdate_within hk hT (reads_value C v replace) [] hnames
  | some i =>
      obtain ⟨hreplace, htable⟩ := readInsert_value (hnames T hT) hread
      refine Steps.Within.of_step fun db => ?_
      dsimp only
      split
      · exact .inl rfl
      · split
        · rename_i db' hexec
          refine .inr ⟨.insert replace, T, ⟨hk, hT⟩, ?_⟩
          have hdoes := Sql.exec_does (k := .insert i.replace) rfl hexec
          rw [hreplace] at hdoes
          exact htable ▸ hdoes
        · exact .inl rfl

/-- An array of strings, each as the text of its insert. -/
theorem insertStrings_steps (dataClass : ModelClass) (array : List String) (C : String)
    (replace : Bool) (hT : Name T) (conn : DbConnection) :
    ReflTransGen (Sql.Step R.conv (Changes [.create, .insert replace] [T])) conn.db
      (insertStrings R (executeText R fun sql => executeUpdate R sql []) dataClass array T C
        replace conn).2.db := by
  have hnames : ∀ t ∈ [T], Name t := fun t ht => List.mem_singleton.mp ht ▸ hT
  have hone : ∀ s ∈ array, Action.Within R [.create, .insert replace] [T]
      (executeText R (fun sql => executeUpdate R sql []) (stringText T C replace s)) := fun s _ =>
    executeText_within (by simp) (by simp) C _
  have hstart : Action.Within R [.create, .insert replace] [T]
      (createTableIfNotExists R dataClass T) :=
    createTableIfNotExists_within (by simp) (by simp) dataClass
  rcases array with _ | ⟨data, _ | ⟨data', rest⟩⟩
  · exact .refl
  · exact Action.Within.bind hstart (fun _ => ignore_within (hone data (by simp))) hnames conn.db
  · exact run_within hstart hone hnames conn

/-- An array of numbers. -/
theorem insertNumbers_steps (dataClass : ModelClass) (array : List NSNumber) (C : String)
    (replace : Bool) (hT : Name T) (conn : DbConnection) :
    ReflTransGen (Sql.Step R.conv (Changes [.create, .insert replace] [T])) conn.db
      (insertNumbers R (executeText R fun sql => executeUpdate R sql []) dataClass array T C
        replace conn).2.db := by
  have hnames : ∀ t ∈ [T], Name t := fun t ht => List.mem_singleton.mp ht ▸ hT
  have hone : ∀ n ∈ array, Action.Within R [.create, .insert replace] [T]
      (executeText R (fun sql => executeUpdate R sql [])
        (insertValueText T C (R.description (.number n)) replace)) := fun n _ =>
    executeText_within (by simp) (by simp) C _
  have hstart : Action.Within R [.create, .insert replace] [T]
      (createTableIfNotExists R dataClass T) :=
    createTableIfNotExists_within (by simp) (by simp) dataClass
  rcases array with _ | ⟨data, _ | ⟨data', rest⟩⟩
  · exact .refl
  · exact Action.Within.bind hstart (fun _ => ignore_within (hone data (by simp))) hnames conn.db
  · exact run_within hstart hone hnames conn

/-! ### Operations -/

theorem executeDrop_within (hk : .drop ∈ ks) (hT : T ∈ Ts) :
    Action.Within R ks Ts (executeDrop R ("DROP TABLE " ++ T)) := by
  intro hnames
  unfold executeDrop
  rw [Sql.prepareDrop_table (hnames T hT)]
  refine Steps.Within.of_step fun db => ?_
  dsimp only
  cases hrun : Sql.dropTable db T with
  | none => exact .inl rfl
  | some db' => exact .inr ⟨.drop, T, ⟨hk, hT⟩, Sql.dropTable_does hrun⟩

theorem eraseTableName_within (hk : .delete ∈ ks) (hT : T ∈ Ts) :
    Action.Within R ks Ts (eraseTableName R T) := by
  refine named_within (executeUpdate_within hk hT ?_ [])
  have htext : Reads .delete T ("DELETE FROM " ++ (T ++ "")) := reads_delete (.inl rfl)
  rwa [String.append_empty] at htext

theorem isExistTableName_within (tableName : String) :
    Action.Within R ks Ts (isExistTableName R tableName) := by
  refine .of_unchanged fun db => ?_
  unfold isExistTableName
  by_cases hlen : tableName.length = 0
  · rw [if_pos hlen, Action.bind_run, Action.build_run]
    cases assertNo R <;> rfl
  · rw [if_neg hlen]
    rfl

/-- **What an operation does** to the database it finds, however it ends, when its tables have
names. -/
theorem perform_steps {op : Operation} (hnames : ∀ T ∈ op.tables, Name T) (conn : DbConnection) :
    ReflTransGen (Sql.Step P.runtime.conv (Changes op.kinds op.tables)) conn.db
      (op.perform P conn).2.db := by
  cases op with
  | updateTableInDB registedClassesArray =>
      refine inTransactionOn_within (.collect fun cls hcls => ?_) hnames conn
      cases cls with
      | none => exact .pure []
      | some cls =>
          refine updateTable_within (by simp [Operation.kinds]) (by simp [Operation.kinds])
            fun T hT => ?_
          exact List.mem_filterMap.mpr ⟨some cls, hcls, hT⟩
  | createTableTableNames tableClass tableNameArray =>
      refine inTransactionOn_within (.collect fun T hT => ?_) hnames conn
      exact migrateTable_within (by simp [Operation.kinds]) (by simp [Operation.kinds])
        (by simp [Operation.tables]) (by simp [Operation.tables, hT])
  | insertToDBWithModelReplace model replace =>
      exact unit_within (executeBuilt_within (by simp [Operation.kinds])
        (by simp [Operation.tables]) (createInsertSQL_issues none replace)) hnames conn.db
  | insertToDBWithModelTableReplace model tableClass replace =>
      exact unit_within (executeBuilt_within (by simp [Operation.kinds])
        (by simp [Operation.tables])
        (createInsertSQLWithModelAndBeginClass_issues tableClass replace)) hnames conn.db
  | insertToDBWithModelUpdate model update =>
      exact unit_within (checked_within (hasRow_within _) (fun h => executeBuilt_within
        (by simp [Operation.kinds, h]) (by simp [Operation.tables])
        (createUpdateSQLWithModelAndTableName_issues model.cls.getTableName none none))
        (executeBuilt_within (by cases update <;> simp [Operation.kinds])
          (by simp [Operation.tables])
          (createInsertSQL_issues none false))) hnames conn.db
  | insertToDBWithModelUpdateColumns model update columns =>
      exact unit_within (checked_within (hasRow_within _) (fun h => executeBuilt_within
        (by simp [Operation.kinds, h]) (by simp [Operation.tables])
        (createUpdateSQLWithModelAndTableName_issues model.cls.getTableName (some columns) none))
        (executeBuilt_within (by cases update <;> simp [Operation.kinds])
          (by simp [Operation.tables])
          (createInsertSQL_issues none false))) hnames conn.db
  | insertToDBWithModelTableNameReplace model tableName replace =>
      exact unit_within (insertTableName_within (by simp [Operation.kinds])
        (by simp [Operation.kinds]) (by simp [Operation.tables]) model) hnames conn.db
  | insertToDBWithModelTableNameUpdateColumns model tableName update columns =>
      exact unit_within (checked_within (hasRow_within _) (fun h => executeBuilt_within
        (by simp [Operation.kinds, h]) (by simp [Operation.tables, formatted])
        (createUpdateSQLWithModelAndTableName_issues (some tableName) (some columns.sets) none))
        (insertTableName_within (by cases update <;> simp [Operation.kinds])
          (by cases update <;> simp [Operation.kinds]) (by simp [Operation.tables]) model))
            hnames conn.db
  | writeArray write array => exact write_steps write array (fun _ => id) (fun _ => id) hnames conn
  | insertToDBWithDataArrayUpdate array tableName columns update =>
      exact insertUpdate_steps array tableName columns update rfl rfl hnames conn
  | insertStrings dataClass array tableName columns replace =>
      exact insertStrings_steps dataClass array columns replace
        (hnames tableName List.mem_cons_self) conn
  | insertNumbers dataClass array tableName columns replace =>
      exact insertNumbers_steps dataClass array columns replace
        (hnames tableName List.mem_cons_self) conn
  | deleteRecordWithModel model =>
      exact unit_within (executeBuilt_within (by simp [Operation.kinds])
        (by simp [Operation.tables])
        (createDeleteSQLWithModelAndTableName_issues none none)) hnames conn.db
  | deleteRecordWithModelTableName model tableName =>
      exact unit_within (executeBuilt_within (by simp [Operation.kinds])
        (by simp [Operation.tables, formatted])
        (createDeleteSQLWithModelAndTableName_issues (some tableName) none)) hnames conn.db
  | deleteRecordFromTableName tableName condition =>
      exact unit_within (named_within (executeBuilt_within (by simp [Operation.kinds])
        (by simp [Operation.tables, formatted])
        (createDeleteSQLWithTableName_issues (some tableName) condition))) hnames conn.db
  | deleteTableName tableName =>
      exact unit_within (named_within (executeDrop_within (by simp [Operation.kinds])
        (by simp [Operation.tables]))) hnames conn.db
  | eraseTableName tableName =>
      exact unit_within (eraseTableName_within (by simp [Operation.kinds])
        (by simp [Operation.tables])) hnames conn.db
  | updateWithModelTableSetWhere model tableClass sets condition =>
      exact unit_within (updateTableSet_within (by simp [Operation.kinds])
        (by simp [Operation.tables]) model sets condition) hnames conn.db
  | updateWithModelTableNameSetWhere model tableName sets condition =>
      exact unit_within (updateTableName_within (by simp [Operation.kinds])
        (by simp [Operation.tables]) model sets condition) hnames conn.db
  | updateTableNameSetWhere tableName sets condition =>
      exact unit_within (named_within (executeBuilt_within (by simp [Operation.kinds])
        (by simp [Operation.tables, formatted])
        (createUpdateSQLWithTableName_issues (some tableName) sets condition))) hnames conn.db
  | isExistsWithModel model => exact unit_within (hasRow_within _) hnames conn.db
  | isExistsWithModelTableName model tableName => exact unit_within (hasRow_within _) hnames conn.db
  | isExistTableName tableName =>
      exact unit_within (isExistTableName_within tableName) hnames conn.db
  | query toClass params =>
      exact unit_within (Action.Within.of_unchanged fun _ => rfl) hnames conn.db

/-! ### Runs -/

variable {ops : List Operation} {conn : DbConnection} {n : String} {tbl : Table}

/-- What a run does. -/
theorem runOperations_steps (hnames : ∀ op ∈ ops, ∀ T ∈ op.tables, Name T) (conn : DbConnection) :
    ReflTransGen (Sql.Step P.runtime.conv fun k T => ∃ op ∈ ops, Changes op.kinds op.tables k T)
      conn.db (runOperations P ops conn).db := by
  have hrun : ReflTransGen (fun db db' => ∃ op ∈ ops,
      Sql.Step P.runtime.conv (Changes op.kinds op.tables) db db') conn.db
      (Steps.runAll (fun op conn => op.perform P conn) ops conn).db :=
    Steps.runAll_steps (fun op hop => perform_steps (hnames op hop)) conn
  refine ReflTransGen.mono ?_ _ _ hrun
  rintro db db' ⟨op, hop, k, T, hchanges, hdoes⟩
  exact ⟨k, T, ⟨op, hop, hchanges⟩, hdoes⟩

def demoPlatform : Platform where
  runtime := demoRuntime
  foundation := demoFoundation
  order := insertionOrder
  executeQuery _ _ _ := none

/-- **A run keeps the database sound.** -/
theorem runOperations_sound (hnames : ∀ op ∈ ops, ∀ T ∈ op.tables, Name T)
    (hdb : Db.Sound P.runtime.conv conn.db) :
    Db.Sound P.runtime.conv (runOperations P ops conn).db := by
  refine Steps.invariant ?_ (runOperations_steps hnames conn) hdb
  rintro db db' ⟨k, T, -, hdoes⟩ hsound
  exact hdoes.sound hsound

theorem first_shelf_sound : Db.Sound demoRuntime.conv
    (runOperations demoPlatform
      [.updateTableInDB [some bookClass], .writeArray (.insertTable bookClass false)
        [bareBook, bareBook], .insertToDBWithModelUpdate bareBook true,
        .deleteTableName "tb_books"] ⟨fun _ => none, none⟩).db :=
  runOperations_sound (P := demoPlatform)
    (by simp only [List.forall_mem_cons, Operation.tables]; decide) fun _ _ h => by cases h

/-- **A table that no operation names** is as it was, whatever the texts and the values are. -/
theorem runOperations_untouched (hnames : ∀ op ∈ ops, ∀ T ∈ op.tables, Name T)
    (hn : ∀ op ∈ ops, ∀ T ∈ op.tables, n ≠ fold T) :
    (runOperations P ops conn).db n = conn.db n := by
  refine Steps.relates (G := fun db db' : Db => db' n = db n) (fun _ => rfl)
    (fun _ _ _ h h' => h'.trans h) ?_ (runOperations_steps hnames conn)
  rintro db db' ⟨k, T, ⟨op, hop, -, htable⟩, hdoes⟩
  exact hdoes.other (hn op hop T htable)

theorem books_untouched :
    (runOperations demoPlatform
      [.insertStrings bookClass ["Moby Dick", "Emma"] "tb_titles" "title" false,
        .deleteRecordFromTableName "tb_titles"
          (some (.dictionary ⟨[("title", .scalar (.string "NSString" "Emma"))], by simp⟩)),
        .deleteTableName "tb_titles"] ⟨bookshelf, none⟩).db "tb_books" = bookshelf "tb_books" :=
  runOperations_untouched (P := demoPlatform)
    (by simp only [List.forall_mem_cons, Operation.tables]; decide)
    (by simp only [List.forall_mem_cons, Operation.tables]; decide)

/-- What happens to a table, by what the operations that name it issue. -/
theorem runOperations_each (hnames : ∀ op ∈ ops, ∀ T ∈ op.tables, Name T)
    {G : Table → Table → Prop} (hrefl : ∀ tbl, G tbl tbl)
    (htrans : ∀ a b c, G a b → G b c → G a c) {Allowed : Kind → Prop}
    (hG : ∀ (k : Kind) (T : String) (db db' : Db), Allowed k →
      k.Does P.runtime.conv T db db' → Db.Each G db db')
    (hkinds : ∀ op ∈ ops, n ∈ op.tables.map fold → ∀ k ∈ op.kinds, Allowed k)
    (htbl : conn.db n = some tbl) :
    ∃ tbl', (runOperations P ops conn).db n = some tbl' ∧ G tbl tbl' := by
  refine Steps.relates (G := fun db db' : Db => ∀ tbl, db n = some tbl →
      ∃ tbl', db' n = some tbl' ∧ G tbl tbl') (fun _ tbl h => ⟨tbl, h, hrefl tbl⟩) ?_ ?_
    (runOperations_steps hnames conn) tbl htbl
  · intro a b c hab hbc tbl h
    obtain ⟨tbl', h', hrel⟩ := hab tbl h
    obtain ⟨tbl'', h'', hrel'⟩ := hbc tbl' h'
    exact ⟨tbl'', h'', htrans _ _ _ hrel hrel'⟩
  · rintro db db' ⟨k, T, ⟨op, hop, hk, htable⟩, hdoes⟩ tbl h
    by_cases hn : n = fold T
    · have hnamed : n ∈ op.tables.map fold := hn ▸ List.mem_map_of_mem htable
      exact hG k T db db' (hkinds op hop hnamed k hk) hdoes n tbl h
    · exact ⟨tbl, (hdoes.other hn).trans h, hrefl tbl⟩

/-- **A table that no operation drops** keeps its columns, in their places, and its key. -/
theorem runOperations_extends
    (hnames : ∀ op ∈ ops, ∀ T ∈ op.tables, Name T)
    (hkinds : ∀ op ∈ ops, n ∈ op.tables.map fold → Kind.drop ∉ op.kinds)
    (htbl : conn.db n = some tbl) :
    ∃ tbl', (runOperations P ops conn).db n = some tbl' ∧ tbl.Extends tbl' := by
  have hallowed : ∀ op ∈ ops, n ∈ op.tables.map fold → ∀ k ∈ op.kinds, k.KeepsTables := by
    intro op hop hn k hk hdrop
    exact hkinds op hop hn (hdrop ▸ hk)
  exact runOperations_each hnames Table.Extends.refl (fun _ _ _ => .trans)
    (fun _ _ _ _ hkeeps hdoes => hdoes.extended hkeeps) hallowed htbl

theorem erased_books_extended : ∃ tbl',
    (runOperations demoPlatform
      [.updateTableInDB [some bookClass], .eraseTableName "tb_books",
        .deleteTableName "tb_titles"] ⟨bookshelf, none⟩).db "tb_books" = some tbl' ∧
      Table.Extends ⟨[("_bookId", "VARCHAR"), ("_name", "VARCHAR")], ["_bookId"], []⟩ tbl' :=
  runOperations_extends (P := demoPlatform)
    (by simp only [List.forall_mem_cons, Operation.tables]; decide)
    (by simp only [List.forall_mem_cons, Operation.tables, Operation.kinds]; decide) rfl

/-- **A table that is only added to** keeps every row, with its values. -/
theorem runOperations_keeps
    (hnames : ∀ op ∈ ops, ∀ T ∈ op.tables, Name T)
    (hkinds : ∀ op ∈ ops, n ∈ op.tables.map fold → ∀ k ∈ op.kinds, k.Adds)
    (htbl : conn.db n = some tbl) :
    ∃ tbl', (runOperations P ops conn).db n = some tbl' ∧ tbl.Keeps tbl' :=
  runOperations_each hnames Table.Keeps.refl (fun _ _ _ => .trans)
    (fun _ _ _ _ hadds hdoes => hdoes.keeps hadds) hkinds htbl

theorem added_books_kept : ∃ tbl',
    (runOperations demoPlatform
      [.updateTableInDB [some bookClass], .insertToDBWithModelReplace bareBook false,
        .insertToDBWithModelTableNameReplace bareBook "tb_titles" true] ⟨oldBooks, none⟩).db
        "tb_books" = some tbl' ∧
      Table.Keeps ⟨[("_bookId", "VARCHAR"), ("_shelf", "TEXT")], ["_bookId"],
        [fun _ => .text "1"]⟩ tbl' :=
  runOperations_keeps (P := demoPlatform)
    (by simp only [List.forall_mem_cons, Operation.tables]; decide)
    (by simp only [List.forall_mem_cons, Operation.tables, Operation.kinds]; decide) rfl

/-- **A table that nothing is deleted from or replaced in** loses no row. -/
theorem runOperations_length
    (hnames : ∀ op ∈ ops, ∀ T ∈ op.tables, Name T)
    (hkinds : ∀ op ∈ ops, n ∈ op.tables.map fold → ∀ k ∈ op.kinds, k.KeepsRows)
    (htbl : conn.db n = some tbl) :
    ∃ tbl', (runOperations P ops conn).db n = some tbl' ∧ tbl.rows.length ≤ tbl'.rows.length :=
  runOperations_each hnames (G := fun tbl tbl' => tbl.rows.length ≤ tbl'.rows.length)
    (fun _ => le_rfl) (fun _ _ _ => le_trans)
    (fun _ _ _ _ hkeeps hdoes => hdoes.length hkeeps) hkinds htbl

theorem upserted_books_left : ∃ tbl',
    (runOperations demoPlatform
      [.insertToDBWithModelUpdate bareBook true, .updateTableNameSetWhere "tb_books" none none]
        ⟨oldBooks, none⟩).db "tb_books" = some tbl' ∧
      (Table.rows ⟨[("_bookId", "VARCHAR"), ("_shelf", "TEXT")], ["_bookId"],
        [fun _ => .text "1"]⟩).length ≤ tbl'.rows.length :=
  runOperations_length (P := demoPlatform)
    (by simp only [List.forall_mem_cons, Operation.tables]; decide)
    (by simp only [List.forall_mem_cons, Operation.tables, Operation.kinds]; decide) rfl

end NBDataBase
