import NBDataBase.Orm.Tables

/-!
# Orm — migration of the registered classes

`updateTableInDB`: the tables of the registered classes are created, or get the columns that
their classes have gained.

* `migrateTable`, `updateTable`, `updateTableInDB`: from the source.  They return the statements
  they issue.
* `alterLoop_run`: the `ALTER TABLE`s of a class grow its table by the columns they add.
* `Migrated`: a class has its table, and what was there stays.
* `updateTable_run`, `updateTable_again`: one class.  `migrate_run`, `again_run`: the list.
* `updateTableInDB_migrates`: the migration is complete, conservative and idempotent when no two
  classes share a table.
-/

namespace NBDataBase
open Sql

/-! ### The code -/

/-- The `NSMutableDictionary` of column names and types. -/
abbrev ColumnTypes := AList fun _ : String => String

/-- The order in which an `NSDictionary` enumerates its keys. -/
structure KeyOrder where
  allKeys : ColumnTypes → List String
  perm : ∀ dic, (allKeys dic).Perm dic.keys

/-- The body of the loop over the properties. -/
def propertiesStep (dic : ColumnTypes) (p : Property) : ColumnTypes :=
  if !isColumn p.name then dic
  else
    match p.columnType with
    | none => dic
    | some columnType => dic.insert p.column columnType

/-- The columns of the class that its table does not have. -/
def propertiesDic (clazz : ModelClass) (columnNames : List String) : ColumnTypes :=
  columnNames.foldl (fun dic columnName => dic.erase columnName)
    ((properties clazz.chain).foldl propertiesStep ∅)

/-- `f` at every element, in order, and what it returns put together. -/
def Action.collect {α β : Type} (f : α → Action (List β)) : List α → Action (List β)
  | [] => return []
  | x :: xs => do
      let l ← f x
      return l ++ (← collect f xs)

section

variable (R : Runtime) (order : KeyOrder)

/-- `executeUpdate:` of a statement, which goes on record. -/
def issue (sql : String) : Action (List String) := do
  let _ ← executeUpdate R sql []
  return [sql]

def alterSQL (tableName columnName columnType : String) : String :=
  "alter table " ++ (tableName ++ (" add column " ++ (columnName ++ (" " ++ columnType))))

/-- The body of the loop over `allKeys`. -/
def alterStep (tableName : String) (propertiesDic : ColumnTypes) (key : String) :
    Action (List String) :=
  match propertiesDic.lookup key with
  | none => return []
  | some columnType => issue R (alterSQL tableName key columnType)

/-- Create the table of the class when no table has the name, else add the columns that the table
does not have: the body of the loops of `updateTableInDB` and `createTable:tableNames:`. -/
def migrateTable (clazz : ModelClass) (tableName : String) : Action (List String) := do
  if !(← tableExists R tableName) then
    match createTableSQL clazz with
    | some sql => issue R sql
    | none => return []
  else
    let columnNames ← getTableSchema tableName
    let propertiesDic := propertiesDic clazz columnNames
    if propertiesDic.entries.length = 0 then return []
    else Action.collect (alterStep R tableName propertiesDic) (order.allKeys propertiesDic)

/-- The migration of a class.  Without a name no table is found, and none is created. -/
def updateTable (clazz : ModelClass) : Action (List String) :=
  match clazz.getTableName with
  | none => return []
  | some tableName => migrateTable R order clazz tableName

/-- `none` is a class that is no subclass of `NBBaseDBTableModel`. -/
def updateTableInDB (registedClassesArray : List (Option ModelClass)) : Action (List String) :=
  inTransaction (Action.collect (fun
    | some clazz => updateTable R order clazz
    | none => return []) registedClassesArray)

end

/-! ### The dictionary of missing columns -/

variable {R : Runtime} {order : KeyOrder} {cls : ModelClass} {T c t : String} {db db' : Db}
  {tbl : Table}

theorem propertiesStep_eq (dic : ColumnTypes) (p : Property) :
    propertiesStep dic p = (storedColumn p).elim dic fun d => dic.insert d.1 d.2 := by
  unfold propertiesStep storedColumn
  by_cases hp : isColumn p.name
  · cases ht : p.columnType <;> simp [hp]
  · simp [hp]

/-- A dictionary filled under distinct keys answers what was put in. -/
theorem lookup_foldl_insert {ds : List (String × String)} (h : (ds.map (·.1)).Nodup) :
    (ds.foldl (fun (dic : ColumnTypes) d => dic.insert d.1 d.2) ∅).lookup c = some t ↔
      (c, t) ∈ ds := by
  induction ds using List.reverseRecOn with
  | nil => simp
  | append_singleton ds d ih =>
      rw [List.map_append, List.nodup_append] at h
      obtain ⟨hds, -, hd⟩ := h
      obtain ⟨k, v⟩ := d
      rw [List.foldl_append, List.foldl_cons, List.foldl_nil]
      by_cases hk : c = k
      · subst hk
        have hnew : (c, t) ∉ ds := fun hmem =>
          hd c (List.mem_map.mpr ⟨_, hmem, rfl⟩) c (by simp) rfl
        simp [hnew, eq_comm]
      · rw [AList.lookup_insert_ne hk, ih hds]
        simp [hk]

theorem lookup_foldl_erase (cs : List String) (dic : ColumnTypes) :
    (cs.foldl (fun (dic : ColumnTypes) k => dic.erase k) dic).lookup c =
      if c ∈ cs then none else dic.lookup c := by
  induction cs using List.reverseRecOn with
  | nil => simp
  | append_singleton cs k ih =>
      rw [List.foldl_append, List.foldl_cons, List.foldl_nil]
      by_cases hk : c = k
      · subst hk
        simp
      · rw [AList.lookup_erase_ne hk, ih]
        simp [hk]

/-- What is left in the dictionary: the stored columns that the table does not have. -/
theorem propertiesDic_lookup (h : ((storedColumns cls.chain).map (·.1)).Nodup)
    (columnNames : List String) :
    (propertiesDic cls columnNames).lookup c = some t ↔
      (c, t) ∈ storedColumns cls.chain ∧ c ∉ columnNames := by
  have hstep : propertiesStep = fun dic p => (storedColumn p).elim dic fun d =>
    dic.insert d.1 d.2 :=
    funext fun dic => funext fun p => propertiesStep_eq dic p
  rw [propertiesDic, lookup_foldl_erase, hstep,
    Loop.foldl_filterMap storedColumn (fun (dic : ColumnTypes) d => dic.insert d.1 d.2)]
  split
  · simp [*]
  · rw [← lookup_foldl_insert h]
    simp only [storedColumns, and_iff_left, *, not_false_eq_true]

/-! ### One class -/

/-- The names of the columns of a table. -/
def columnNames (tbl : Table) : List String := tbl.columns.map (·.1)

theorem issue_run {sql : String} {st : Stmt} (hst : prepare sql = some st) (hparams : st.params = 0)
    (hexec : exec R.conv db st [] = some db') : issue R sql db = (.ok [sql], db') := by
  have hrun : executeUpdate R sql [] db = (.ok true, db') :=
    executeUpdate_done hst (by simp [hparams]) hexec
  exact Action.bind_ok hrun

/-- The columns that the table does not have, ignoring case. -/
def newColumns (tbl : Table) (ds : List (String × String)) : List (String × String) :=
  ds.filter fun d => !tbl.has d.1

/-- One `ALTER TABLE` grows the table by its column, when that is new. -/
theorem alterStep_run (hT : Name T) {dic : ColumnTypes} (hdic : dic.lookup c = some t)
    (hc : Name c) (ht : Name t) (htbl : db (fold T) = some tbl) :
    alterStep R T dic c db = (.ok [alterSQL T c t],
      Function.update db (fold T) (some (tbl.grow (newColumns tbl [(c, t)])))) := by
  have hst : prepare (alterSQL T c t) = some (.addColumn T c t) := prepare_addColumn hT hc ht
  rw [alterStep, hdic]
  cases hhas : tbl.has c with
  | true =>
      -- SQLite rejects a column that is there
      have hexec : exec R.conv db (.addColumn T c t) [] = none :=
        onTable_of_none htbl (by simp [addColumn, hhas])
      have hrun : executeUpdate R (alterSQL T c t) [] db = (.ok false, db) :=
        executeUpdate_failed hst (Nat.le_refl 0) hexec
      have hnone : newColumns tbl [(c, t)] = [] := by simp [newColumns, hhas]
      rw [hnone, Table.grow_nil, ← htbl, Function.update_eq_self]
      exact Action.bind_ok hrun
  | false =>
      have hnew : newColumns tbl [(c, t)] = [(c, t)] := by simp [newColumns, hhas]
      rw [hnew]
      exact issue_run hst rfl (onTable_of_some htbl (addColumn_eq hhas t))

theorem collect_cons {α β : Type} {f : α → Action (List β)} {x : α} {xs : List α} {l l' : List β}
    {db db₁ db₂ : Db} (h : f x db = (.ok l, db₁)) (h' : Action.collect f xs db₁ = (.ok l', db₂)) :
    Action.collect f (x :: xs) db = (.ok (l ++ l'), db₂) := by
  show (f x >>= _) db = _
  rw [Action.bind_ok h]
  exact Action.bind_ok h'

/-- **The loop of `ALTER TABLE`s** grows the table by the columns that are new. -/
theorem alterLoop_run (hT : Name T) {dic : ColumnTypes} {ds : List (String × String)}
    (hdic : ∀ d ∈ ds, dic.lookup d.1 = some d.2 ∧ Name d.1 ∧ Name d.2)
    (hdistinct : (ds.map fun d => fold d.1).Nodup) (htbl : db (fold T) = some tbl) :
    Action.collect (alterStep R T dic) (ds.map (·.1)) db =
      (.ok (ds.map fun d => alterSQL T d.1 d.2),
      Function.update db (fold T) (some (tbl.grow (newColumns tbl ds)))) := by
  induction ds generalizing db tbl with
  | nil =>
      show _ = (_, Function.update db (fold T) (some (tbl.grow [])))
      rw [Table.grow_nil, ← htbl, Function.update_eq_self]
      rfl
  | cons d ds ih =>
      obtain ⟨hd, hds⟩ := List.nodup_cons.mp hdistinct
      obtain ⟨hlookup, hc, ht⟩ := hdic d List.mem_cons_self
      have hfirst := alterStep_run (R := R) hT hlookup hc ht htbl
      have hrest := ih (fun e he => hdic e (List.mem_cons_of_mem _ he)) hds
        (Function.update_self (fold T) (some (tbl.grow (newColumns tbl [(d.1, d.2)]))) db)
      -- what is new to the table is new to the grown one
      have hnew : newColumns (tbl.grow (newColumns tbl [(d.1, d.2)])) ds = newColumns tbl ds := by
        refine List.filter_congr fun e he => ?_
        have hne : fold e.1 ≠ fold d.1 := fun h => hd (List.mem_map.mpr ⟨e, he, h⟩)
        rw [Bool.not_inj_iff, Bool.eq_iff_iff, Table.has_iff, Table.has_iff]
        cases hhas : tbl.has d.1 <;> simp [newColumns, Table.grow, hhas, hne]
      have hcons : newColumns tbl [(d.1, d.2)] ++ newColumns tbl ds = newColumns tbl (d :: ds) := by
        rw [newColumns, newColumns, newColumns, ← List.filter_append]
        rfl
      rw [Function.update_idem, Table.grow_grow, hnew, hcons] at hrest
      exact collect_cons hfirst hrest

/-- A column of the table that is one of the class ignoring case is it exactly. -/
def Fits (cls : ModelClass) (tbl : Table) : Prop :=
  ∀ d ∈ tbl.columns, ∀ e ∈ storedColumns cls.chain, fold d.1 = fold e.1 → d.1 = e.1

/-- The columns of the class that the table does not have, as the migration adds them. -/
def missingColumns (order : KeyOrder) (cls : ModelClass) (tbl : Table) : List (String × String) :=
  (order.allKeys (propertiesDic cls (columnNames tbl))).map fun key =>
    (key, ((propertiesDic cls (columnNames tbl)).lookup key).getD "")

theorem storedNames_nodup (h : cls.Creates T) : ((storedColumns cls.chain).map (·.1)).Nodup := by
  have hfold : ((storedColumns cls.chain).map fun d => fold d.1).Nodup := h.creatable.2.1
  refine List.Nodup.of_map fold ?_
  rwa [List.map_map]

/-- The missing columns are those of the class that the table does not have. -/
theorem mem_missingColumns (h : cls.Creates T) {d : String × String} :
    d ∈ missingColumns order cls tbl ↔ d ∈ storedColumns cls.chain ∧ d.1 ∉ columnNames tbl := by
  have hlookup := fun c t =>
    propertiesDic_lookup (t := t) (c := c) (storedNames_nodup h) (columnNames tbl)
  simp only [missingColumns, List.mem_map, (order.perm _).mem_iff, ← AList.mem_keys,
    ← AList.lookup_isSome, Option.isSome_iff_exists]
  constructor
  · rintro ⟨c, ⟨t, ht⟩, rfl⟩
    rw [ht]
    exact (hlookup c t).mp ht
  · intro hd
    have ht := (hlookup d.1 d.2).mpr hd
    exact ⟨d.1, ⟨d.2, ht⟩, by rw [ht]; rfl⟩

theorem missingColumns_nil (h : cls.Creates T)
    (hcomplete : ∀ d ∈ storedColumns cls.chain, d.1 ∈ columnNames tbl) :
    missingColumns order cls tbl = [] := by
  rw [List.eq_nil_iff_forall_not_mem]
  intro d hd
  obtain ⟨hd, hnew⟩ := (mem_missingColumns h).mp hd
  exact hnew (hcomplete d hd)

theorem missingColumns_nodup (h : cls.Creates T) :
    ((missingColumns order cls tbl).map fun d => fold d.1).Nodup := by
  have hfold : ((storedColumns cls.chain).map fun d => fold d.1).Nodup := h.creatable.2.1
  have hkeys : ((missingColumns order cls tbl).map (·.1)).Nodup := by
    rw [missingColumns, List.map_map]
    exact ((List.map_id _).symm ▸ (order.perm _).nodup_iff.mpr (AList.keys_nodup _))
  have hinj : ∀ c ∈ (missingColumns order cls tbl).map (·.1),
      ∀ c' ∈ (missingColumns order cls tbl).map (·.1), fold c = fold c' → c = c' := by
    intro c hc c' hc' hcc
    obtain ⟨d, hd, rfl⟩ := List.mem_map.mp hc
    obtain ⟨d', hd', rfl⟩ := List.mem_map.mp hc'
    rw [List.inj_on_of_nodup_map hfold ((mem_missingColumns h).mp hd).1
      ((mem_missingColumns h).mp hd').1 hcc]
  have hnodup := hkeys.map_on hinj
  rwa [List.map_map] at hnodup

/-- The columns that the migration of the class adds to the table. -/
def addedColumns (order : KeyOrder) (cls : ModelClass) (tbl : Table) : List (String × String) :=
  newColumns tbl (missingColumns order cls tbl)

theorem mem_addedColumns (h : cls.Creates T) {d : String × String} :
    d ∈ addedColumns order cls tbl ↔ d ∈ storedColumns cls.chain ∧ tbl.has d.1 = false := by
  rw [addedColumns, newColumns, List.mem_filter, mem_missingColumns h, Bool.not_eq_true']
  refine ⟨fun ⟨⟨hd, _⟩, hnew⟩ => ⟨hd, hnew⟩, fun ⟨hd, hnew⟩ => ⟨⟨hd, fun hmem => ?_⟩, hnew⟩⟩
  obtain ⟨e, he, hed⟩ := List.mem_map.mp hmem
  have hhas : tbl.has d.1 = true := Table.has_iff.mpr (List.mem_map.mpr ⟨e, he, by rw [hed]⟩)
  rw [hnew] at hhas
  cases hhas

variable {n : String}

/-- What FMDB finds grows by the columns that are new. -/
theorem migrateTable_found (h : cls.Creates T) (hn : Name n)
    (hexists : tableExists R n db = (.ok true, db)) (htbl : db (fold n) = some tbl) :
    migrateTable R order cls n db =
      (.ok ((missingColumns order cls tbl).map fun d => alterSQL n d.1 d.2),
        Function.update db (fold n) (some (tbl.grow (addedColumns order cls tbl)))) := by
  have hdic : ∀ d ∈ missingColumns order cls tbl,
      (propertiesDic cls (columnNames tbl)).lookup d.1 = some d.2 ∧ Name d.1 ∧ Name d.2 := by
    intro d hd
    have hmissing := (mem_missingColumns h).mp hd
    exact ⟨(propertiesDic_lookup (storedNames_nodup h) _).mpr hmissing, h.columns d hmissing.1,
      storedColumns_type hmissing.1⟩
  have hkeys : (missingColumns order cls tbl).map (·.1) =
      order.allKeys (propertiesDic cls (columnNames tbl)) := by
    rw [missingColumns, List.map_map]
    exact List.map_id _
  have hloop := alterLoop_run (R := R) hn hdic (missingColumns_nodup h) htbl
  rw [hkeys, ← addedColumns] at hloop
  have hschema : getTableSchema n db = (.ok (columnNames tbl), db) := by
    rw [getTableSchema, htbl]
    rfl
  rw [migrateTable, Action.bind_ok hexists]
  show (getTableSchema n >>= _) db = _
  rw [Action.bind_ok hschema]
  by_cases hempty : (propertiesDic cls (columnNames tbl)).entries.length = 0
  · -- nothing is missing: the loop would run over no keys
    have hnone : order.allKeys (propertiesDic cls (columnNames tbl)) = [] := by
      rw [← List.length_eq_zero_iff, (order.perm _).length_eq, AList.keys, List.keys,
        List.length_map, hempty]
    rw [hnone] at hloop
    rw [← hloop]
    simp only [hempty, if_true]
    rfl
  · simp only [hempty, if_false]
    exact hloop

/-- **An existing table** grows by the columns that are new. -/
theorem migrateTable_alter (h : cls.Creates T) (hn : Name n) (hlower : R.lowercaseString n = fold n)
    (htbl : db (fold n) = some tbl) :
    migrateTable R order cls n db =
      (.ok ((missingColumns order cls tbl).map fun d => alterSQL n d.1 d.2),
        Function.update db (fold n) (some (tbl.grow (addedColumns order cls tbl)))) := by
  refine migrateTable_found h hn ?_ htbl
  rw [tableExists, hlower, htbl]
  rfl

/-- What FMDB does not find: the statement is the `CREATE TABLE` of the class. -/
theorem migrateTable_missed (h : cls.Creates T) (hexists : tableExists R n db = (.ok false, db)) :
    ∃ sql, migrateTable R order cls n db = (.ok [sql], if (db (fold T)).isSome then db
      else Function.update db (fold T) (some (createdTable cls))) := by
  have hown : Option.or none cls.getTableName = some T := h.table
  obtain ⟨sql, hsql, hst⟩ := createTableSQL_prepare h h.name hown
  have hexec : exec R.conv db (.create T (storedColumns cls.chain) (getPrimaryKeys cls.chain)) [] =
      some (if (db (fold T)).isSome then db
        else Function.update db (fold T) (some (createdTable cls))) := by
    rw [exec, if_pos h.creatable]
    split <;> rfl
  refine ⟨sql, ?_⟩
  rw [migrateTable, Action.bind_ok hexists, ← issue_run hst rfl hexec, createTableSQL, hsql]
  rfl

/-- **A missing table** is created. -/
theorem migrateTable_create (h : cls.Creates T) (hlower : R.lowercaseString n = fold n)
    (hnone : db (fold n) = none) :
    ∃ sql, migrateTable R order cls n db = (.ok [sql], if (db (fold T)).isSome then db
      else Function.update db (fold T) (some (createdTable cls))) := by
  refine migrateTable_missed h ?_
  rw [tableExists, hlower, hnone]
  rfl

/-- `ALTER TABLE` of a table that is not there changes nothing. -/
theorem alterLoop_missed (hT : Name T) (hnone : db (fold T) = none) {dic : ColumnTypes}
    {ks : List String} (hdic : ∀ k ∈ ks, ∃ t, dic.lookup k = some t ∧ Name k ∧ Name t) :
    ∃ issued, Action.collect (alterStep R T dic) ks db = (.ok issued, db) := by
  induction ks with
  | nil => exact ⟨[], rfl⟩
  | cons k ks ih =>
      obtain ⟨t, ht, hk, htype⟩ := hdic k List.mem_cons_self
      obtain ⟨issued, hrest⟩ := ih fun x hx => hdic x (List.mem_cons_of_mem _ hx)
      have hexec : exec R.conv db (.addColumn T k t) [] = none := by
        simp [exec, onTable, hnone]
      have hrun : executeUpdate R (alterSQL T k t) [] db = (.ok false, db) :=
        executeUpdate_failed (prepare_addColumn hT hk htype) (Nat.le_refl 0) hexec
      have hstep : alterStep R T dic k db = (.ok [alterSQL T k t], db) := by
        rw [alterStep, ht]
        exact Action.bind_ok hrun
      exact ⟨_, collect_cons hstep hrest⟩

/-- A table that FMDB finds under another spelling than SQLite does not get altered. -/
theorem migrateTable_lost (h : cls.Creates T) (hn : Name n)
    (hexists : tableExists R n db = (.ok true, db)) (hnone : db (fold n) = none) :
    ∃ issued, migrateTable R order cls n db = (.ok issued, db) := by
  have hschema : getTableSchema n db = (.ok [], db) := by
    rw [getTableSchema, hnone]
    rfl
  obtain ⟨issued, hloop⟩ : ∃ issued, Action.collect (alterStep R n (propertiesDic cls []))
      (order.allKeys (propertiesDic cls [])) db = (.ok issued, db) := by
    refine alterLoop_missed hn hnone fun k hk => ?_
    obtain ⟨t, ht⟩ := Option.isSome_iff_exists.mp (AList.lookup_isSome.mpr
      (AList.mem_keys.mpr ((order.perm _).mem_iff.mp hk)))
    obtain ⟨hd, -⟩ := (propertiesDic_lookup (storedNames_nodup h) []).mp ht
    exact ⟨t, ht, h.columns _ hd, storedColumns_type hd⟩
  rw [migrateTable, Action.bind_ok hexists]
  show ∃ issued, (getTableSchema n >>= _) db = _
  rw [Action.bind_ok hschema]
  by_cases hempty : (propertiesDic cls []).entries.length = 0
  · simp only [hempty, if_true]
    exact ⟨[], rfl⟩
  · simp only [hempty, if_false]
    exact ⟨issued, hloop⟩

/-! ### What a migration promises -/

/-- The columns of a table; one that is not there has none. -/
def oldColumns (old : Option Table) : List (String × String) := (old.map Table.columns).getD []

def oldRows (old : Option Table) : List Row := (old.map Table.rows).getD []

/-- A row keeps its values and is NULL in the columns that were added. -/
def Carried (old : Option Table) (new : Table) (r r' : Row) : Prop :=
  (∀ d ∈ oldColumns old, r' (fold d.1) = r (fold d.1)) ∧
    ∀ d ∈ new.columns, d ∉ oldColumns old → r' (fold d.1) = .null

/-- The class has its table, and what was there stays. -/
structure Migrated (cls : ModelClass) (old : Option Table) (new : Table) : Prop where
  complete : ∀ d ∈ storedColumns cls.chain, d.1 ∈ columnNames new
  added : ∀ d ∈ new.columns, d ∈ oldColumns old ∨ d ∈ storedColumns cls.chain
  kept : oldColumns old <+: new.columns
  rows : List.Forall₂ (Carried old new) (oldRows old) new.rows
  primaryKey : new.primaryKey = (old.map Table.primaryKey).getD (getPrimaryKeys cls.chain)

theorem Migrated.created (cls : ModelClass) : Migrated cls none (createdTable cls) where
  complete d hd := List.mem_map.mpr ⟨d, hd, rfl⟩
  added _ hd := .inr hd
  kept := List.nil_prefix
  rows := .nil
  primaryKey := rfl

theorem Migrated.grown (h : cls.Creates T) (order : KeyOrder) (hfits : Fits cls tbl) :
    Migrated cls (some tbl) (tbl.grow (addedColumns order cls tbl)) where
  complete d hd := by
    rw [columnNames, Table.grow, List.map_append, List.mem_append]
    cases hhas : tbl.has d.1 with
    | true =>
        obtain ⟨e, he, hed⟩ := List.mem_map.mp (Table.has_iff.mp hhas)
        exact .inl (hfits e he d hd hed ▸ List.mem_map.mpr ⟨e, he, rfl⟩)
    | false => exact .inr (List.mem_map.mpr ⟨d, (mem_addedColumns h).mpr ⟨hd, hhas⟩, rfl⟩)
  added d hd := by
    rcases List.mem_append.mp hd with hd | hd
    · exact .inl hd
    · exact .inr ((mem_addedColumns h).mp hd).1
  kept := List.prefix_append _ _
  rows := by
    show List.Forall₂ _ tbl.rows (tbl.rows.map _)
    rw [List.forall₂_map_right_iff]
    refine List.forall₂_same.mpr fun r _ => ⟨fun d hd => ?_, fun d hd hnew => ?_⟩
    · -- a column of the table is none of the new ones
      refine if_neg fun hmem => ?_
      obtain ⟨e, he, hed⟩ := List.mem_map.mp hmem
      have hhas : tbl.has e.1 = true := Table.has_iff.mpr (List.mem_map.mpr ⟨d, hd, hed.symm⟩)
      rw [((mem_addedColumns h).mp he).2] at hhas
      cases hhas
    · rcases List.mem_append.mp hd with hd | hd
      · exact absurd hd hnew
      · exact if_pos (List.mem_map.mpr ⟨d, hd, rfl⟩)
  primaryKey := rfl

/-! ### One class in a migration -/

/-- The table of a class after its migration. -/
def migratedTable (order : KeyOrder) (cls : ModelClass) : Option Table → Table
  | none => createdTable cls
  | some tbl => tbl.grow (addedColumns order cls tbl)

theorem migratedTable_migrated (h : cls.Creates T) (order : KeyOrder) {old : Option Table}
    (hfits : ∀ tbl, old = some tbl → Fits cls tbl) :
    Migrated cls old (migratedTable order cls old) := by
  cases old with
  | none => exact .created cls
  | some tbl => exact .grown h order (hfits tbl rfl)

/-- The migrated table spells the columns of the class as the class does. -/
theorem Migrated.fits (h : cls.Creates T) {old : Option Table} {new : Table}
    (hfits : ∀ tbl, old = some tbl → Fits cls tbl) (hnew : Migrated cls old new) :
    Fits cls new := by
  intro d hd e he hde
  rcases hnew.added d hd with hold | hstored
  · cases old with
    | none => cases hold
    | some tbl => exact hfits tbl rfl d hold e he hde
  · have hfold : ((storedColumns cls.chain).map fun d => fold d.1).Nodup := h.creatable.2.1
    rw [List.inj_on_of_nodup_map hfold hstored he hde]

/-- A migrated table is migrated already. -/
theorem migratedTable_again (h : cls.Creates T) (order : KeyOrder) {old : Option Table}
    (hfits : ∀ tbl, old = some tbl → Fits cls tbl) :
    migratedTable order cls (some (migratedTable order cls old)) = migratedTable order cls old := by
  have hcomplete := (migratedTable_migrated h order hfits).complete
  rw [migratedTable, addedColumns, missingColumns_nil h hcomplete]
  exact Table.grow_nil _

/-- **A table that exists or is the class's own** is migrated, and nothing else changes. -/
theorem migrateTable_run (h : cls.Creates T) (hn : Name n) (hlower : R.lowercaseString n = fold n)
    (hown : (db (fold n)).isSome = true ∨ fold n = fold T) :
    ∃ issued, migrateTable R order cls n db = (.ok issued,
      Function.update db (fold n) (some (migratedTable order cls (db (fold n))))) := by
  cases htbl : db (fold n) with
  | none =>
      have hnT : fold n = fold T := hown.resolve_left (by simp [htbl])
      obtain ⟨sql, hsql⟩ : ∃ sql, migrateTable R order cls n db = _ :=
        migrateTable_create h hlower htbl
      rw [← hnT, htbl] at hsql
      exact ⟨[sql], hsql⟩
  | some tbl => exact ⟨_, migrateTable_alter h hn hlower htbl⟩

/-- SQLite accepts the `CREATE TABLE` of the class and folds its name as FMDB does, and what the
table has of the class's columns is spelled as the class spells it. -/
structure Registrable (R : Runtime) (db : Db) (cls : ModelClass) (T : String) : Prop where
  creates : cls.Creates T
  lowercase : R.lowercaseString T = fold T
  fits : ∀ tbl, db (fold T) = some tbl → Fits cls tbl

/-- **One class**: its table is there afterwards, and nothing else changes. -/
theorem updateTable_run (h : Registrable R db cls T) :
    ∃ issued, updateTable R order cls db = (.ok issued,
      Function.update db (fold T) (some (migratedTable order cls (db (fold T))))) := by
  rw [updateTable, h.creates.table]
  exact migrateTable_run h.creates h.creates.name h.lowercase (.inr rfl)

/-- **One class, however FMDB folds its name**: its table is migrated, or nothing changes. -/
theorem updateTable_cases (h : cls.Creates T) (R : Runtime) (order : KeyOrder) (db : Db) :
    ∃ issued db', updateTable R order cls db = (.ok issued, db') ∧ (db' = db ∨
      db' = Function.update db (fold T) (some (migratedTable order cls (db (fold T))))) := by
  rw [updateTable, h.table]
  cases hexists : (db (R.lowercaseString T)).isSome with
  | true =>
      have hexists : tableExists R T db = (.ok true, db) := by rw [tableExists, hexists]
      cases htbl : db (fold T) with
      | none =>
          obtain ⟨issued, hrun⟩ : ∃ issued, migrateTable R order cls T db = (.ok issued, db) :=
            migrateTable_lost h h.name hexists htbl
          exact ⟨issued, db, hrun, .inl rfl⟩
      | some tbl => exact ⟨_, _, migrateTable_found h h.name hexists htbl, .inr rfl⟩
  | false =>
      have hexists : tableExists R T db = (.ok false, db) := by rw [tableExists, hexists]
      obtain ⟨sql, hrun⟩ : ∃ sql, migrateTable R order cls T db = (.ok [sql], _) :=
        migrateTable_missed h hexists
      refine ⟨[sql], _, hrun, ?_⟩
      cases htbl : db (fold T) with
      | none => exact .inr rfl
      | some tbl => exact .inl rfl

/-- A table that has the columns of the class gets no more. -/
theorem updateTable_again (h : Registrable R db cls T) (htbl : db (fold T) = some tbl)
    (hcomplete : ∀ d ∈ storedColumns cls.chain, d.1 ∈ columnNames tbl) :
    updateTable R order cls db = (.ok [], db) := by
  have hrun : migrateTable R order cls T db = _ :=
    migrateTable_alter h.creates h.creates.name h.lowercase htbl
  rw [addedColumns, missingColumns_nil h.creates hcomplete] at hrun
  have hgrow : tbl.grow (newColumns tbl []) = tbl := tbl.grow_nil
  rw [hgrow, ← htbl, Function.update_eq_self] at hrun
  rw [updateTable, h.creates.table]
  exact hrun

/-! ### The list of classes -/

/-- The name under which SQLite keeps the table of a class. -/
def tableKey (cls : ModelClass) : Option String := cls.getTableName.map fold

/-- **The loop over the classes**, when no two of them share a table. -/
theorem migrate_run {classes : List ModelClass}
    (h : ∀ cls ∈ classes, ∃ T, Registrable R db cls T)
    (hdistinct : (classes.map tableKey).Nodup) :
    ∃ issued db', Action.collect (updateTable R order) classes db = (.ok issued, db') ∧
      (∀ cls ∈ classes, ∀ n, tableKey cls = some n →
        ∃ new, db' n = some new ∧ Migrated cls (db n) new) ∧
      ∀ n, some n ∉ classes.map tableKey → db' n = db n := by
  induction classes generalizing db with
  | nil => exact ⟨[], db, rfl, fun cls hcls => (by cases hcls), fun n _ => rfl⟩
  | cons cls classes ih =>
      obtain ⟨hne, hdistinct⟩ := List.nodup_cons.mp hdistinct
      obtain ⟨T, hT⟩ := h cls List.mem_cons_self
      obtain ⟨l, hfirst⟩ : ∃ l, updateTable R order cls db = _ := updateTable_run hT
      have hnew := migratedTable_migrated hT.creates order hT.fits
      generalize migratedTable order cls (db (fold T)) = new at hfirst hnew
      have hkey : tableKey cls = some (fold T) := by rw [tableKey, hT.creates.table]; rfl
      -- the other classes find their tables as they were
      have hother : ∀ cls' ∈ classes, ∀ n, tableKey cls' = some n →
          Function.update db (fold T) (some new) n = db n := by
        intro cls' hcls' n hn
        refine Function.update_of_ne (fun hnT => hne ?_) _ _
        exact List.mem_map.mpr ⟨cls', hcls', by rw [hn, hkey, hnT]⟩
      have hrest : ∀ cls' ∈ classes, ∃ T',
          Registrable R (Function.update db (fold T) (some new)) cls' T' := by
        intro cls' hcls'
        obtain ⟨T', hT'⟩ := h cls' (List.mem_cons_of_mem _ hcls')
        have hkey' : tableKey cls' = some (fold T') := by rw [tableKey, hT'.creates.table]; rfl
        refine ⟨T', hT'.creates, hT'.lowercase, fun tbl htbl => hT'.fits tbl ?_⟩
        rwa [hother cls' hcls' _ hkey'] at htbl
      obtain ⟨l', db', hloop, hdone, hframe⟩ := ih hrest hdistinct
      refine ⟨l ++ l', db', collect_cons hfirst hloop, fun cls' hcls' n hn => ?_, fun n hn => ?_⟩
      · rcases List.mem_cons.mp hcls' with rfl | hcls'
        · obtain rfl := Option.some.inj (hkey.symm.trans hn)
          rw [hframe _ (hkey ▸ hne), Function.update_self]
          exact ⟨new, rfl, hnew⟩
        · rw [← hother cls' hcls' n hn]
          exact hdone cls' hcls' n hn
      · rw [List.map_cons, List.mem_cons, not_or, hkey] at hn
        rw [hframe n hn.2, Function.update_of_ne fun hnT => hn.1 (congrArg some hnT)]

/-- The loop over classes whose tables have their columns. -/
theorem again_run {classes : List ModelClass} (h : ∀ cls ∈ classes, ∃ T tbl,
      Registrable R db cls T ∧ db (fold T) = some tbl ∧
        ∀ d ∈ storedColumns cls.chain, d.1 ∈ columnNames tbl) :
    Action.collect (updateTable R order) classes db = (.ok [], db) := by
  induction classes with
  | nil => rfl
  | cons cls classes ih =>
      obtain ⟨T, tbl, hT, htbl, hcomplete⟩ := h cls List.mem_cons_self
      exact collect_cons (updateTable_again hT htbl hcomplete)
        (ih fun cls' hcls' => h cls' (List.mem_cons_of_mem _ hcls'))

/-! ### The migration -/

theorem updateTableInDB_eq (R : Runtime) (order : KeyOrder)
    (registedClassesArray : List (Option ModelClass)) :
    updateTableInDB R order registedClassesArray =
      Action.collect (updateTable R order) registedClassesArray.reduceOption := by
  induction registedClassesArray with
  | nil => rfl
  | cons o values ih =>
      cases o with
      | none =>
          rw [List.reduceOption_cons_of_none, ← ih]
          funext db
          show ((updateTableInDB R order values >>= fun l => return [] ++ l) : Action _) db = _
          rw [Action.bind_run]
          split <;> simp_all
      | some clazz =>
          rw [List.reduceOption_cons_of_some]
          funext db
          show (updateTable R order clazz >>= fun l =>
            (updateTableInDB R order values >>= fun l' => return l ++ l')) db = _
          rw [ih]
          rfl

/-- The migration gives every class its table, keeps what was there, leaves the other tables
alone, and issues no statement when it runs again. -/
def Migrates (R : Runtime) (order : KeyOrder) (registedClassesArray : List (Option ModelClass))
    (db : Db) : Prop :=
  ∃ issued db', updateTableInDB R order registedClassesArray db = (.ok issued, db') ∧
    (∀ cls, some cls ∈ registedClassesArray → ∀ T, cls.getTableName = some T →
      ∃ new, db' (fold T) = some new ∧ Migrated cls (db (fold T)) new) ∧
    (∀ n, (∀ cls, some cls ∈ registedClassesArray → ∀ T, cls.getTableName = some T → fold T ≠ n) →
      db' n = db n) ∧
    updateTableInDB R order registedClassesArray db' = (.ok [], db')

/-- **The migration is complete, conservative and idempotent** when no two classes share a
table. -/
theorem updateTableInDB_migrates (R : Runtime) (order : KeyOrder)
    (registedClassesArray : List (Option ModelClass)) (db : Db)
    (hregistrable : ∀ cls, some cls ∈ registedClassesArray → ∃ T, Registrable R db cls T)
    (hdistinct : (registedClassesArray.reduceOption.map tableKey).Nodup) :
    Migrates R order registedClassesArray db := by
  have hmem : ∀ cls, cls ∈ registedClassesArray.reduceOption ↔ some cls ∈ registedClassesArray :=
    fun cls => List.reduceOption_mem_iff
  have hregistered : ∀ cls ∈ registedClassesArray.reduceOption, ∃ T, Registrable R db cls T :=
    fun cls hcls => hregistrable cls ((hmem cls).mp hcls)
  obtain ⟨issued, db', hrun, hdone, hframe⟩ := migrate_run (R := R) hregistered hdistinct
  rw [← updateTableInDB_eq] at hrun
  refine ⟨issued, db', hrun, fun cls hcls T hT => ?_, fun n hn => hframe n ?_, ?_⟩
  · exact hdone cls ((hmem cls).mpr hcls) (fold T) (by rw [tableKey, hT]; rfl)
  · intro hkey
    obtain ⟨cls, hcls, hn'⟩ := List.mem_map.mp hkey
    obtain ⟨T, hT, hTn⟩ := Option.map_eq_some_iff.mp hn'
    exact hn cls ((hmem cls).mp hcls) T hT hTn
  · rw [updateTableInDB_eq]
    refine again_run fun cls hcls => ?_
    obtain ⟨T, hT⟩ := hregistered cls hcls
    obtain ⟨new, hnew, hmigrated⟩ := hdone cls hcls (fold T)
      (by rw [tableKey, hT.creates.table]; rfl)
    refine ⟨T, new, ⟨hT.creates, hT.lowercase, fun tbl htbl => ?_⟩, hnew, hmigrated.complete⟩
    obtain rfl := Option.some.inj (hnew.symm.trans htbl)
    exact hmigrated.fits hT.creates hT.fits

/-! ### Classes and tables -/

/-- A class with one property, whose table has the name `T`. -/
def columnClass (T property : String) : ModelClass where
  chain := [⟨"Log", [⟨property, "i", property⟩], []⟩]
  getTableName := some T
  ivar_word := by simp

/-- The dictionary enumerates its keys as they were put in. -/
def insertionOrder : KeyOrder := ⟨AList.keys, fun _ => .refl _⟩

/-- Table names that differ in case only name one table: the migration of the second class does
not give it its column. -/
theorem log_names_clash :
    let classes := [some (columnClass "tb_log" "level"), some (columnClass "TB_LOG" "Level")]
    (classes.reduceOption.map ModelClass.getTableName).Nodup ∧
      (∀ cls, some cls ∈ classes → ∃ T, Registrable demoRuntime (fun _ => none) cls T) ∧
      ¬ Migrates demoRuntime insertionOrder classes fun _ => none := by
  refine ⟨by decide, ?_, ?_⟩
  · intro cls hcls
    have hcreates : ∀ T property, (columnClass T property).Creates T →
        Registrable demoRuntime (fun _ => none) (columnClass T property) T :=
      fun T property h => ⟨h, rfl, fun _ h => (by cases h)⟩
    rcases List.mem_cons.mp hcls with h | hcls
    · cases h
      exact ⟨"tb_log", hcreates _ _
        ⟨rfl, by decide +kernel, by decide +kernel, by decide +kernel, by decide +kernel,
          by decide +kernel⟩⟩
    · cases List.mem_singleton.mp hcls
      exact ⟨"TB_LOG", hcreates _ _
        ⟨rfl, by decide +kernel, by decide +kernel, by decide +kernel, by decide +kernel,
          by decide +kernel⟩⟩
  · rintro ⟨issued, db', -, hdone, -⟩
    obtain ⟨new, hnew, hfirst⟩ := hdone (columnClass "tb_log" "level") (by simp) "tb_log" rfl
    obtain ⟨new', hnew', hsecond⟩ := hdone (columnClass "TB_LOG" "Level") (by simp) "TB_LOG" rfl
    have hsame : fold "TB_LOG" = fold "tb_log" := by decide
    rw [hsame, hnew] at hnew'
    cases hnew'
    -- the table has the first column, which is none of the second class's
    obtain ⟨d, hd, hlevel⟩ := List.mem_map.mp (hfirst.complete ("_level", "NUMERIC") (by decide))
    have hother : d ∈ storedColumns (columnClass "TB_LOG" "Level").chain :=
      (hsecond.added d hd).resolve_left List.not_mem_nil
    have hcolumns : storedColumns (columnClass "TB_LOG" "Level").chain =
        [("_Level", "NUMERIC")] := by decide
    rw [hcolumns, List.mem_singleton] at hother
    rw [hother] at hlevel
    exact absurd hlevel (by decide)

/-- A table of books from before books had names. -/
def oldBooks : Db := fun n =>
  if n = "tb_books" then
    some ⟨[("_bookId", "VARCHAR"), ("_shelf", "TEXT")], ["_bookId"], [fun _ => .text "1"]⟩
  else none

/-- The table of books gets the columns it lacks. -/
theorem oldBooks_migrates :
    Migrates demoRuntime insertionOrder [some bookClass, none] oldBooks := by
  refine updateTableInDB_migrates demoRuntime insertionOrder _ oldBooks (fun cls hcls => ?_)
    (by decide +kernel)
  rcases List.mem_cons.mp hcls with h | hcls
  · cases h
    refine ⟨"tb_books", bookClass_valid.creates, rfl, fun tbl htbl => ?_⟩
    cases htbl
    unfold Fits
    decide +kernel
  · cases List.mem_singleton.mp hcls

end NBDataBase
