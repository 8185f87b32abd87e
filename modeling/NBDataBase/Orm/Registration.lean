import NBDataBase.Lib.Fill
import NBDataBase.Orm.Migration

/-!
# Orm — the order of registration

Whether `updateTableInDB` ends with the same schema in whatever order the classes were registered.

* `defaultTableNameFromModelName`: the table name that a class inherits, from the source.
  `defaultTableName_prefix`: it does not tell prefixes apart, so that two classes may share a table.
* `columnType`, `primaryKeyColumns`: the schema of a table.  A migration fills it
  (`migratedTable_columnType`, `migratedTable_primaryKey`).
* `registrationLoop_run`: each table ends as the classes that share it leave it, in their order.
* `orderFree_iff`: the order does not matter exactly when the classes that share a table agree on
  what it lacks.
-/

namespace NBDataBase
open Sql

/-! ### Table names -/

section

variable (R : Runtime) (isUppercase : Char → Bool)

/-- The loop over the characters of a class name; `removed` is `isAlreadyRemovedPrefix`. -/
def tableNameLoop : Bool → List Char → String
  | _, [] => ""
  | removed, c :: cs =>
      if isUppercase c && cs.head?.any isUppercase && !removed then tableNameLoop removed cs
      else if isUppercase c then
        (if removed then "_" else "") ++
          (R.lowercaseString (String.singleton c) ++ tableNameLoop true cs)
      else String.singleton c ++ tableNameLoop true cs

/-- `FMDefaultTableNameFromModelName`. -/
def defaultTableNameFromModelName (input : String) : String :=
  "tb_" ++ (tableNameLoop R isUppercase false input.toList ++ "s")

example : defaultTableNameFromModelName demoRuntime Char.isUpper "NBBookInfo" =
    "tb_book_infos" := by
  decide +kernel

/-- **Prefixes are not told apart**: capitals before a capital are dropped. -/
theorem defaultTableName_prefix {cs : List Char} {c : Char} (hc : isUppercase c = true)
    (prefixes : List Char) (h : ∀ p ∈ prefixes, isUppercase p = true) :
    defaultTableNameFromModelName R isUppercase (String.ofList (prefixes ++ c :: cs)) =
      defaultTableNameFromModelName R isUppercase (String.ofList (c :: cs)) := by
  have hloop : tableNameLoop R isUppercase false (prefixes ++ c :: cs) =
      tableNameLoop R isUppercase false (c :: cs) := by
    induction prefixes with
    | nil => rfl
    | cons p ps ih =>
        have hp : isUppercase p = true := h p List.mem_cons_self
        have hnext : (ps ++ c :: cs).head?.any isUppercase = true := by
          cases ps with
          | nil => simpa using hc
          | cons q qs => simpa using h q (by simp)
        rw [List.cons_append, tableNameLoop, hp, hnext, ← ih fun q hq => h q (.tail _ hq)]
        rfl
  simp only [defaultTableNameFromModelName, String.toList_ofList, hloop]

end

/-! ### Schemas -/

/-- The type of a column of some definitions, by its folded name. -/
def typeIn (ds : List (String × String)) (c : String) : Option String :=
  (ds.find? fun d => fold d.1 = c).map (·.2)

/-- The type of a column of a table. -/
def columnType (old : Option Table) : String → Option String := typeIn (oldColumns old)

/-- The columns of the primary key of a table. -/
def primaryKeyColumns (old : Option Table) : Unit → Option (Finset String) := fun _ =>
  old.map fun tbl => (tbl.primaryKey.map fold).toFinset

/-- The types and the primary key in the `CREATE TABLE` of a class. -/
def classType (cls : ModelClass) : String → Option String := typeIn (storedColumns cls.chain)

def classKey (cls : ModelClass) : Unit → Option (Finset String) := fun _ =>
  some ((getPrimaryKeys cls.chain).map fold).toFinset

/-- Both tables are there or neither is, with the same columns, types and primary key. -/
def SameSchema (old new : Option Table) : Prop :=
  columnType old = columnType new ∧ primaryKeyColumns old = primaryKeyColumns new

variable {R : Runtime} {order : KeyOrder} {cls : ModelClass} {T k c t : String} {db db' : Db}
  {tbl : Table} {classes : List ModelClass}

theorem typeIn_none {ds : List (String × String)} :
    typeIn ds c = none ↔ ∀ d ∈ ds, fold d.1 ≠ c := by
  simp [typeIn]

theorem typeIn_some {ds : List (String × String)} (h : (ds.map fun d => fold d.1).Nodup) :
    typeIn ds c = some t ↔ ∃ d ∈ ds, fold d.1 = c ∧ d.2 = t := by
  constructor
  · intro ht
    obtain ⟨d, hd, rfl⟩ := Option.map_eq_some_iff.mp ht
    exact ⟨d, List.mem_of_find?_eq_some hd, by simpa using List.find?_some hd, rfl⟩
  · rintro ⟨d, hd, rfl, rfl⟩
    have hfind := find_of_nodup h hd
    rw [typeIn, hfind]
    rfl

/-- **A migration fills the types** that a table has with those of the class. -/
theorem migratedTable_columnType (h : cls.Creates T) (order : KeyOrder) (old : Option Table) :
    columnType (some (migratedTable order cls old)) =
      Fill.fill (columnType old) (classType cls) := by
  have hnodup : ((storedColumns cls.chain).map fun d => fold d.1).Nodup := h.creatable.2.1
  funext c
  cases old with
  | none => rfl
  | some tbl =>
      have happend : columnType (some (migratedTable order cls (some tbl))) c =
          (columnType (some tbl) c).or (typeIn (addedColumns order cls tbl) c) := by
        show typeIn (tbl.columns ++ addedColumns order cls tbl) c = _
        rw [typeIn, List.find?_append, Option.map_or]
        rfl
      rw [happend, Fill.fill]
      cases hold : columnType (some tbl) c with
      | some t => rfl
      | none =>
          have hnew : ∀ d ∈ storedColumns cls.chain, fold d.1 = c → tbl.has d.1 = false := by
            intro d hd hdc
            rw [Bool.eq_false_iff, Ne, Table.has_iff, hdc, List.mem_map]
            rintro ⟨e, he, hec⟩
            exact typeIn_none.mp hold e he hec
          have hadded : ((addedColumns order cls tbl).map fun d => fold d.1).Nodup :=
            (missingColumns_nodup h).sublist (List.filter_sublist.map _)
          refine Option.ext fun t => ?_
          rw [Option.none_or, Option.none_or, classType, typeIn_some hadded, typeIn_some hnodup]
          refine exists_congr fun d => ?_
          rw [mem_addedColumns h]
          constructor
          · rintro ⟨⟨hd, -⟩, hdt⟩
            exact ⟨hd, hdt⟩
          · rintro ⟨hd, hdt⟩
            exact ⟨⟨hd, hnew d hd hdt.1⟩, hdt⟩

theorem migratedTable_primaryKey (order : KeyOrder) (cls : ModelClass) (old : Option Table) :
    primaryKeyColumns (some (migratedTable order cls old)) =
      Fill.fill (primaryKeyColumns old) (classKey cls) := by
  cases old <;> rfl

/-! ### The classes that share a table -/

/-- The classes whose table SQLite keeps under `k`. -/
def sharing (k : String) (classes : List ModelClass) : List ModelClass :=
  classes.filter fun cls => tableKey cls = some k

/-- A table after the migrations of some classes. -/
def migratedBy (order : KeyOrder) (old : Option Table) (classes : List ModelClass) : Option Table :=
  classes.foldl (fun old cls => some (migratedTable order cls old)) old

theorem migratedBy_columnType (h : ∀ cls ∈ classes, ∃ T, cls.Creates T) (order : KeyOrder)
    (old : Option Table) : columnType (migratedBy order old classes) =
      (classes.map classType).foldl Fill.fill (columnType old) := by
  induction classes generalizing old with
  | nil => rfl
  | cons cls classes ih =>
      obtain ⟨T, hT⟩ := h cls List.mem_cons_self
      have ih := ih (fun cls' hcls' => h cls' (List.mem_cons_of_mem _ hcls'))
        (some (migratedTable order cls old))
      rw [migratedTable_columnType hT] at ih
      exact ih

theorem migratedBy_primaryKey (order : KeyOrder) (old : Option Table)
    (classes : List ModelClass) : primaryKeyColumns (migratedBy order old classes) =
      (classes.map classKey).foldl Fill.fill (primaryKeyColumns old) := by
  induction classes generalizing old with
  | nil => rfl
  | cons cls classes ih =>
      have ih := ih (some (migratedTable order cls old))
      rw [migratedTable_primaryKey] at ih
      exact ih

/-- SQLite accepts the `CREATE TABLE` of the class and folds its name as FMDB does. -/
structure Registers (R : Runtime) (cls : ModelClass) (T : String) : Prop where
  creates : cls.Creates T
  lowercase : R.lowercaseString T = fold T

/-- **Each table ends** as the classes that share it leave it, in their order. -/
theorem registrationLoop_run (h : ∀ cls ∈ classes, ∃ T, Registers R cls T) (order : KeyOrder)
    (db : Db) :
    ∃ issued db', updateTableInDB R order (classes.map some) db = (.ok issued, db') ∧
      ∀ k, db' k = migratedBy order (db k) (sharing k classes) := by
  have hclasses : (classes.map some).reduceOption = classes := by simp [List.reduceOption]
  rw [updateTableInDB_eq, hclasses]
  clear hclasses
  induction classes generalizing db with
  | nil => exact ⟨[], db, rfl, fun _ => rfl⟩
  | cons cls classes ih =>
      obtain ⟨T, hT⟩ := h cls List.mem_cons_self
      have hkey : tableKey cls = some (fold T) := by rw [tableKey, hT.creates.table]; rfl
      obtain ⟨l, hfirst⟩ : ∃ l, updateTable R order cls db = _ := by
        rw [updateTable, hT.creates.table]
        exact migrateTable_run hT.creates hT.creates.name hT.lowercase (.inr rfl)
      obtain ⟨l', db', hloop, hdb'⟩ := ih (fun cls' hcls' => h cls' (List.mem_cons_of_mem _ hcls'))
        (Function.update db (fold T) (some (migratedTable order cls (db (fold T)))))
      refine ⟨l ++ l', db', collect_cons hfirst hloop, fun k => ?_⟩
      rw [hdb' k]
      by_cases hk : k = fold T
      · subst hk
        rw [Function.update_self, sharing, sharing, List.filter_cons_of_pos (by simp [hkey])]
        rfl
      · have hne : ¬ some (fold T) = some k := fun h => hk (Option.some.inj h).symm
        rw [Function.update_of_ne hk, sharing, sharing,
          List.filter_cons_of_neg (by simp [hkey, hne])]

/-! ### The order of registration -/

/-- In whatever order the classes are registered, and the dictionaries enumerated, the migration
ends with the same schema, and a table that was not there has the primary key of each class it is
the table of. -/
def OrderFree (R : Runtime) (classes : List ModelClass) (db : Db) : Prop :=
  ∀ order order' classes', classes.Perm classes' → ∃ issued db₁ issued' db₂,
    updateTableInDB R order (classes.map some) db = (.ok issued, db₁) ∧
    updateTableInDB R order' (classes'.map some) db = (.ok issued', db₂) ∧
    (∀ k, SameSchema (db₁ k) (db₂ k)) ∧
    ∀ cls ∈ classes, ∀ k, tableKey cls = some k → db k = none →
      primaryKeyColumns (db₁ k) = classKey cls

/-- Classes that share a table declare the same type for a column that it lacks and, when it is
missing, the same primary key. -/
structure Agree (db : Db) (a b : ModelClass) : Prop where
  types : ∀ k, tableKey a = some k → tableKey b = some k → ∀ c, columnType (db k) c = none →
    ∀ t u, classType a c = some t → classType b c = some u → t = u
  primaryKey : ∀ k, tableKey a = some k → tableKey b = some k → db k = none →
    classKey a = classKey b

theorem sharing_mem : cls ∈ sharing k classes ↔ cls ∈ classes ∧ tableKey cls = some k := by
  rw [sharing, List.mem_filter, decide_eq_true_iff]

theorem Agree.compatible_types (hagree : ∀ a ∈ classes, ∀ b ∈ classes, Agree db a b) (k : String) :
    Fill.Compatible (columnType (db k)) ((sharing k classes).map classType) := by
  intro c hc g hg g' hg' t u ht hu
  obtain ⟨a, ha, rfl⟩ := List.mem_map.mp hg
  obtain ⟨b, hb, rfl⟩ := List.mem_map.mp hg'
  obtain ⟨ha, hak⟩ := sharing_mem.mp ha
  obtain ⟨hb, hbk⟩ := sharing_mem.mp hb
  exact (hagree a ha b hb).types k hak hbk c hc t u ht hu

theorem primaryKeyColumns_none {old : Option Table} {u : Unit}
    (h : primaryKeyColumns old u = none) : old = none := by
  simpa [primaryKeyColumns] using h

theorem Agree.compatible_keys (hagree : ∀ a ∈ classes, ∀ b ∈ classes, Agree db a b) (k : String) :
    Fill.Compatible (primaryKeyColumns (db k)) ((sharing k classes).map classKey) := by
  intro u hu g hg g' hg' v w hv hw
  obtain ⟨a, ha, rfl⟩ := List.mem_map.mp hg
  obtain ⟨b, hb, rfl⟩ := List.mem_map.mp hg'
  obtain ⟨ha, hak⟩ := sharing_mem.mp ha
  obtain ⟨hb, hbk⟩ := sharing_mem.mp hb
  have hkey := (hagree a ha b hb).primaryKey k hak hbk (primaryKeyColumns_none hu)
  rw [hkey, hw] at hv
  exact (Option.some.inj hv).symm

/-- Classes that agree may be registered in any order. -/
theorem OrderFree.of_agree (h : ∀ cls ∈ classes, ∃ T, Registers R cls T)
    (hagree : ∀ a ∈ classes, ∀ b ∈ classes, Agree db a b) : OrderFree R classes db := by
  intro order order' classes' hperm
  have hcreates : ∀ k, ∀ cls ∈ sharing k classes, ∃ T, cls.Creates T := by
    intro k cls hcls
    obtain ⟨T, hT⟩ := h cls (sharing_mem.mp hcls).1
    exact ⟨T, hT.creates⟩
  have hshare : ∀ k, (sharing k classes).Perm (sharing k classes') := fun k => hperm.filter _
  obtain ⟨issued, db₁, hrun, hdb₁⟩ := registrationLoop_run h order db
  obtain ⟨issued', db₂, hrun', hdb₂⟩ := registrationLoop_run
    (fun cls hcls => h cls (hperm.mem_iff.mpr hcls)) order' db
  refine ⟨issued, db₁, issued', db₂, hrun, hrun', fun k => ?_, fun cls hcls k hk hnone => ?_⟩
  · rw [hdb₁, hdb₂, SameSchema, migratedBy_columnType (hcreates k), migratedBy_primaryKey,
      migratedBy_columnType fun cls hcls => hcreates k cls ((hshare k).mem_iff.mpr hcls),
      migratedBy_primaryKey]
    exact ⟨Fill.foldl_fill_perm ((hshare k).map _) (Agree.compatible_types hagree k),
      Fill.foldl_fill_perm ((hshare k).map _) (Agree.compatible_keys hagree k)⟩
  · funext u
    have hmissing : primaryKeyColumns (db k) u = none := by rw [hnone]; rfl
    rw [hdb₁, migratedBy_primaryKey, Fill.foldl_fill_apply, hmissing, Option.none_or, classKey,
      Fill.findSome_iff (Agree.compatible_keys hagree k) hmissing]
    exact ⟨classKey cls, List.mem_map.mpr ⟨cls, sharing_mem.mpr ⟨hcls, hk⟩, rfl⟩, rfl⟩

/-- When the order does not matter, each class's type of a column is the one the table gets. -/
theorem OrderFree.type_eq (h : ∀ cls ∈ classes, ∃ T, Registers R cls T)
    (hfree : OrderFree R classes db) (hcls : cls ∈ classes) (hk : tableKey cls = some k)
    (hc : columnType (db k) c = none) (ht : classType cls c = some t) {issued : List String}
    (hrun : updateTableInDB R insertionOrder (classes.map some) db = (.ok issued, db')) :
    columnType (db' k) c = some t := by
  obtain ⟨before, after, hsplit⟩ := List.append_of_mem hcls
  have hperm : classes.Perm (cls :: (before ++ after)) := hsplit ▸ List.perm_middle
  obtain ⟨issued₁, db₁, issued₂, db₂, hrun₁, hrun₂, hsame, -⟩ :=
    hfree insertionOrder insertionOrder _ hperm
  rw [hrun₁] at hrun
  obtain ⟨-, rfl⟩ := Prod.mk.inj hrun
  -- registered first, the class gives the column its type
  obtain ⟨issued₃, db₃, hrun₃, hdb₃⟩ := registrationLoop_run
    (fun cls hcls => h cls (hperm.mem_iff.mpr hcls)) insertionOrder db
  rw [hrun₃] at hrun₂
  obtain ⟨-, rfl⟩ := Prod.mk.inj hrun₂
  have hcreates : ∀ cls' ∈ sharing k (cls :: (before ++ after)), ∃ T, cls'.Creates T := by
    intro cls' hcls'
    obtain ⟨T, hT⟩ := h cls' (hperm.mem_iff.mpr (sharing_mem.mp hcls').1)
    exact ⟨T, hT.creates⟩
  rw [(hsame k).1, hdb₃, migratedBy_columnType hcreates, Fill.foldl_fill_apply, hc, sharing,
    List.filter_cons_of_pos (by simpa using hk), List.map_cons, List.findSome?_cons, ht]
  rfl

/-- **The order of registration does not matter** exactly when the classes that share a table
agree on what it lacks. -/
theorem orderFree_iff (R : Runtime) (db : Db) (h : ∀ cls ∈ classes, ∃ T, Registers R cls T) :
    OrderFree R classes db ↔ ∀ a ∈ classes, ∀ b ∈ classes, Agree db a b := by
  refine ⟨fun hfree a ha b hb => ?_, .of_agree h⟩
  obtain ⟨issued, db₁, issued', db₂, hrun, -, -, hkeys⟩ :=
    hfree insertionOrder insertionOrder classes (.refl _)
  refine ⟨fun k hak hbk c hc t u ht hu => ?_, fun k hak hbk hnone => ?_⟩
  · have htype := hfree.type_eq h ha hak hc ht hrun
    rw [hfree.type_eq h hb hbk hc hu hrun] at htype
    exact (Option.some.inj htype).symm
  · rw [← hkeys a ha k hak hnone, hkeys b hb k hbk hnone]

/-! ### Two classes of users -/

/-- A class of users that inherits its table name. -/
def keyedUserClass (name key : String) : ModelClass where
  chain := [⟨name, [⟨"_pk_" ++ key, "@\"NSString\"", key⟩, ⟨"age", "i", "age"⟩], []⟩]
  getTableName := some (defaultTableNameFromModelName demoRuntime Char.isUpper name)
  ivar_word := by simp

theorem keyedUserClass_registers :
    ∀ cls ∈ [keyedUserClass "User" "uid", keyedUserClass "NBUser" "name",
      keyedUserClass "NBUser" "uid"],
      Registers demoRuntime cls "tb_users" := by
  intro cls hcls
  have hcreates : ∀ cls ∈
      [keyedUserClass "User" "uid", keyedUserClass "NBUser" "name", keyedUserClass "NBUser" "uid"],
      cls.getTableName = some "tb_users" ∧ (∀ d ∈ storedColumns cls.chain, Name d.1) ∧
        (∀ k ∈ getPrimaryKeys cls.chain, Name k) ∧ storedColumns cls.chain ≠ [] ∧
        Creatable "tb_users" (storedColumns cls.chain) (getPrimaryKeys cls.chain) := by
    decide +kernel
  obtain ⟨htable, hcolumns, hkeys, hstores, hcreatable⟩ := hcreates cls hcls
  exact ⟨⟨htable, by decide +kernel, hcolumns, hkeys, hstores, hcreatable⟩, rfl⟩

/-- Two classes whose names differ in the prefix share a table: it has the primary key of one of
them only. -/
theorem users_share_table :
    (∀ cls ∈ [keyedUserClass "User" "uid", keyedUserClass "NBUser" "name"],
      Registers demoRuntime cls "tb_users") ∧
    ¬ OrderFree demoRuntime [keyedUserClass "User" "uid", keyedUserClass "NBUser" "name"]
      fun _ => none := by
  refine ⟨fun cls hcls => keyedUserClass_registers cls (by simp at hcls ⊢; tauto), fun hfree => ?_⟩
  obtain ⟨issued, db₁, issued', db₂, -, -, -, hkeys⟩ :=
    hfree insertionOrder insertionOrder _ (.refl _)
  have htable : ∀ cls ∈ [keyedUserClass "User" "uid", keyedUserClass "NBUser" "name"],
      tableKey cls = some "tb_users" := by decide +kernel
  have huser := hkeys _ List.mem_cons_self _ (htable _ List.mem_cons_self) rfl
  have hmem : keyedUserClass "NBUser" "name" ∈
      [keyedUserClass "User" "uid", keyedUserClass "NBUser" "name"] :=
    List.mem_cons_of_mem _ List.mem_cons_self
  have hother := hkeys _ hmem _ (htable _ hmem) rfl
  rw [huser] at hother
  have hne : classKey (keyedUserClass "User" "uid") () ≠
      classKey (keyedUserClass "NBUser" "name") () := by
    decide +kernel
  exact hne (congrFun hother ())

/-- Two classes of users with the same key share their table in any order. -/
theorem like_users_order_free : OrderFree demoRuntime
    [keyedUserClass "User" "uid", keyedUserClass "NBUser" "uid"] fun _ => none := by
  refine (orderFree_iff demoRuntime (fun _ => none) fun cls hcls => ?_).mpr fun a ha b hb => ?_
  · exact ⟨"tb_users", keyedUserClass_registers cls (by simp at hcls ⊢; tauto)⟩
  · have hsame : ∀ cls ∈ [keyedUserClass "User" "uid", keyedUserClass "NBUser" "uid"],
        classType cls = classType (keyedUserClass "User" "uid") ∧
          classKey cls = classKey (keyedUserClass "User" "uid") := by
      intro cls hcls
      rcases List.mem_cons.mp hcls with rfl | hcls
      · exact ⟨rfl, rfl⟩
      · rw [List.mem_singleton.mp hcls]
        exact ⟨rfl, rfl⟩
    refine ⟨fun k _ _ c _ t u ht hu => ?_, fun _ _ _ _ => by rw [(hsame a ha).2, (hsame b hb).2]⟩
    rw [(hsame a ha).1] at ht
    rw [(hsame b hb).1, ht] at hu
    exact Option.some.inj hu

end NBDataBase
