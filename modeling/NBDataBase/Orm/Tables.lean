import NBDataBase.Orm.Encoding

/-!
# Orm — the table of a class

* `ModelClass.Valid`: SQLite accepts the `CREATE TABLE` of the class, and no two of its properties
  share a column.
* `TableOf`: a table with the columns, the types and the primary key of the class.  The table that
  `createTableSQL` makes is one (`created_tableOf`).
* `storedRow`: the row that the insert of a model makes.  `storedRow_column`: its column of a
  property holds what the insert binds for the property, and NULL for nil.
* `Written`: a row that the insert path wrote.
-/

namespace NBDataBase
open Sql

/-- The only element with a property is the one found. -/
theorem find_of_only {α : Type} {P : α → Bool} {l : List α} {x : α} (hx : x ∈ l) (hP : P x = true)
    (honly : ∀ y ∈ l, P y = true → y = x) : l.find? P = some x := by
  obtain ⟨y, hy⟩ := Option.isSome_iff_exists.mp
    (List.find?_isSome.mpr ⟨x, hx, hP⟩ : (l.find? P).isSome)
  rw [hy, honly y (List.mem_of_find?_eq_some hy) (List.find?_some hy)]

/-- An element of a list without repeated keys is found by its key. -/
theorem find_of_nodup {α κ : Type} [DecidableEq κ] {key : α → κ} {l : List α}
    (h : (l.map key).Nodup) {x : α} (hx : x ∈ l) :
    l.find? (fun y => key y = key x) = some x :=
  find_of_only hx (by simp) fun _ hy hkey =>
    List.inj_on_of_nodup_map h hy hx (of_decide_eq_true hkey)

/-! ### Classes and their tables -/

/-- The property has a column, or belongs to the primary key. -/
def Property.usesColumn (p : Property) : Bool := isColumn p.name || isPrimaryKey p.name

/-- SQLite accepts the `CREATE TABLE` of the class, and no two properties share a column. -/
structure ModelClass.Valid (cls : ModelClass) (T : String) : Prop where
  table : cls.getTableName = some T
  name : Name T
  ordinary : ¬ "sqlite_".toList <+: (fold T).toList
  columns : ∀ p ∈ properties cls.chain, p.isStored = true → Name p.column
  distinct : (((properties cls.chain).filter Property.usesColumn).map fun p =>
    fold p.column).Nodup
  keys : ∀ p ∈ properties cls.chain, isPrimaryKey p.name = true → p.isStored = true
  stores : storedColumns cls.chain ≠ []

/-- SQLite reads the `CREATE TABLE` of the class and accepts it. -/
structure ModelClass.Creates (cls : ModelClass) (T : String) : Prop where
  table : cls.getTableName = some T
  name : Name T
  columns : ∀ d ∈ storedColumns cls.chain, Name d.1
  keys : ∀ k ∈ getPrimaryKeys cls.chain, Name k
  stores : storedColumns cls.chain ≠ []
  creatable : Creatable T (storedColumns cls.chain) (getPrimaryKeys cls.chain)

/-- A table with the columns, the types and the primary key of the class. -/
structure TableOf (cls : ModelClass) (tbl : Table) : Prop where
  has : ∀ d ∈ storedColumns cls.chain, tbl.has d.1 = true
  affinity : ∀ d ∈ storedColumns cls.chain, tbl.affinity d.1 = affinityOf d.2
  primaryKey : tbl.primaryKey = getPrimaryKeys cls.chain
  unique : tbl.Unique

variable {cls : ModelClass} {T : String} {p q : Property}

theorem isStored_iff : p.isStored = true ↔ isColumn p.name = true ∧ ∃ t, p.columnType = some t := by
  rw [Property.isStored, Bool.and_eq_true, Option.isSome_iff_exists]

theorem mem_storedColumns {d : String × String} :
    d ∈ storedColumns cls.chain ↔ ∃ p ∈ properties cls.chain, isColumn p.name = true ∧
      p.column = d.1 ∧ p.columnType = some d.2 := by
  simp only [storedColumns, List.mem_filterMap, storedColumn]
  refine exists_congr fun p => and_congr_right fun _ => ?_
  obtain ⟨c, t⟩ := d
  by_cases hcol : isColumn p.name = true
  · rw [if_pos hcol, Option.map_eq_some_iff]
    constructor
    · rintro ⟨t', ht, h⟩
      obtain ⟨rfl, rfl⟩ := Prod.mk.inj h
      exact ⟨hcol, rfl, ht⟩
    · rintro ⟨-, rfl, ht⟩
      exact ⟨t, ht, rfl⟩
  · rw [if_neg hcol]
    simp [hcol]

theorem stored_mem {t : String} (hp : p ∈ properties cls.chain) (hcol : isColumn p.name = true)
    (ht : p.columnType = some t) : (p.column, t) ∈ storedColumns cls.chain :=
  mem_storedColumns.mpr ⟨p, hp, hcol, rfl, ht⟩

theorem mem_getPrimaryKeys {k : String} :
    k ∈ getPrimaryKeys cls.chain ↔
      ∃ p ∈ properties cls.chain, isPrimaryKey p.name = true ∧ p.column = k := by
  simp only [getPrimaryKeys, List.mem_map, List.mem_filter, and_assoc]
  exact Iff.rfl

namespace ModelClass.Valid

/-- A column is that of one property. -/
theorem eq_of_fold (h : cls.Valid T) (hp : p ∈ properties cls.chain) (hq : q ∈ properties cls.chain)
    (hpu : p.usesColumn = true) (hqu : q.usesColumn = true)
    (hpq : fold p.column = fold q.column) : p = q :=
  List.inj_on_of_nodup_map h.distinct (List.mem_filter.mpr ⟨hp, hpu⟩)
    (List.mem_filter.mpr ⟨hq, hqu⟩) hpq

theorem key_column (h : cls.Valid T) (hp : p ∈ properties cls.chain)
    (hk : isPrimaryKey p.name = true) : isColumn p.name = true :=
  (isStored_iff.mp (h.keys p hp hk)).1

end ModelClass.Valid

theorem usesColumn_of_column (h : isColumn p.name = true) : p.usesColumn = true := by
  rw [Property.usesColumn, h, Bool.true_or]

/-! ### The table that `createTableSQL` makes -/

/-- The table of `CREATE TABLE`, without rows. -/
def createdTable (cls : ModelClass) : Table where
  columns := storedColumns cls.chain
  primaryKey := getPrimaryKeys cls.chain
  rows := []

theorem storedColumns_nodup (h : cls.Valid T) :
    ((storedColumns cls.chain).map fun d => fold d.1).Nodup := by
  have hsub : ((storedColumns cls.chain).map fun d => fold d.1).Sublist
      (((properties cls.chain).filter Property.usesColumn).map fun p => fold p.column) := by
    unfold storedColumns
    generalize properties cls.chain = ps
    induction ps with
    | nil => exact .slnil
    | cons p ps ih =>
        by_cases hcol : isColumn p.name = true
        · have huses := usesColumn_of_column hcol
          cases ht : p.columnType with
          | none =>
              have hnone : storedColumn p = none := by simp [storedColumn, ht]
              rw [List.filterMap_cons_none hnone, List.filter_cons_of_pos huses, List.map_cons]
              exact ih.cons _
          | some t =>
              have hsome : storedColumn p = some (p.column, t) := by simp [storedColumn, hcol, ht]
              rw [List.filterMap_cons_some hsome, List.filter_cons_of_pos huses, List.map_cons,
                List.map_cons]
              exact ih.cons_cons _
        · have hnone : storedColumn p = none := by simp [storedColumn, hcol]
          rw [List.filterMap_cons_none hnone]
          by_cases huses : p.usesColumn = true
          · rw [List.filter_cons_of_pos huses, List.map_cons]
            exact ih.cons _
          · rw [List.filter_cons_of_neg huses]
            exact ih
  exact hsub.nodup h.distinct

/-- **The table that `createTableSQL` makes** is one of the class. -/
theorem created_tableOf (h : cls.Valid T) : TableOf cls (createdTable cls) where
  has d hd := List.any_eq_true.mpr ⟨d, hd, by simp⟩
  affinity d hd := by
    simp only [Table.affinity, createdTable, find_of_nodup (storedColumns_nodup h) hd]
  primaryKey := rfl
  unique := List.Pairwise.nil

/-- The table has no column for a property that is not stored. -/
theorem created_has_not (h : cls.Valid T) (hp : p ∈ properties cls.chain)
    (hcol : isColumn p.name = true) (hst : p.isStored = false) :
    (createdTable cls).has p.column = false := by
  by_contra hhas
  obtain ⟨d, hd, hdp⟩ := List.any_eq_true.mp (Bool.not_eq_false _ ▸ hhas)
  obtain ⟨q, hq, hqcol, hqd, ht⟩ := mem_storedColumns.mp hd
  have hfold : fold q.column = fold p.column := by
    rw [hqd]
    exact of_decide_eq_true hdp
  obtain rfl := h.eq_of_fold hq hp (usesColumn_of_column hqcol) (usesColumn_of_column hcol) hfold
  have hstored : q.isStored = true := isStored_iff.mpr ⟨hqcol, d.2, ht⟩
  rw [hst] at hstored
  cases hstored

/-- A column type is a name. -/
theorem storedColumns_type {d : String × String} (hd : d ∈ storedColumns cls.chain) : Name d.2 := by
  obtain ⟨p, -, -, -, ht⟩ := mem_storedColumns.mp hd
  have htype : ∀ t ∈ ["NUMERIC", "CHAR", "VARCHAR", "BLOB"], Name t := by decide +kernel
  exact htype d.2 (columnTypeStringWithDataType_mem ht)

theorem stored_names (h : cls.Valid T) : ∀ d ∈ storedColumns cls.chain, Name d.1 := by
  intro d hd
  obtain ⟨p, hp, hcol, hc, ht⟩ := mem_storedColumns.mp hd
  exact hc ▸ h.columns p hp (isStored_iff.mpr ⟨hcol, d.2, ht⟩)

theorem ModelClass.Valid.creates (h : cls.Valid T) : cls.Creates T where
  table := h.table
  name := h.name
  columns := stored_names h
  keys k hk := by
    obtain ⟨p, hp, hkey, rfl⟩ := mem_getPrimaryKeys.mp hk
    exact h.columns p hp (h.keys p hp hkey)
  stores := h.stores
  creatable := by
    refine ⟨h.ordinary, storedColumns_nodup h, fun k hk => ?_⟩
    obtain ⟨p, hp, hkey, rfl⟩ := mem_getPrimaryKeys.mp hk
    obtain ⟨hcol, t, ht⟩ := isStored_iff.mp (h.keys p hp hkey)
    exact List.mem_map.mpr ⟨(p.column, t), stored_mem hp hcol ht, rfl⟩

/-- SQLite reads the `CREATE TABLE` of the class back, under any name. -/
theorem createTableSQL_prepare (h : cls.Creates T) {n : String} (hn : Name n)
    {tableName : Option String} (hname : tableName.or cls.getTableName = some n) :
    ∃ sql, createTableSQLWithTableName cls tableName = some sql ∧
      prepare sql = some (.create n (storedColumns cls.chain) (getPrimaryKeys cls.chain)) :=
  ⟨_, createTableSQL_run hname h.stores fun k hk => (h.keys k hk).word.1,
    prepare_create hn h.stores (fun d hd => ⟨h.columns d hd, storedColumns_type hd⟩) h.keys⟩

/-! ### The row of a model -/

section Rows

variable (R : Runtime) (tbl : Table) (m : Model)

/-- The row that an insert of some bindings makes. -/
def rowOf (l : List (String × Obj)) : Row :=
  newRow R.conv tbl (l.map (·.1)) (l.map fun e => bindObject R e.2)

/-- The row that the insert of a model makes. -/
def storedRow : Row := rowOf R tbl (insertBindings R m (properties m.cls.chain))

/-- A row that the insert path wrote: its statement was built, read and accepted. -/
def Written (cls : ModelClass) (T : String) (r : Row) : Prop :=
  ∃ (m : Model) (replace : Bool) (sql : String) (values : List Obj) (cs : List String) (n : ℕ),
    m.cls = cls ∧ createInsertSQL R m none replace = .ok (some (sql, values)) ∧
      prepare sql = some (.insert replace T cs n) ∧ (∀ c ∈ cs, tbl.has c = true) ∧
      r = newRow R.conv tbl cs (values.map (bindObject R))

end Rows

variable {R : Runtime} {tbl : Table} {m : Model}

theorem rowOf_eq (l : List (String × Obj)) (c : String) :
    rowOf R tbl l c = ((l.find? fun e => fold e.1 = c).map fun e =>
      (tbl.affinity e.1).apply R.conv (bindObject R e.2)).getD .null := by
  have hzip : (l.map (·.1)).zip (l.map fun e => bindObject R e.2) =
      l.map fun e => (e.1, bindObject R e.2) := by
    rw [List.zip_map']
  rw [rowOf, newRow, hzip, List.find?_map]
  simp only [Function.comp_def]
  cases l.find? fun e => fold e.1 = c <;> rfl

/-- What an insert binds for the column of a property. -/
theorem insertBindings_find {ps : List Property} (hp : p ∈ ps) (hcol : isColumn p.name = true)
    (huniq : ∀ q ∈ ps, isColumn q.name = true → fold q.column = fold p.column → q = p) :
    (insertBindings R m ps).find? (fun e => fold e.1 = fold p.column) =
      (m.value p.column).map fun v => (p.column, p.encode R v) := by
  have honly : ∀ e ∈ insertBindings R m ps, fold e.1 = fold p.column →
      ∃ v, m.value p.column = some v ∧ e = (p.column, p.encode R v) := by
    rintro ⟨c, w⟩ he hfold
    obtain ⟨q, hq, hqcol, rfl, v, hv, rfl⟩ := mem_insertBindings.mp he
    obtain rfl := huniq q hq hqcol hfold
    exact ⟨v, hv, rfl⟩
  cases hv : m.value p.column with
  | none =>
      rw [Option.map_none, List.find?_eq_none]
      intro e he hfold
      obtain ⟨v, hv', -⟩ := honly e he (by simpa using hfold)
      rw [hv] at hv'
      cases hv'
  | some v =>
      have hmem : (p.column, p.encode R v) ∈ insertBindings R m ps :=
        mem_insertBindings.mpr ⟨p, hp, hcol, rfl, v, hv, rfl⟩
      refine find_of_only hmem (by simp) fun e he hfold => ?_
      obtain ⟨v', hv', rfl⟩ := honly e he (of_decide_eq_true hfold)
      rw [Option.some.inj (hv'.symm.trans hv)]

/-- **The row of a model** holds in the column of a property what the insert binds for it. -/
theorem storedRow_column (h : m.cls.Valid T) (hp : p ∈ properties m.cls.chain)
    (hcol : isColumn p.name = true) :
    storedRow R tbl m (fold p.column) = ((m.value p.column).map fun v =>
      (tbl.affinity p.column).apply R.conv (bindObject R (p.encode R v))).getD .null := by
  have huniq : ∀ q ∈ properties m.cls.chain, isColumn q.name = true →
      fold q.column = fold p.column → q = p := fun q hq hqcol hfold =>
    h.eq_of_fold hq hp (usesColumn_of_column hqcol) (usesColumn_of_column hcol) hfold
  rw [storedRow, rowOf_eq, insertBindings_find hp hcol huniq, Option.map_map]
  rfl

/-- A column type the class declares is no `REAL`. -/
theorem TableOf.affinity_ne (h : TableOf cls tbl) {c t : String}
    (hd : (c, t) ∈ storedColumns cls.chain) : tbl.affinity c ≠ .real := by
  obtain ⟨p, -, -, -, ht⟩ := mem_storedColumns.mp hd
  have htype : ∀ t ∈ ["NUMERIC", "CHAR", "VARCHAR", "BLOB"], affinityOf t ≠ .real := by
    decide +kernel
  have haff : tbl.affinity c = affinityOf t := h.affinity (c, t) hd
  rw [haff]
  exact htype t (columnTypeStringWithDataType_mem ht)

/-- A `BLOB` column stores what is bound. -/
theorem TableOf.affinity_blob (h : TableOf cls tbl) {c : String}
    (hd : (c, "BLOB") ∈ storedColumns cls.chain) : tbl.affinity c = .blob := by
  have htype : affinityOf "BLOB" = .blob := by decide +kernel
  have haff : tbl.affinity c = affinityOf "BLOB" := h.affinity (c, "BLOB") hd
  exact haff.trans htype

/-- A written row is the row of a model whose instance variables are all there. -/
theorem Written.eq_storedRow (h : cls.Valid T) {r : Row} (hr : Written R tbl cls T r) :
    ∃ m : Model, m.cls = cls ∧ AllBacked cls.chain (properties cls.chain) ∧
      r = storedRow R tbl m := by
  obtain ⟨m, replace, sql, values, cs, n, rfl, hbuilt, hst, -, rfl⟩ := hr
  have hown : Option.or none m.cls.getTableName = some T := h.table
  have hA : AllBacked m.cls.chain (properties m.cls.chain) := by
    by_contra hA
    rw [createInsertSQL_error replace hown hA] at hbuilt
    cases hbuilt
  refine ⟨m, rfl, hA, ?_⟩
  rw [createInsertSQL_run replace hown hA] at hbuilt
  have hbuilt := Except.ok.inj hbuilt
  have hl : insertBindings R m (properties m.cls.chain) ≠ [] := by
    intro hl
    rw [hl] at hbuilt
    cases hbuilt
  have hn : ∀ e ∈ insertBindings R m (properties m.cls.chain), Name e.1 := by
    by_contra hn
    rw [prepare_insert_none h.name replace (insertBindings_word hA) hn hbuilt] at hst
    cases hst
  obtain ⟨sql', hsql', hst'⟩ := prepare_insert h.name replace hl hn
  rw [hsql'] at hbuilt
  obtain ⟨rfl, rfl⟩ := Prod.mk.inj (Option.some.inj hbuilt)
  rw [hst'] at hst
  cases hst
  rw [storedRow, rowOf, List.map_map]
  rfl

/-! ### Models of stored properties only -/

/-- The insert names the columns of stored properties only. -/
def Storable (m : Model) : Prop :=
  ∀ p ∈ properties m.cls.chain, isColumn p.name = true → m.value p.column ≠ none →
    p.isStored = true

theorem Storable.insertBindings (hst : Storable m) {e : String × Obj}
    (he : e ∈ insertBindings R m (properties m.cls.chain)) :
    ∃ d ∈ storedColumns m.cls.chain, d.1 = e.1 := by
  obtain ⟨c, w⟩ := e
  obtain ⟨p, hp, hcol, rfl, v, hv, -⟩ := mem_insertBindings.mp he
  obtain ⟨-, t, ht⟩ := isStored_iff.mp (hst p hp hcol (by simp [hv]))
  exact ⟨(p.column, t), stored_mem hp hcol ht, rfl⟩

/-- A model of the class that has these values in its stored columns and nothing else. -/
def storedModel (cls : ModelClass) (values : String → Option Obj) : Model :=
  .ofIvars cls fun key => if key ∈ (storedColumns cls.chain).map (·.1) then values key else none

variable {values : String → Option Obj}

theorem storedModel_value (hA : AllBacked cls.chain (properties cls.chain))
    (hp : p ∈ properties cls.chain) (hcol : isColumn p.name = true) :
    (storedModel cls values).value p.column =
      if p.column ∈ (storedColumns cls.chain).map (·.1) then values p.column else none := by
  have hb : (getInstanceVariable cls.chain p.column).isSome = true := hA p hp hcol
  simp [storedModel, Model.ofIvars, Model.value, hb]

theorem storedModel_value_stored (hA : AllBacked cls.chain (properties cls.chain))
    (hp : p ∈ properties cls.chain) (hst : p.isStored = true) :
    (storedModel cls values).value p.column = values p.column := by
  obtain ⟨hcol, t, ht⟩ := isStored_iff.mp hst
  have hmem := stored_mem hp hcol ht
  rw [storedModel_value hA hp hcol, if_pos (List.mem_map.mpr ⟨_, hmem, rfl⟩)]

theorem storedModel_storable (h : cls.Valid T) (hA : AllBacked cls.chain (properties cls.chain)) :
    Storable (storedModel cls values) := by
  intro q hq hqcol hv
  rw [storedModel_value hA hq hqcol] at hv
  split at hv
  · obtain ⟨d, hd, hdq⟩ := List.mem_map.mp ‹_›
    obtain ⟨p, hp, hcol, hpd, ht⟩ := mem_storedColumns.mp hd
    -- the two properties share the column
    obtain rfl := h.eq_of_fold hp hq (usesColumn_of_column hcol) (usesColumn_of_column hqcol)
      (by rw [hpd, hdq])
    exact isStored_iff.mpr ⟨hcol, d.2, ht⟩
  · exact absurd rfl hv

/-- The insert of such a model is built and accepted. -/
theorem storedModel_written (h : cls.Valid T) (hA : AllBacked cls.chain (properties cls.chain))
    (htbl : TableOf cls tbl) (hp : p ∈ properties cls.chain) (hst : p.isStored = true)
    (hv : (values p.column).isSome = true) :
    Written R tbl cls T (storedRow R tbl (storedModel cls values)) := by
  have hcolumns : ∀ e ∈ insertBindings R (storedModel cls values) (properties cls.chain),
      ∃ d ∈ storedColumns cls.chain, d.1 = e.1 := fun e he =>
    (storedModel_storable h hA).insertBindings he
  obtain ⟨v, hv⟩ := Option.isSome_iff_exists.mp hv
  have hval : (storedModel cls values).value p.column = some v := by
    rw [storedModel_value_stored hA hp hst, hv]
  have hmem : (p.column, p.encode R v) ∈
      insertBindings R (storedModel cls values) (properties cls.chain) :=
    mem_insertBindings.mpr ⟨p, hp, (isStored_iff.mp hst).1, rfl, v, hval, rfl⟩
  obtain ⟨sql, hsql, hst'⟩ := prepare_insert h.name false (List.ne_nil_of_mem hmem) fun e he => by
    obtain ⟨d, hd, hde⟩ := hcolumns e he
    exact hde ▸ stored_names h d hd
  have hown : Option.or none (storedModel cls values).cls.getTableName = some T := h.table
  refine ⟨storedModel cls values, false, sql,
    (insertBindings R (storedModel cls values) (properties cls.chain)).map (·.2), _, _, rfl, ?_,
    hst', fun c hc => ?_, ?_⟩
  · rw [createInsertSQL_run false hown hA]
    exact congrArg _ hsql
  · obtain ⟨e, he, rfl⟩ := List.mem_map.mp hc
    obtain ⟨d, hd, hde⟩ := hcolumns e he
    exact hde ▸ htbl.has d hd
  · rw [storedRow, rowOf, List.map_map]
    rfl

/-! ### Books -/

theorem bookClass_valid : bookClass.Valid "tb_books" where
  table := rfl
  name := by decide +kernel
  ordinary := by decide +kernel
  columns := by decide +kernel
  distinct := by decide +kernel
  keys := by decide +kernel
  stores := by decide +kernel

end NBDataBase
