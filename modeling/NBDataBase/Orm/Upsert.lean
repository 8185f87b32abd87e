import NBDataBase.Orm.Keys

/-!
# Orm — update or insert

Whether `insertToDBWithModel:update:` leaves the row of the model as an insert would write it.

* `HasKey`: the row has the primary key that the insert stores.  `StoresModel`: the rows after
  the call; one has the key and holds what the insert stores, the others are as they were.
* `UpsertStores`: over every table of the class, the call returns YES and stores the model.
* `UpsertExact`: no key is stored as NULL; and the keys and the other properties are bound as
  they are stored, or the existence check finds nothing and there is nothing else to store.
* `upsertStores_iff`: the one exactly when the other.
-/

namespace NBDataBase
open Sql (fold Name Db Table Row Value Affinity prepare assign)

variable {R : Runtime} {T : String} {m : Model} {cls : ModelClass} {tbl : Table} {db : Db} {r : Row}
  {p : Property} {v : Obj}

section Rows

variable (R : Runtime) (tbl : Table) (m : Model)

/-- The row has the primary key that the insert of the model stores. -/
def HasKey (r : Row) : Bool := tbl.sameKey (storedRow R tbl m) r

/-- The stored properties outside the primary key. -/
def fieldProperties (m : Model) : List Property :=
  (properties m.cls.chain).filter fun p => p.isStored && !isPrimaryKey p.name

/-- One row has the key of the model, and holds in the other columns of the class what the insert
stores.  The rows without that key are those of the table. -/
def StoresModel (rows : List Row) : Prop :=
  ∃ r, rows.filter (HasKey R tbl m) = [r] ∧
    (∀ p ∈ fieldProperties m, r (fold p.column) = storedRow R tbl m (fold p.column)) ∧
    rows.filter (fun r => !HasKey R tbl m r) = tbl.rows.filter fun r => !HasKey R tbl m r

end Rows

/-- The call returns YES and stores the model, whatever the table of the class holds. -/
def UpsertStores (R : Runtime) (T : String) (m : Model) : Prop :=
  ∀ tbl db, TableOf m.cls tbl → db (fold T) = some tbl →
    ∃ rows, insertToDBWithModelUpdate R m true db =
      (.ok true, Function.update db (fold T) (some { tbl with rows := rows })) ∧
      StoresModel R tbl m rows

/-- There is a property to update, and each has a value that the insert does not archive. -/
def FieldsPlain (m : Model) : Prop :=
  fieldProperties m ≠ [] ∧
    ∀ p ∈ fieldProperties m, (∃ v, m.value p.column = some v) ∧ ¬ Archived m p

/-- The existence check compares some key with NULL. -/
def KeyUnseen (R : Runtime) (m : Model) : Prop :=
  ∃ p ∈ keyProperties m, ∃ v, m.value p.column = some v ∧ bindObject R v = .null

/-- The update binds what the insert stores, or no update is made and none is needed. -/
structure UpsertExact (R : Runtime) (m : Model) : Prop where
  keys : getPrimaryKeys m.cls.chain ≠ []
  keysBacked : KeysBacked m.cls.chain
  allBacked : AllBacked m.cls.chain (properties m.cls.chain)
  storable : Storable m
  keysStored : ¬ SomeKeyNull R m
  fields : KeysPlain m ∧ FieldsPlain m ∨ KeyUnseen R m ∧ fieldProperties m = []

theorem mem_fieldProperties : p ∈ fieldProperties m ↔
    p ∈ properties m.cls.chain ∧ p.isStored = true ∧ isPrimaryKey p.name = false := by
  simp [fieldProperties]

/-! ### The row with the key -/

section Key

variable (h : m.cls.Valid T) (htbl : TableOf m.cls tbl)
include htbl

theorem hasKey_eq (hpk : getPrimaryKeys m.cls.chain ≠ []) (r : Row) :
    HasKey R tbl m r = KeyEquals R tbl m r := by
  have hne : tbl.primaryKey.isEmpty = false := by
    rw [htbl.primaryKey]
    simpa using hpk
  rw [HasKey, KeyEquals, Table.sameKey, hne, htbl.primaryKey]
  simp only [Value.equals_comm, Bool.not_false, Bool.true_and]

theorem hasKey_unique (hpk : getPrimaryKeys m.cls.chain ≠ []) :
    (tbl.rows.filter (HasKey R tbl m)).length ≤ 1 := by
  rw [funext (hasKey_eq htbl hpk)]
  exact keyEquals_unique htbl hpk

include h

/-- The row of the model has its key, when no key is stored as NULL. -/
theorem hasKey_of_stored (hpk : getPrimaryKeys m.cls.chain ≠ []) (hnull : ¬ SomeKeyNull R m)
    (hkeys : ∀ p ∈ keyProperties m, m.value p.column ≠ none)
    (hr : ∀ p ∈ keyProperties m, r (fold p.column) = storedRow R tbl m (fold p.column)) :
    HasKey R tbl m r = true := by
  rw [hasKey_eq htbl hpk, keyEquals_iff]
  intro p hp
  rw [hr p hp]
  refine Value.equals_self fun hst => ?_
  obtain ⟨v, hv⟩ := Option.ne_none_iff_exists'.mp (hkeys p hp)
  by_cases ha : Archived m p
  · obtain ⟨b, hb⟩ : ∃ b, storedRow R tbl m (fold p.column) = .blob b := stored_key_blob h hp ha
    rw [hb] at hst
    cases hst
  · exact hnull ⟨p, hp, ha, v, hv, (stored_key_null h hp hv ha).mp hst⟩

/-- No row has a key that is stored as NULL. -/
theorem not_hasKey_of_null (hnull : SomeKeyNull R m) (r : Row) : HasKey R tbl m r = false := by
  obtain ⟨p, hp, ha, v, hv, hbind⟩ := hnull
  by_contra hkey
  rw [Bool.not_eq_false, HasKey, Table.sameKey, Bool.and_eq_true, List.all_eq_true,
    htbl.primaryKey] at hkey
  obtain ⟨hmem, hk⟩ := mem_keyProperties.mp hp
  have hcol := hkey.2 p.column (mem_getPrimaryKeys.mpr ⟨p, hmem, hk, rfl⟩)
  rw [(stored_key_null h hp hv ha).mpr hbind, Value.equals_null_left] at hcol
  cases hcol

end Key

/-! ### The rows after the call -/

/-- Where at most one element has the property and some element has it, one has. -/
theorem filter_singleton {α : Type} {P : α → Bool} {l : List α} (hlen : (l.filter P).length ≤ 1)
    (hsome : l.any P = true) : ∃ x, l.filter P = [x] ∧ P x = true := by
  obtain ⟨y, hy, hP⟩ := List.any_eq_true.mp hsome
  have hmem : y ∈ l.filter P := List.mem_filter.mpr ⟨hy, hP⟩
  obtain ⟨x, hx⟩ := List.length_eq_one_iff.mp (le_antisymm hlen (List.length_pos_of_mem hmem))
  exact ⟨x, hx, (List.mem_filter.mp (by rw [hx]; simp)).2⟩

section After

variable (hself : HasKey R tbl m (storedRow R tbl m) = true)

include hself in
/-- A row appended where none had the key. -/
theorem StoresModel.appended (hnone : tbl.rows.any (HasKey R tbl m) = false) :
    StoresModel R tbl m (tbl.rows ++ [storedRow R tbl m]) := by
  have hfree : tbl.rows.filter (HasKey R tbl m) = [] := by
    rw [List.filter_eq_nil_iff]
    exact List.any_eq_false.mp hnone
  refine ⟨storedRow R tbl m, ?_, fun _ _ => rfl, ?_⟩
  · simp [hfree, hself]
  · simp [hself]

/-- The row that has the key stays, where there is nothing but the key. -/
theorem StoresModel.kept (hlen : (tbl.rows.filter (HasKey R tbl m)).length ≤ 1)
    (hsome : tbl.rows.any (HasKey R tbl m) = true) (hfields : fieldProperties m = []) :
    StoresModel R tbl m tbl.rows := by
  obtain ⟨r, hr, -⟩ := filter_singleton hlen hsome
  exact ⟨r, hr, by simp [hfields], rfl⟩

omit hself in
/-- Changed rows that keep their keys: one has the key, as one had. -/
theorem filter_changed (hlen : (tbl.rows.filter (HasKey R tbl m)).length ≤ 1)
    (hsome : tbl.rows.any (HasKey R tbl m) = true) {f : Row → Row}
    (hkey : ∀ r, HasKey R tbl m (f r) = HasKey R tbl m r) :
    ∃ r, (tbl.rows.map fun r => if HasKey R tbl m r then f r else r).filter (HasKey R tbl m) =
      [f r] := by
  have hsame : ∀ r, HasKey R tbl m (if HasKey R tbl m r then f r else r) = HasKey R tbl m r := by
    intro r
    split
    · exact hkey r
    · rfl
  obtain ⟨r, hr, hrkey⟩ := filter_singleton hlen hsome
  refine ⟨r, ?_⟩
  rw [List.filter_map, Function.comp_def, funext hsame, hr, List.map_singleton, if_pos hrkey]

/-- The row that has the key is changed, and keeps it. -/
theorem StoresModel.changed (hlen : (tbl.rows.filter (HasKey R tbl m)).length ≤ 1)
    (hsome : tbl.rows.any (HasKey R tbl m) = true) {f : Row → Row}
    (hkey : ∀ r, HasKey R tbl m (f r) = HasKey R tbl m r)
    (hf : ∀ r, ∀ p ∈ fieldProperties m, f r (fold p.column) = storedRow R tbl m (fold p.column)) :
    StoresModel R tbl m (tbl.rows.map fun r => if HasKey R tbl m r then f r else r) := by
  obtain ⟨r, hr⟩ := filter_changed hlen hsome hkey
  refine ⟨f r, hr, hf r, ?_⟩
  have hsame : ∀ r, HasKey R tbl m (if HasKey R tbl m r then f r else r) = HasKey R tbl m r := by
    intro r
    split
    · exact hkey r
    · rfl
  rw [List.filter_map, Function.comp_def]
  simp only [hsame]
  refine (List.map_congr_left fun s hs => ?_).trans (List.map_id _)
  have hs := (List.mem_filter.mp hs).2
  rw [if_neg (by simpa using hs), id]

end After

/-! ### The two branches -/

theorem upsert_run (R : Runtime) (m : Model) (db : Db) :
    insertToDBWithModelUpdate R m true db = (isExistsWithModel R m >>= fun isExists =>
      if isExists then executeBuilt R (createUpdateSQL R m none none)
      else insertToDBWithModelReplace R m false) db := rfl

theorem upsert_update (hexists : isExistsWithModel R m db = (.ok true, db)) :
    insertToDBWithModelUpdate R m true db = executeBuilt R (createUpdateSQL R m none none) db := by
  rw [upsert_run, Action.bind_ok hexists, if_pos rfl]

theorem upsert_insert (hexists : isExistsWithModel R m db = (.ok false, db)) :
    insertToDBWithModelUpdate R m true db = insertToDBWithModelReplace R m false db := by
  rw [upsert_run, Action.bind_ok hexists, if_neg (by simp)]

theorem upsert_error {e : Fault} (hexists : isExistsWithModel R m db = (.error e, db)) :
    insertToDBWithModelUpdate R m true db = (.error e, db) := by
  rw [upsert_run, Action.bind_error hexists]

/-- An insert of some bindings appends their row, unless some row has its key. -/
theorem insertText_run {l : List (String × Obj)} (hT : Name T) (hdb : db (fold T) = some tbl)
    (hne : l ≠ []) (hn : ∀ e ∈ l, Name e.1) (hhas : ∀ e ∈ l, tbl.has e.1 = true) {built}
    (hbuilt : built = .ok (insertText T false (.of l))) :
    executeBuilt R built db =
      (.ok true, Function.update db (fold T) (some { tbl with
        rows := if tbl.rows.any (tbl.sameKey (rowOf R tbl l)) then tbl.rows
          else tbl.rows ++ [rowOf R tbl l] })) := by
  obtain ⟨sql, hsql, hprep⟩ := prepare_insert hT false hne hn
  rw [hsql] at hbuilt
  rw [executeBuilt_some hbuilt]
  refine executeUpdate_done hprep (by simp [Sql.Stmt.params]) (Sql.onTable_of_some hdb ?_)
  have hall : ((l.map (·.1)).all tbl.has) = true := by
    rw [List.all_eq_true]
    intro c hc
    obtain ⟨e, he, rfl⟩ := List.mem_map.mp hc
    exact hhas e he
  have hrow : Sql.newRow R.conv tbl (l.map (·.1)) ((l.map (·.2)).map (bindObject R)) =
      rowOf R tbl l := by
    rw [rowOf, List.map_map]
    rfl
  simp only [Sql.insertRow, hall, hrow, if_true]
  show (if tbl.rows.any (tbl.sameKey (rowOf R tbl l)) = true then some tbl else _) = _
  split
  · rfl
  · rfl

section Branches

variable (h : m.cls.Valid T) (hA : AllBacked m.cls.chain (properties m.cls.chain))
  (hdb : db (fold T) = some tbl)
include h hA hdb

/-- The insert appends the row of the model, unless some row has its key. -/
theorem insert_run (htbl : TableOf m.cls tbl) (hst : Storable m)
    (hne : insertBindings R m (properties m.cls.chain) ≠ []) :
    insertToDBWithModelReplace R m false db =
      (.ok true, Function.update db (fold T) (some { tbl with
        rows := if tbl.rows.any (HasKey R tbl m) then tbl.rows
          else tbl.rows ++ [storedRow R tbl m] })) := by
  have hown : Option.or none m.cls.getTableName = some T := h.table
  refine insertText_run h.name hdb hne (fun e he => ?_) (fun e he => ?_)
    (createInsertSQL_run (R := R) false hown hA)
  · obtain ⟨d, hd, hde⟩ := hst.insertBindings he
    exact hde ▸ stored_names h d hd
  · obtain ⟨d, hd, hde⟩ := hst.insertBindings he
    exact hde ▸ htbl.has d hd

/-- An insert that names a column the table lacks is rejected. -/
theorem insert_rejected (hp : p ∈ properties m.cls.chain) (hcol : isColumn p.name = true)
    (hv : m.value p.column ≠ none) (hno : tbl.has p.column = false) :
    insertToDBWithModelReplace R m false db = (.ok false, db) := by
  have hown : Option.or none m.cls.getTableName = some T := h.table
  obtain ⟨v, hv⟩ := Option.ne_none_iff_exists'.mp hv
  have hmem : (p.column, p.encode R v) ∈ insertBindings R m (properties m.cls.chain) :=
    mem_insertBindings.mpr ⟨p, hp, hcol, rfl, v, hv, rfl⟩
  have hrun := createInsertSQL_run (R := R) false hown hA
  rw [insertToDBWithModelReplace]
  by_cases hn : ∀ e ∈ insertBindings R m (properties m.cls.chain), Name e.1
  · obtain ⟨sql, hsql, hprep⟩ := prepare_insert h.name false (List.ne_nil_of_mem hmem) hn
    rw [hsql] at hrun
    rw [executeBuilt_some hrun]
    refine executeUpdate_failed hprep (by simp [Sql.Stmt.params]) (Sql.onTable_of_none hdb ?_)
    rw [Sql.insertRow, if_neg]
    intro hall
    have hhas := List.all_eq_true.mp hall p.column (List.mem_map.mpr ⟨_, hmem, rfl⟩)
    rw [hno] at hhas
    cases hhas
  · -- some column is no name: there is no statement
    cases hsql : insertText T false (.of (insertBindings R m (properties m.cls.chain))) with
    | none =>
        rw [hsql] at hrun
        exact executeBuilt_none hrun db
    | some s =>
        obtain ⟨sql, values⟩ := s
        rw [hsql] at hrun
        rw [executeBuilt_some hrun]
        exact executeUpdate_refused
          (prepare_insert_none h.name false (insertBindings_word hA) hn hsql)
          (insertText_refused h.name false (insertBindings_word hA) hn hsql)

end Branches

/-! ### The updated row -/

/-- The row after the update of the model. -/
def updatedRow (R : Runtime) (tbl : Table) (m : Model) (r : Row) : Row :=
  assign R.conv tbl ((updateBindings m (properties m.cls.chain)).map (·.1))
    ((updateBindings m (properties m.cls.chain)).map fun e => bindObject R e.2) r

theorem mem_updateBindings_fields (hst : Storable m) {e : String × Obj} :
    e ∈ updateBindings m (properties m.cls.chain) ↔
      ∃ p ∈ fieldProperties m, p.column = e.1 ∧ m.value p.column = some e.2 := by
  obtain ⟨c, w⟩ := e
  rw [mem_updateBindings]
  constructor
  · rintro ⟨⟨p, hp, hcol, hkey, rfl⟩, hv⟩
    have hstored := hst p hp hcol (by simp [hv])
    exact ⟨p, mem_fieldProperties.mpr ⟨hp, hstored, hkey⟩, rfl, hv⟩
  · rintro ⟨p, hp, rfl, hv⟩
    obtain ⟨hmem, hstored, hkey⟩ := mem_fieldProperties.mp hp
    exact ⟨⟨p, hmem, (isStored_iff.mp hstored).1, hkey, rfl⟩, hv⟩

section Updated

variable (h : m.cls.Valid T)
include h

/-- Two fields, or a field and a key, do not share a column. -/
theorem field_eq_of_fold {q : Property} (hp : p ∈ fieldProperties m)
    (hq : q ∈ properties m.cls.chain) (hqcol : isColumn q.name = true)
    (hfold : fold p.column = fold q.column) : p = q := by
  obtain ⟨hmem, hstored, -⟩ := mem_fieldProperties.mp hp
  exact h.eq_of_fold hmem hq (usesColumn_of_column (isStored_iff.mp hstored).1)
    (usesColumn_of_column hqcol) hfold

/-- A field is a column of the table. -/
theorem field_stored (hp : p ∈ fieldProperties m) :
    ∃ t, p.columnType = some t ∧ (p.column, t) ∈ storedColumns m.cls.chain ∧ Name p.column := by
  obtain ⟨hmem, hstored, -⟩ := mem_fieldProperties.mp hp
  obtain ⟨hcol, t, ht⟩ := isStored_iff.mp hstored
  exact ⟨t, ht, stored_mem hmem hcol ht, h.columns p hmem hstored⟩

theorem updatedRow_key (hst : Storable m) {q : Property} (hq : q ∈ keyProperties m) (r : Row) :
    updatedRow R tbl m r (fold q.column) = r (fold q.column) := by
  refine Sql.assign_other (fun c hc => ?_) r
  obtain ⟨e, he, rfl⟩ := List.mem_map.mp hc
  obtain ⟨p, hp, hpe, -⟩ := (mem_updateBindings_fields hst).mp he
  obtain ⟨hmem, hkey⟩ := mem_keyProperties.mp hq
  rw [← hpe]
  intro hfold
  -- a field that is the key
  obtain rfl := field_eq_of_fold h hp hmem (h.key_column hmem hkey) hfold
  rw [(mem_fieldProperties.mp hp).2.2] at hkey
  cases hkey

theorem hasKey_updatedRow (hst : Storable m) (htbl : TableOf m.cls tbl) (r : Row) :
    HasKey R tbl m (updatedRow R tbl m r) = HasKey R tbl m r := by
  rw [HasKey, HasKey, Table.sameKey_comm, Table.sameKey_comm tbl _ r]
  refine Table.sameKey_congr (fun c hc => ?_) _
  rw [htbl.primaryKey] at hc
  obtain ⟨q, hq, hkey, rfl⟩ := mem_getPrimaryKeys.mp hc
  exact updatedRow_key h hst (mem_keyProperties.mpr ⟨hq, hkey⟩) r

/-- A field that is nil keeps its old value. -/
theorem updatedRow_nil (hst : Storable m) (hp : p ∈ fieldProperties m)
    (hv : m.value p.column = none) (r : Row) :
    updatedRow R tbl m r (fold p.column) = r (fold p.column) := by
  refine Sql.assign_other (fun c hc => ?_) r
  obtain ⟨e, he, rfl⟩ := List.mem_map.mp hc
  obtain ⟨q, hq, hqe, hqv⟩ := (mem_updateBindings_fields hst).mp he
  rw [← hqe]
  intro hfold
  obtain ⟨hqmem, hqst, -⟩ := mem_fieldProperties.mp hq
  obtain rfl := field_eq_of_fold h hp hqmem (isStored_iff.mp hqst).1 hfold.symm
  rw [hv] at hqv
  cases hqv

/-- A field with a value gets the value itself. -/
theorem updatedRow_value (hst : Storable m) (hp : p ∈ fieldProperties m)
    (hv : m.value p.column = some v) (r : Row) :
    updatedRow R tbl m r (fold p.column) =
      (tbl.affinity p.column).apply R.conv (bindObject R v) := by
  have hmem : (p.column, bindObject R v) ∈
      (updateBindings m (properties m.cls.chain)).map fun e => (e.1, bindObject R e.2) :=
    List.mem_map.mpr ⟨(p.column, v), (mem_updateBindings_fields hst).mpr ⟨p, hp, rfl, hv⟩, rfl⟩
  have hassign : assign R.conv tbl _ _ r (fold p.column) = _ := Sql.assign_mem hmem ?_ r
  · rw [← hassign, updatedRow, List.map_map, List.map_map]
    rfl
  · intro x hx hfold
    obtain ⟨⟨c, w⟩, he, rfl⟩ := List.mem_map.mp hx
    obtain ⟨q, hq, rfl, hqv⟩ := (mem_updateBindings_fields hst).mp he
    obtain ⟨hqmem, hqst, -⟩ := mem_fieldProperties.mp hq
    obtain rfl := field_eq_of_fold h hp hqmem (isStored_iff.mp hqst).1 hfold.symm
    rw [Option.some.inj (hqv.symm.trans hv)]

/-- What the insert stores for a field. -/
theorem stored_field (hp : p ∈ fieldProperties m) :
    storedRow R tbl m (fold p.column) = ((m.value p.column).map fun v =>
      (tbl.affinity p.column).apply R.conv (bindObject R (p.encode R v))).getD .null := by
  obtain ⟨hmem, hstored, -⟩ := mem_fieldProperties.mp hp
  exact storedRow_column h hmem (isStored_iff.mp hstored).1

/-- **An updated field** holds what the insert stores, when it has a value that is not archived. -/
theorem updatedRow_plain (hst : Storable m) (hp : p ∈ fieldProperties m)
    (hv : m.value p.column = some v) (ha : ¬ Archived m p) (r : Row) :
    updatedRow R tbl m r (fold p.column) = storedRow R tbl m (fold p.column) := by
  rw [updatedRow_value h hst hp hv, stored_field h hp, hv, Option.map_some, Option.getD_some,
    encode_of_not_archived hv ha]

/-- An archived field does not hold it. -/
theorem updatedRow_archived (hst : Storable m) (htbl : TableOf m.cls tbl)
    (hp : p ∈ fieldProperties m) (ha : Archived m p) (r : Row) :
    updatedRow R tbl m r (fold p.column) ≠ storedRow R tbl m (fold p.column) := by
  obtain ⟨v, hv, hblob, hdata⟩ := ha
  obtain ⟨t, ht, hmem, -⟩ := field_stored h hp
  obtain rfl : t = "BLOB" := Option.some.inj (ht.symm.trans hblob)
  rw [updatedRow_value h hst hp hv, stored_field h hp, hv, Option.map_some, Option.getD_some,
    Property.encode, if_pos ⟨hblob, hdata⟩, htbl.affinity_blob hmem]
  exact bindObject_ne_blob R hdata _

end Updated

/-! ### The update -/

section Update

variable (h : m.cls.Valid T) (hK : KeysBacked m.cls.chain)
  (hA : AllBacked m.cls.chain (properties m.cls.chain)) (hk : keyBindings m ≠ [])
include h hK hA hk

/-- The update changes the addressed rows. -/
theorem update_done (htbl : TableOf m.cls tbl) (hdb : db (fold T) = some tbl) (hst : Storable m)
    (hne : updateBindings m (properties m.cls.chain) ≠ []) :
    executeBuilt R (createUpdateSQL R m none none) db =
      (.ok true, Function.update db (fold T) (some { tbl with
        rows := tbl.rows.map fun r =>
          if Addressed R tbl m r then updatedRow R tbl m r else r })) := by
  have hcolumns : ∀ s ∈ (updateBindings m (properties m.cls.chain)).map (·.1),
      ∃ p ∈ fieldProperties m, p.column = s := by
    intro s hs
    obtain ⟨e, he, rfl⟩ := List.mem_map.mp hs
    obtain ⟨p, hp, hpe, -⟩ := (mem_updateBindings_fields hst).mp he
    exact ⟨p, hp, hpe⟩
  have hnames : ∀ s ∈ (updateBindings m (properties m.cls.chain)).map (·.1), Name s := by
    intro s hs
    obtain ⟨p, hp, rfl⟩ := hcolumns s hs
    obtain ⟨-, -, -, hn⟩ := field_stored h hp
    exact hn
  have hhas : ∀ s ∈ (updateBindings m (properties m.cls.chain)).map (·.1), tbl.has s = true := by
    intro s hs
    obtain ⟨p, hp, rfl⟩ := hcolumns s hs
    obtain ⟨t, -, hmem, -⟩ := field_stored h hp
    have hcol := htbl.has (p.column, t) hmem
    exact hcol
  have hkeys : ∀ s ∈ (updateBindings m (properties m.cls.chain)).map (·.1),
      ∀ c ∈ tbl.primaryKey, fold s ≠ fold c := by
    intro s hs c hc hfold
    obtain ⟨p, hp, rfl⟩ := hcolumns s hs
    rw [htbl.primaryKey] at hc
    obtain ⟨q, hq, hkey, rfl⟩ := mem_getPrimaryKeys.mp hc
    obtain rfl := field_eq_of_fold h hp hq (h.key_column hq hkey) hfold
    rw [(mem_fieldProperties.mp hp).2.2] at hkey
    cases hkey
  have hbuilt := createUpdateSQL_run (R := R) (T := T) hA hK hk
  rw [createUpdateSQL, createUpdateSQLWithModelAndTableClass, h.table, executeBuilt_some hbuilt]
  refine executeUpdate_done (prepare_update h.name (by simpa using hne) hnames
    (keyText_isClause (keyBindings_names h))) ?_ (Sql.onTable_of_some hdb ?_)
  · simp [Sql.Stmt.params, Function.comp_def, Sql.Atom.params]
  · have hvalues : ((updateBindings m (properties m.cls.chain)).map (·.2)).map (bindObject R) =
        (updateBindings m (properties m.cls.chain)).map fun e => bindObject R e.2 := List.map_map
    rw [List.map_append, List.take_left' (by simp), List.drop_left' (by simp), hvalues,
      Sql.updateRows_of_keys htbl.unique hhas (keyBindings_has h htbl _) hkeys]
    rfl

/-- An update of nothing is no statement. -/
theorem update_nothing (hnil : updateBindings m (properties m.cls.chain) = []) :
    executeBuilt R (createUpdateSQL R m none none) db = (.ok false, db) := by
  have hbuilt := createUpdateSQL_run (R := R) (T := T) hA hK hk
  rw [createUpdateSQL, createUpdateSQLWithModelAndTableClass, h.table, executeBuilt_some hbuilt,
    hnil]
  exact executeUpdate_refused (prepare_update_nil h.name _)
    (update_refused h.name (by simp) (.inl rfl) (keyText_where _))

end Update

/-! ### Exact upserts -/

/-- A key bound as NULL addresses no row. -/
theorem KeyUnseen.addressed (hunseen : KeyUnseen R m) (r : Row) : Addressed R tbl m r = false := by
  obtain ⟨p, hp, v, hv, hnull⟩ := hunseen
  by_contra hadd
  have hcol := addressed_iff.mp (by simpa using hadd) p hp v hv
  rw [columnIs, hnull, Affinity.apply_null, Value.equals_null_right] at hcol
  cases hcol

section Exact

variable (hkeys : ∀ p ∈ keyProperties m, m.value p.column ≠ none)
include hkeys

theorem keyBindings_of_values (hpk : getPrimaryKeys m.cls.chain ≠ []) : keyBindings m ≠ [] := by
  obtain ⟨k, hk⟩ := List.exists_mem_of_ne_nil _ hpk
  obtain ⟨p, hmem, hkey, -⟩ := mem_getPrimaryKeys.mp hk
  have hp := mem_keyProperties.mpr ⟨hmem, hkey⟩
  obtain ⟨v, hv⟩ := Option.ne_none_iff_exists'.mp (hkeys p hp)
  exact List.ne_nil_of_mem (mem_keyBindings.mpr ⟨p, hp, rfl, hv⟩ : (p.column, v) ∈ _)

variable (h : m.cls.Valid T)
include h

theorem insertBindings_of_values (hpk : getPrimaryKeys m.cls.chain ≠ []) :
    insertBindings R m (properties m.cls.chain) ≠ [] := by
  obtain ⟨e, he⟩ := List.exists_mem_of_ne_nil _ (keyBindings_of_values hkeys hpk)
  obtain ⟨p, hp, -, hv⟩ := mem_keyBindings.mp he
  obtain ⟨hmem, hkey⟩ := mem_keyProperties.mp hp
  exact List.ne_nil_of_mem (mem_insertBindings.mpr
    ⟨p, hmem, h.key_column hmem hkey, rfl, e.2, hv, rfl⟩ : (p.column, p.encode R e.2) ∈ _)

/-- **An exact upsert** stores the model. -/
theorem UpsertExact.stores (hexact : UpsertExact R m) : UpsertStores R T m := by
  intro tbl db htbl hdb
  have hpk := hexact.keys
  have hk := keyBindings_of_values hkeys hpk
  have hself := hasKey_of_stored h htbl hpk hexact.keysStored hkeys fun _ _ => rfl
  have hexists := isExists_run (R := R) h hdb hexact.keysBacked htbl hk
  have hinsert := insert_run (R := R) h hexact.allBacked hdb htbl hexact.storable
    (insertBindings_of_values hkeys h hpk)
  rcases hexact.fields with ⟨hplain, hne, hfields⟩ | ⟨hunseen, hnone⟩
  · -- the existence check finds the row with the key
    have hsame : Addressed R tbl m = HasKey R tbl m := funext fun r =>
      (hplain.addressed_eq h htbl).trans (hasKey_eq htbl hpk r).symm
    rw [hsame] at hexists
    cases hany : tbl.rows.any (HasKey R tbl m) with
    | false =>
        rw [hany] at hexists hinsert
        rw [upsert_insert hexists, hinsert]
        exact ⟨_, rfl, .appended hself hany⟩
    | true =>
        rw [hany] at hexists
        have hbindings : updateBindings m (properties m.cls.chain) ≠ [] := by
          obtain ⟨p, hp⟩ := List.exists_mem_of_ne_nil _ hne
          obtain ⟨⟨v, hv⟩, -⟩ := hfields p hp
          exact List.ne_nil_of_mem ((mem_updateBindings_fields hexact.storable).mpr
            ⟨p, hp, rfl, hv⟩ : (p.column, v) ∈ _)
        rw [upsert_update hexists,
          update_done h hexact.keysBacked hexact.allBacked hk htbl hdb hexact.storable hbindings,
          hsame]
        refine ⟨_, rfl, .changed (hasKey_unique htbl hpk) hany
          (hasKey_updatedRow h hexact.storable htbl) fun r p hp => ?_⟩
        obtain ⟨⟨v, hv⟩, ha⟩ := hfields p hp
        exact updatedRow_plain h hexact.storable hp hv ha r
  · -- it finds nothing, and the insert leaves the row that is there
    have hnever : tbl.rows.any (Addressed R tbl m) = false := by
      rw [List.any_eq_false]
      intro r _
      rw [hunseen.addressed]
      exact Bool.false_ne_true
    rw [hnever] at hexists
    rw [upsert_insert hexists, hinsert]
    cases hany : tbl.rows.any (HasKey R tbl m) with
    | false => exact ⟨_, rfl, .appended hself hany⟩
    | true => exact ⟨_, rfl, .kept (hasKey_unique htbl hpk) hany hnone⟩

end Exact

/-! ### Upserts that are not exact -/

section Inexact

variable (hstores : UpsertStores R T m)
include hstores

/-- The rows the call leaves store the model. -/
theorem UpsertStores.rows (htbl : TableOf m.cls tbl) (hdb : db (fold T) = some tbl)
    {rows : List Row} (hrun : insertToDBWithModelUpdate R m true db =
      (.ok true, Function.update db (fold T) (some { tbl with rows := rows }))) :
    StoresModel R tbl m rows := by
  obtain ⟨rows', hrun', hst⟩ := hstores tbl db htbl hdb
  have heq := congrFun (Prod.mk.inj (hrun.symm.trans hrun')).2 (fold T)
  rw [Function.update_self, Function.update_self] at heq
  have hrows : rows = rows' := congrArg Table.rows (Option.some.inj heq)
  rwa [hrows]

/-- The call does not answer NO. -/
theorem UpsertStores.returns (htbl : TableOf m.cls tbl) (hdb : db (fold T) = some tbl) {db' : Db}
    {x : Except Fault Bool} (hrun : insertToDBWithModelUpdate R m true db = (x, db')) :
    x = .ok true := by
  obtain ⟨rows, hrun', -⟩ := hstores tbl db htbl hdb
  exact congrArg Prod.fst (hrun.symm.trans hrun')

/-- A row with the key, left alone, holds what the insert stores. -/
theorem UpsertStores.fields (htbl : TableOf m.cls tbl) (hdb : db (fold T) = some tbl)
    (hrun : insertToDBWithModelUpdate R m true db =
      (.ok true, Function.update db (fold T) (some { tbl with rows := [r] })))
    (hp : p ∈ fieldProperties m) (hkey : HasKey R tbl m r = true) :
    r (fold p.column) = storedRow R tbl m (fold p.column) := by
  obtain ⟨r', hr', hfields, -⟩ := hstores.rows htbl hdb hrun
  have hself : [r].filter (HasKey R tbl m) = [r] := by simp [hkey]
  obtain rfl : r' = r := List.singleton_inj.mp (hr'.symm.trans hself)
  exact hfields p hp

end Inexact

/-- The row that holds what the insert of the model stores, except in one column. -/
def alteredRow (R : Runtime) (m : Model) (c : String) (w : Value) : Row :=
  Function.update (storedRow R (createdTable m.cls) m) (fold c) w

/-- The row that holds the keys as the existence check binds them. -/
def rawRow (R : Runtime) (m : Model) : Row := rowOf R (createdTable m.cls) (keyBindings m)

section Tables

variable (h : m.cls.Valid T) (hpk : getPrimaryKeys m.cls.chain ≠ [])
  (hkeys : ∀ p ∈ keyProperties m, m.value p.column ≠ none)
include h

/-- The row of the keys as they are bound is addressed. -/
theorem addressed_rawRow (hseen : ¬ KeyUnseen R m) (r : Row) :
    Addressed R (rowTable m.cls r) m (rawRow R m) = true := by
  rw [addressed_iff]
  intro p hp v hv
  obtain ⟨hmem, hkey⟩ := mem_keyProperties.mp hp
  have hfind : (keyBindings m).find? (fun e => fold e.1 = fold p.column) = some (p.column, v) := by
    refine find_of_only (mem_keyBindings.mpr ⟨p, hp, rfl, hv⟩) (by simp) ?_
    rintro ⟨c, w⟩ he hfold
    obtain ⟨q, hq, rfl, hw⟩ := mem_keyBindings.mp he
    obtain ⟨hqmem, hqkey⟩ := mem_keyProperties.mp hq
    obtain rfl := h.eq_of_fold hqmem hmem (usesColumn_of_column (h.key_column hqmem hqkey))
      (usesColumn_of_column (h.key_column hmem hkey)) (of_decide_eq_true hfold)
    have hwv : w = v := Option.some.inj (hw.symm.trans hv)
    rw [hwv]
  obtain ⟨t, -, hd⟩ := key_stored h hp
  rw [columnIs, rawRow, rowOf_eq, hfind]
  exact Sql.equals_stored ((created_tableOf h).affinity_ne hd) fun hnull =>
    hseen ⟨p, hp, v, hv, hnull⟩

include hpk hkeys

/-- Altered outside the key, the row has the key of the model. -/
theorem hasKey_alteredRow (hnull : ¬ SomeKeyNull R m) (hp : p ∈ fieldProperties m) (w : Value)
    (r : Row) : HasKey R (rowTable m.cls r) m (alteredRow R m p.column w) = true := by
  refine hasKey_of_stored h (rowTable_tableOf h r) hpk hnull hkeys fun q hq => ?_
  refine Function.update_of_ne (fun hfold => ?_) _ _
  obtain ⟨hmem, hkey⟩ := mem_keyProperties.mp hq
  obtain rfl := field_eq_of_fold h hp hmem (h.key_column hmem hkey) hfold.symm
  rw [(mem_fieldProperties.mp hp).2.2] at hkey
  cases hkey

end Tables

/-- The database with one table. -/
def tableDb (T : String) (tbl : Table) : Db := Function.update (fun _ => none) (fold T) (some tbl)

theorem tableDb_self (T : String) (tbl : Table) : tableDb T tbl (fold T) = some tbl :=
  Function.update_self ..

/-- Over a table whose one row has the plain keys of the model, the call updates the row. -/
theorem upsert_row (h : m.cls.Valid T) (hpk : getPrimaryKeys m.cls.chain ≠ [])
    (hkeys : ∀ p ∈ keyProperties m, m.value p.column ≠ none) (hK : KeysBacked m.cls.chain)
    (hA : AllBacked m.cls.chain (properties m.cls.chain)) (hst : Storable m)
    (hplain : KeysPlain m) (hkey : HasKey R (rowTable m.cls r) m r = true)
    (hne : updateBindings m (properties m.cls.chain) ≠ []) :
    insertToDBWithModelUpdate R m true (tableDb T (rowTable m.cls r)) =
      (.ok true, Function.update (tableDb T (rowTable m.cls r)) (fold T)
        (some { rowTable m.cls r with rows := [updatedRow R (rowTable m.cls r) m r] })) := by
  have htbl : TableOf m.cls (rowTable m.cls r) := rowTable_tableOf h r
  have hk := keyBindings_of_values hkeys hpk
  have hadd : Addressed R (rowTable m.cls r) m r = true := by
    rw [hplain.addressed_eq h htbl, ← hasKey_eq htbl hpk, hkey]
  have hexists := isExists_run (R := R) h (tableDb_self T (rowTable m.cls r)) hK htbl hk
  have hany : (rowTable m.cls r).rows.any (Addressed R (rowTable m.cls r) m) = true := by
    rw [rowTable, List.any_cons, List.any_nil, Bool.or_false]
    exact hadd
  rw [hany] at hexists
  have hrows : ((rowTable m.cls r).rows.map fun s => if Addressed R (rowTable m.cls r) m s then
      updatedRow R (rowTable m.cls r) m s else s) = [updatedRow R (rowTable m.cls r) m r] := by
    show [if Addressed R (rowTable m.cls r) m r then _ else _] = _
    rw [if_pos hadd]
  rw [upsert_update hexists, update_done h hK hA hk htbl (tableDb_self T _) hst hne, hrows]

section Converse

variable (h : m.cls.Valid T) (hstores : UpsertStores R T m)
include h hstores

theorem UpsertStores.keys : getPrimaryKeys m.cls.chain ≠ [] := by
  obtain ⟨rows, -, r, hr, -⟩ := hstores _ _ (created_tableOf h) (tableDb_self T _)
  have hkey : HasKey R (createdTable m.cls) m r = true := (List.mem_filter.mp (by rw [hr]; simp)).2
  intro hnil
  rw [HasKey, Table.sameKey, createdTable, hnil] at hkey
  cases hkey

theorem UpsertStores.keysStored : ¬ SomeKeyNull R m := by
  obtain ⟨rows, -, r, hr, -⟩ := hstores _ _ (created_tableOf h) (tableDb_self T _)
  have hkey : HasKey R (createdTable m.cls) m r = true := (List.mem_filter.mp (by rw [hr]; simp)).2
  intro hnull
  rw [not_hasKey_of_null h (created_tableOf h) hnull] at hkey
  cases hkey

theorem UpsertStores.keysBacked : KeysBacked m.cls.chain := by
  by_contra hK
  have hexists : isExistsWithModel R m (tableDb T (createdTable m.cls)) =
      (.error .invalidArgument, tableDb T (createdTable m.cls)) := by
    rw [isExistsWithModel, createSelectSQLWithPrimaryKey, h.table,
      hasRow_error (createSelectSQL_error hK)]
  cases hstores.returns (created_tableOf h) (tableDb_self T _) (upsert_error hexists)

variable (hkeys : ∀ p ∈ keyProperties m, m.value p.column ≠ none)
include hkeys

/-- In an empty table the call inserts. -/
theorem UpsertStores.inserts :
    insertToDBWithModelUpdate R m true (tableDb T (createdTable m.cls)) =
      insertToDBWithModelReplace R m false (tableDb T (createdTable m.cls)) := by
  refine upsert_insert ?_
  rw [isExists_run h (tableDb_self T _) (hstores.keysBacked h) (created_tableOf h)
    (keyBindings_of_values hkeys (hstores.keys h))]
  rfl

theorem UpsertStores.allBacked : AllBacked m.cls.chain (properties m.cls.chain) := by
  have hown : Option.or none m.cls.getTableName = some T := h.table
  by_contra hA
  have hrun := hstores.inserts h hkeys
  rw [insertToDBWithModelReplace,
    executeBuilt_error (createInsertSQL_error (R := R) false hown hA)] at hrun
  cases hstores.returns (created_tableOf h) (tableDb_self T _) hrun

theorem UpsertStores.storable : Storable m := by
  intro p hp hcol hv
  by_contra hno
  have hhas := created_has_not h hp hcol (Bool.not_eq_true _ ▸ hno)
  have hrun := hstores.inserts h hkeys
  rw [insert_rejected h (hstores.allBacked h hkeys) (tableDb_self T _) hp hcol hv hhas] at hrun
  cases hstores.returns (created_tableOf h) (tableDb_self T _) hrun

/-- The existence check on a table of one row. -/
theorem UpsertStores.exists_row (r : Row) :
    isExistsWithModel R m (tableDb T (rowTable m.cls r)) =
      (.ok (Addressed R (rowTable m.cls r) m r), tableDb T (rowTable m.cls r)) := by
  rw [isExists_run h (tableDb_self T _) (hstores.keysBacked h) (rowTable_tableOf h r)
    (keyBindings_of_values hkeys (hstores.keys h))]
  simp [rowTable]

/-- A row can be addressed only where there is something to update. -/
theorem UpsertStores.updates (hadd : Addressed R (rowTable m.cls r) m r = true) :
    updateBindings m (properties m.cls.chain) ≠ [] := by
  intro hnil
  have hexists := hstores.exists_row h hkeys r
  rw [hadd] at hexists
  have hrun := upsert_update hexists
  rw [update_nothing h (hstores.keysBacked h) (hstores.allBacked h hkeys)
    (keyBindings_of_values hkeys (hstores.keys h)) hnil] at hrun
  cases hstores.returns (rowTable_tableOf h r) (tableDb_self T _) hrun

/-- With an archived key there is nothing but keys: the insert would leave the row of the key. -/
theorem UpsertStores.fields_nil (ha : ∃ q ∈ keyProperties m, Archived m q) :
    fieldProperties m = [] := by
  by_contra hne
  obtain ⟨p, hp⟩ := List.exists_mem_of_ne_nil _ hne
  obtain ⟨q, hq, ha⟩ := ha
  obtain ⟨v, hv, hblob, hdata⟩ := id ha
  obtain ⟨w, hw⟩ : ∃ w, w ≠ storedRow R (createdTable m.cls) m (fold p.column) := exists_ne _
  have htbl := rowTable_tableOf h (alteredRow R m p.column w)
  have hkey := hasKey_alteredRow h (hstores.keys h) hkeys (hstores.keysStored h) hp w
    (alteredRow R m p.column w)
  -- the row has the key of the model, and the existence check does not find it
  have hfree : fold q.column ≠ fold p.column := by
    intro hfold
    obtain ⟨hmem, hk⟩ := mem_keyProperties.mp hq
    obtain rfl := field_eq_of_fold h hp hmem (h.key_column hmem hk) hfold.symm
    rw [(mem_fieldProperties.mp hp).2.2] at hk
    cases hk
  have hold : ∃ b, alteredRow R m p.column w (fold q.column) = .blob b := by
    rw [alteredRow, Function.update_of_ne hfree]
    exact stored_key_blob h hq ha
  have hadd : Addressed R (rowTable m.cls (alteredRow R m p.column w)) m
      (alteredRow R m p.column w) = false := by
    by_contra hadd
    have hcol := addressed_iff.mp (by simpa using hadd) q hq v hv
    rw [columnIs_archived h hq htbl ha (.inr hold) hv] at hcol
    cases hcol
  have hexists := hstores.exists_row h hkeys (alteredRow R m p.column w)
  rw [hadd] at hexists
  have hrun := upsert_insert hexists
  rw [insert_run h (hstores.allBacked h hkeys) (tableDb_self T _) htbl (hstores.storable h hkeys)
    (insertBindings_of_values hkeys h (hstores.keys h))] at hrun
  have hany : (rowTable m.cls (alteredRow R m p.column w)).rows.any
      (HasKey R (rowTable m.cls (alteredRow R m p.column w)) m) = true := by
    simp [rowTable] at hkey ⊢
    exact hkey
  rw [if_pos hany] at hrun
  have hfield := hstores.fields htbl (tableDb_self T _) hrun hp hkey
  rw [alteredRow, Function.update_self] at hfield
  exact hw hfield

/-- With plain keys every field is plain: the update would leave it, or bind it raw. -/
theorem UpsertStores.field_plain (hplain : KeysPlain m) (hp : p ∈ fieldProperties m) :
    (∃ v, m.value p.column = some v) ∧ ¬ Archived m p := by
  let r := alteredRow R m p.column (.blob [])
  have htbl : TableOf m.cls (rowTable m.cls r) := rowTable_tableOf h r
  have hst := hstores.storable h hkeys
  have hkey : HasKey R (rowTable m.cls r) m r = true :=
    hasKey_alteredRow h (hstores.keys h) hkeys (hstores.keysStored h) hp _ _
  have hadd : Addressed R (rowTable m.cls r) m r = true := by
    rw [hplain.addressed_eq h htbl, ← hasKey_eq htbl (hstores.keys h), hkey]
  have hrun := upsert_row h (hstores.keys h) hkeys (hstores.keysBacked h)
    (hstores.allBacked h hkeys) hst hplain hkey (hstores.updates h hkeys hadd)
  have hfield := hstores.fields htbl (tableDb_self T _) hrun hp
    ((hasKey_updatedRow h hst htbl r).trans hkey)
  constructor
  · refine Option.ne_none_iff_exists'.mp fun hnil => ?_
    rw [updatedRow_nil h hst hp hnil, stored_field h hp, hnil] at hfield
    have hold : r (fold p.column) = .blob [] := Function.update_self ..
    rw [hold] at hfield
    cases hfield
  · intro ha
    exact updatedRow_archived h hst htbl hp ha r hfield

/-- An upsert that stores the model is exact. -/
theorem UpsertStores.exact : UpsertExact R m where
  keys := hstores.keys h
  keysBacked := hstores.keysBacked h
  allBacked := hstores.allBacked h hkeys
  storable := hstores.storable h hkeys
  keysStored := hstores.keysStored h
  fields := by
    have hfields : ∀ r, Addressed R (rowTable m.cls r) m r = true → fieldProperties m ≠ [] := by
      intro r hadd
      obtain ⟨e, he⟩ := List.exists_mem_of_ne_nil _ (hstores.updates h hkeys hadd)
      obtain ⟨p, hp, -⟩ := (mem_updateBindings_fields (hstores.storable h hkeys)).mp he
      exact List.ne_nil_of_mem hp
    by_cases ha : ∃ q ∈ keyProperties m, Archived m q
    · refine .inr ⟨?_, hstores.fields_nil h hkeys ha⟩
      by_contra hseen
      exact hfields _ (addressed_rawRow h hseen _) (hstores.fields_nil h hkeys ha)
    · have hplain : KeysPlain m := fun p hp =>
        ⟨Option.ne_none_iff_exists'.mp (hkeys p hp), fun harch => ha ⟨p, hp, harch⟩⟩
      have htbl := rowTable_tableOf h (storedRow R (createdTable m.cls) m)
      refine .inl ⟨hplain, hfields (storedRow R (createdTable m.cls) m) ?_,
        fun p hp => hstores.field_plain h hkeys hplain hp⟩
      rw [hplain.addressed_eq h htbl, ← hasKey_eq htbl (hstores.keys h)]
      exact hasKey_of_stored h htbl (hstores.keys h) (hstores.keysStored h) hkeys fun _ _ => rfl

end Converse

/-- **Update or insert** stores the whole model exactly when the update binds what the insert
stores, or none is made and none is needed. -/
theorem upsertStores_iff (R : Runtime) (h : m.cls.Valid T)
    (hkeys : ∀ p ∈ keyProperties m, m.value p.column ≠ none) :
    UpsertStores R T m ↔ UpsertExact R m :=
  ⟨fun hstores => hstores.exact h hkeys, fun hexact => hexact.stores hkeys h⟩

/-! ### The demo's users -/

/-- `User` of the demo, below `NBBaseDBTableModel`. -/
def userClass : ModelClass where
  chain :=
    [{ name := "User"
       properties :=
        [⟨"_pk_uid", "@\"NSString\"", "uid"⟩, ⟨"name", "@\"NSString\"", "name"⟩,
          ⟨"age", "d", "age"⟩]
       ivars := [⟨"_uid", "@\"NSString\""⟩, ⟨"_name", "@\"NSString\""⟩, ⟨"_age", "d"⟩] },
      { name := "NBBaseDBTableModel", properties := [], ivars := [] }]
  getTableName := some "tb_users"
  ivar_word := by decide

/-- A user of twenty, with a name or without. -/
def user (name : Option String) : Model := .ofIvars userClass fun key =>
  if key = "_uid" then some (.string "NSString" "1")
  else if key = "_name" then name.map (.string "NSString")
  else some (.number (.double (some (.finite 20))))

theorem userClass_valid : userClass.Valid "tb_users" where
  table := rfl
  name := by decide +kernel
  ordinary := by decide +kernel
  columns := by decide +kernel
  distinct := by decide +kernel
  keys := by decide +kernel
  stores := by decide +kernel

/-- No column of a user is a `BLOB`. -/
theorem user_plain (name : Option String) {p : Property} (hp : p ∈ properties userClass.chain) :
    ¬ Archived (user name) p := by
  have hblob : ∀ p ∈ properties userClass.chain, p.columnType ≠ some "BLOB" := by decide +kernel
  rintro ⟨v, -, hb, -⟩
  exact hblob p hp hb

theorem user_keys (name : Option String) :
    ∀ p ∈ keyProperties (user name), p = ⟨"_pk_uid", "@\"NSString\"", "uid"⟩ := by
  have hkeys : ∀ p ∈ properties userClass.chain, isPrimaryKey p.name = true →
      p = ⟨"_pk_uid", "@\"NSString\"", "uid"⟩ := by decide +kernel
  intro p hp
  obtain ⟨hmem, hkey⟩ := mem_keyProperties.mp hp
  exact hkeys p hmem hkey

theorem user_keysPlain (name : Option String) : KeysPlain (user name) := by
  intro p hp
  refine ⟨⟨.string "NSString" "1", ?_⟩, user_plain name (mem_keyProperties.mp hp).1⟩
  obtain rfl := user_keys name p hp
  have hkey : ∀ values : String → Option Obj,
      (Model.ofIvars userClass values).value "_uid" = values "_uid" := fun _ => rfl
  have hcol : (⟨"_pk_uid", "@\"NSString\"", "uid"⟩ : Property).column = "_uid" := by
    decide +kernel
  rw [hcol, user, hkey, if_pos rfl]

/-- The update of a user without a name leaves the name that is there. -/
theorem user_keeps_name :
    (∀ p ∈ keyProperties (user none), (user none).value p.column ≠ none) ∧
      ¬ UpsertStores demoRuntime "tb_users" (user none) := by
  have hkeys : ∀ p ∈ keyProperties (user none), (user none).value p.column ≠ none := by
    intro p hp
    obtain ⟨v, hv⟩ := (user_keysPlain none p hp).1
    simp [hv]
  refine ⟨hkeys, fun hstores => ?_⟩
  have hp : ⟨"name", "@\"NSString\"", "name"⟩ ∈ fieldProperties (user none) := by decide +kernel
  obtain ⟨⟨v, hv⟩, -⟩ := hstores.field_plain userClass_valid hkeys (user_keysPlain none) hp
  have hnil : (user none).value
      (⟨"name", "@\"NSString\"", "name"⟩ : Property).column = none := by decide +kernel
  rw [hnil] at hv
  cases hv

/-- A user with a name and an age is stored. -/
theorem named_user_stored : UpsertStores demoRuntime "tb_users" (user (some "Ann")) := by
  have hplain := user_keysPlain (some "Ann")
  have hvalues : ∀ p ∈ properties userClass.chain,
      ((user (some "Ann")).value p.column).isSome = true := by decide +kernel
  refine (upsertStores_iff demoRuntime userClass_valid fun p hp => ?_).mpr
    { keys := by decide +kernel
      keysBacked := by decide +kernel
      allBacked := by decide +kernel
      storable := ?_
      keysStored := ?_
      fields := .inl ⟨hplain, by decide +kernel, fun p hp => ?_⟩ }
  · obtain ⟨v, hv⟩ := (hplain p hp).1
    simp [hv]
  · have hall : ∀ p ∈ properties userClass.chain, p.isStored = true := by decide +kernel
    exact fun p hp _ _ => hall p hp
  · rintro ⟨p, hp, -, v, hv, hnull⟩
    obtain rfl := user_keys _ p hp
    have huid : (user (some "Ann")).value (⟨"_pk_uid", "@\"NSString\"", "uid"⟩ : Property).column =
        some (.string "NSString" "1") := by decide +kernel
    rw [huid] at hv
    obtain rfl := Option.some.inj hv
    cases hnull
  · have hmem := (mem_fieldProperties.mp hp).1
    exact ⟨Option.isSome_iff_exists.mp (hvalues p hmem), user_plain _ hmem⟩

end NBDataBase
