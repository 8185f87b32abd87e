import NBDataBase.Orm.Tables
import NBDataBase.Orm.Where

/-!
# Orm — addressing by the primary key

Which rows of its table the primary key clause of a model addresses.

* `Addressed`: the row satisfies the clause.  `KeyEquals`: every primary-key column of the row
  equals what the insert path stores for the model.
* `AddressesByKey`: over every table of written rows, the existence check, the delete and the
  update of the model act on the rows of which `KeyEquals` holds.
* `KeysExact`: every key is there and bound as it is stored, or no row can match in either way.
* `addressesByKey_iff`: the one exactly when the other.
-/

namespace NBDataBase
open Sql (fold Name Db Table Row Value Atom Word Affinity prepare satisfies)

variable {R : Runtime} {T : String} {m : Model} {cls : ModelClass} {tbl : Table} {db : Db} {r : Row}
  {p : Property} {v : Obj}

/-! ### Keys of a model -/

/-- The properties of the primary key. -/
def keyProperties (m : Model) : List Property :=
  (properties m.cls.chain).filter fun p => isPrimaryKey p.name

/-- The insert archives the value of the property. -/
def Archived (m : Model) (p : Property) : Prop :=
  ∃ v, m.value p.column = some v ∧ p.columnType = some "BLOB" ∧ v.isData = false

/-- Every key has a value, and none is archived. -/
def KeysPlain (m : Model) : Prop :=
  ∀ p ∈ keyProperties m, (∃ v, m.value p.column = some v) ∧ ¬ Archived m p

/-- Some key that is not archived has a value that is bound as NULL. -/
def SomeKeyNull (R : Runtime) (m : Model) : Prop :=
  ∃ p ∈ keyProperties m, ¬ Archived m p ∧
    ∃ v, m.value p.column = some v ∧ bindObject R v = .null

/-- Some key is archived, and some key is nil. -/
def ArchivedAndNil (m : Model) : Prop :=
  (∃ p ∈ keyProperties m, Archived m p) ∧ ∃ p ∈ keyProperties m, m.value p.column = none

/-- A value that is not archived is bound as it is. -/
theorem encode_of_not_archived (hv : m.value p.column = some v) (ha : ¬ Archived m p) :
    p.encode R v = v := by
  refine Property.encode_eq_self_iff.mpr fun hblob => ?_
  by_contra hdata
  exact ha ⟨v, hv, hblob, by simpa using hdata⟩

theorem mem_keyProperties :
    p ∈ keyProperties m ↔ p ∈ properties m.cls.chain ∧ isPrimaryKey p.name = true :=
  List.mem_filter

theorem mem_keyBindings {e : String × Obj} :
    e ∈ keyBindings m ↔ ∃ p ∈ keyProperties m, p.column = e.1 ∧ m.value p.column = some e.2 := by
  obtain ⟨c, w⟩ := e
  simp only [keyBindings, List.mem_filterMap, keyBinding, mem_keyProperties, and_assoc]
  refine exists_congr fun p => and_congr_right fun _ => ?_
  by_cases hk : isPrimaryKey p.name = true
  · simp only [hk, if_true, Option.map_eq_some_iff, Prod.mk.injEq, true_and]
    constructor
    · rintro ⟨v, hv, rfl, rfl⟩
      exact ⟨rfl, hv⟩
    · rintro ⟨rfl, hv⟩
      exact ⟨w, hv, rfl, rfl⟩
  · simp [hk]

/-! ### Addressed rows -/

section Rows

variable (R : Runtime) (tbl : Table) (m : Model) (r : Row)

/-- The row satisfies the primary key clause. -/
def Addressed : Bool :=
  satisfies R.conv tbl (Sql.bind (((keyBindings m).map (·.1)).map Atom.eq)
    (((keyBindings m).map (·.2)).map (bindObject R))) r

/-- Every primary-key column of the row equals what the insert path stores for the model. -/
def KeyEquals : Bool :=
  (getPrimaryKeys m.cls.chain).all fun k => (r (fold k)).equals (storedRow R tbl m (fold k))

end Rows

theorem addressed_eq :
    Addressed R tbl m r = (keyBindings m).all fun e => columnIs R tbl r e.1 e.2 := by
  have hparams : ∀ a ∈ (keyBindings m).map fun e => (Atom.eq e.1, [e.2]),
      a.2.length = a.1.params := by
    intro a ha
    obtain ⟨e, -, rfl⟩ := List.mem_map.mp ha
    rfl
  have hatoms : satisfies R.conv tbl _ r = _ := satisfies_atoms hparams
  simp only [List.map_map, List.flatMap_map, List.all_map, Function.comp_def,
    List.any_cons, List.any_nil, Bool.or_false, Atom.column] at hatoms
  rw [← hatoms, Addressed, List.map_map, List.map_map]
  congr 2
  induction keyBindings m with
  | nil => rfl
  | cons e es ih => simp [ih]

theorem addressed_iff :
    Addressed R tbl m r = true ↔ ∀ p ∈ keyProperties m, ∀ v, m.value p.column = some v →
      columnIs R tbl r p.column v = true := by
  rw [addressed_eq, List.all_eq_true]
  constructor
  · intro h p hp v hv
    exact h (p.column, v) (mem_keyBindings.mpr ⟨p, hp, rfl, hv⟩)
  · rintro h ⟨c, w⟩ he
    obtain ⟨p, hp, rfl, hv⟩ := mem_keyBindings.mp he
    exact h p hp w hv

theorem keyEquals_iff :
    KeyEquals R tbl m r = true ↔ ∀ p ∈ keyProperties m,
      (r (fold p.column)).equals (storedRow R tbl m (fold p.column)) = true := by
  rw [KeyEquals, List.all_eq_true]
  constructor
  · intro h p hp
    obtain ⟨hp, hk⟩ := mem_keyProperties.mp hp
    exact h p.column (mem_getPrimaryKeys.mpr ⟨p, hp, hk, rfl⟩)
  · intro h k hk
    obtain ⟨p, hp, hkey, rfl⟩ := mem_getPrimaryKeys.mp hk
    exact h p (mem_keyProperties.mpr ⟨hp, hkey⟩)

/-! ### What a key stores and what it is compared with -/

section Column

variable (h : m.cls.Valid T) (hp : p ∈ keyProperties m)
include h hp

/-- The stored value of a key. -/
theorem stored_key : storedRow R tbl m (fold p.column) = ((m.value p.column).map fun v =>
    (tbl.affinity p.column).apply R.conv (bindObject R (p.encode R v))).getD .null := by
  obtain ⟨hmem, hkey⟩ := mem_keyProperties.mp hp
  exact storedRow_column h hmem (h.key_column hmem hkey)

theorem stored_key_nil (hv : m.value p.column = none) :
    storedRow R tbl m (fold p.column) = .null := by
  rw [stored_key h hp, hv]
  rfl

/-- A key is a column of the table. -/
theorem key_stored : ∃ t, p.columnType = some t ∧ (p.column, t) ∈ storedColumns m.cls.chain := by
  obtain ⟨hmem, hkey⟩ := mem_keyProperties.mp hp
  obtain ⟨hcol, t, ht⟩ := isStored_iff.mp (h.keys p hmem hkey)
  exact ⟨t, ht, stored_mem hmem hcol ht⟩

/-- A key that is not archived is compared with what is stored for it. -/
theorem columnIs_plain (htbl : TableOf m.cls tbl) (hv : m.value p.column = some v)
    (ha : ¬ Archived m p) :
    columnIs R tbl r p.column v =
      (r (fold p.column)).equals (storedRow R tbl m (fold p.column)) := by
  obtain ⟨t, -, hmem⟩ := key_stored h hp
  have hne : tbl.affinity p.column ≠ .real := htbl.affinity_ne hmem
  rw [columnIs, Affinity.apply_ofComparison hne, stored_key h hp, hv, Option.map_some,
    Option.getD_some, encode_of_not_archived hv ha]

/-- A key that is not archived stores NULL exactly when it is bound as NULL. -/
theorem stored_key_null (hv : m.value p.column = some v) (ha : ¬ Archived m p) :
    storedRow R tbl m (fold p.column) = .null ↔ bindObject R v = .null := by
  rw [stored_key h hp, hv, Option.map_some, Option.getD_some, encode_of_not_archived hv ha,
    Affinity.apply_eq_null]

/-- An archived key stores a blob. -/
theorem stored_key_blob (ha : Archived m p) :
    ∃ b, storedRow R tbl m (fold p.column) = .blob b := by
  obtain ⟨v, hv, hblob, hdata⟩ := ha
  refine ⟨R.archivedData v, ?_⟩
  rw [stored_key h hp, hv, Option.map_some, Option.getD_some, Property.encode,
    if_pos ⟨hblob, hdata⟩]
  exact Affinity.apply_blob _ _

/-- A written row holds in a `BLOB` key a blob or NULL. -/
theorem written_blob (hr : Written R tbl m.cls T r) (ht : p.columnType = some "BLOB") :
    r (fold p.column) = .null ∨ ∃ b, r (fold p.column) = .blob b := by
  obtain ⟨m', hcls, -, rfl⟩ := hr.eq_storedRow h
  have h' : m'.cls.Valid T := hcls ▸ h
  have hp' : p ∈ keyProperties m' := by
    rw [keyProperties, hcls]
    exact hp
  cases hv : m'.value p.column with
  | none => exact .inl (stored_key_nil h' hp' hv)
  | some v =>
      by_cases hdata : v.isData = true
      · right
        cases v with
        | data b =>
            refine ⟨b, ?_⟩
            rw [stored_key h' hp', hv, Option.map_some, Option.getD_some, Property.encode,
              if_neg (by simp [Obj.isData])]
            exact Affinity.apply_blob _ _
        | _ => cases hdata
      · exact .inr (stored_key_blob h' hp' ⟨v, hv, ht, by simpa using hdata⟩)

/-- An archived key is found in no row that holds a blob or NULL. -/
theorem columnIs_archived (htbl : TableOf m.cls tbl) (ha : Archived m p)
    (hr : r (fold p.column) = .null ∨ ∃ b, r (fold p.column) = .blob b)
    (hv : m.value p.column = some v) : columnIs R tbl r p.column v = false := by
  obtain ⟨v', hv', hblob, hdata⟩ := ha
  obtain rfl : v' = v := Option.some.inj (hv'.symm.trans hv)
  obtain ⟨t, ht, hmem⟩ := key_stored h hp
  obtain rfl : t = "BLOB" := Option.some.inj (ht.symm.trans hblob)
  rw [columnIs, htbl.affinity_blob hmem]
  show (r (fold p.column)).equals (bindObject R v') = false
  rcases hr with hnull | ⟨b, hb⟩
  · rw [hnull, Value.equals_null_left]
  · rw [hb, Value.equals_comm]
    by_contra heq
    exact bindObject_ne_blob R hdata b (Value.equals_blob (by simpa using heq))

end Column

/-! ### When the two agree -/

/-- The keys are bound as they are stored, or no written row matches in either way. -/
def KeysAgree (R : Runtime) (m : Model) : Prop := KeysPlain m ∨ SomeKeyNull R m ∨ ArchivedAndNil m

/-- Plain keys address exactly the rows that have them. -/
theorem KeysPlain.addressed_eq (h : m.cls.Valid T) (htbl : TableOf m.cls tbl)
    (hplain : KeysPlain m) : Addressed R tbl m r = KeyEquals R tbl m r := by
  rw [Bool.eq_iff_iff, addressed_iff, keyEquals_iff]
  refine forall₂_congr fun p hp => ?_
  obtain ⟨⟨v, hv⟩, ha⟩ := hplain p hp
  rw [← columnIs_plain (r := r) h hp htbl hv ha]
  constructor
  · intro hall
    exact hall v hv
  · intro hcol w hw
    rwa [← Option.some.inj (hv.symm.trans hw)]

theorem addressed_eq_keyEquals (h : m.cls.Valid T) (htbl : TableOf m.cls tbl)
    (hagree : KeysAgree R m) (hr : Written R tbl m.cls T r) :
    Addressed R tbl m r = KeyEquals R tbl m r := by
  rcases hagree with hplain | ⟨p, hp, ha, v, hv, hnull⟩ | ⟨⟨p, hp, ha⟩, q, hq, hnil⟩
  · exact hplain.addressed_eq h htbl
  · rw [Bool.eq_iff_iff]
    -- the key stored as NULL equals nothing
    refine iff_of_false (fun hadd => ?_) fun heq => ?_
    · have hcol := addressed_iff.mp hadd p hp v hv
      rw [columnIs_plain h hp htbl hv ha, (stored_key_null h hp hv ha).mpr hnull,
        Value.equals_null_right] at hcol
      cases hcol
    · have hcol := keyEquals_iff.mp heq p hp
      rw [(stored_key_null h hp hv ha).mpr hnull, Value.equals_null_right] at hcol
      cases hcol
  · rw [Bool.eq_iff_iff]
    -- the archived key matches no written row, the nil one is stored as NULL
    refine iff_of_false (fun hadd => ?_) fun heq => ?_
    · obtain ⟨v, hv, hblob, -⟩ := id ha
      have hcol := addressed_iff.mp hadd p hp v hv
      rw [columnIs_archived h hp htbl ha (written_blob h hp hr hblob) hv] at hcol
      cases hcol
    · have hcol := keyEquals_iff.mp heq q hq
      rw [stored_key_nil h hq hnil, Value.equals_null_right] at hcol
      cases hcol

/-- At most one row has the key of the model. -/
theorem keyEquals_unique (htbl : TableOf m.cls tbl) (hpk : getPrimaryKeys m.cls.chain ≠ []) :
    (tbl.rows.filter (KeyEquals R tbl m)).length ≤ 1 := by
  have hclash : ∀ r r', KeyEquals R tbl m r = true → KeyEquals R tbl m r' = true →
      tbl.sameKey r r' = true := by
    intro r r' hr hr'
    rw [KeyEquals, List.all_eq_true] at hr hr'
    rw [Table.sameKey, htbl.primaryKey, Bool.and_eq_true, List.all_eq_true]
    refine ⟨by simpa using hpk, fun k hk => Value.equals_trans (hr k hk) ?_⟩
    rw [Value.equals_comm]
    exact hr' k hk
  have hpair := htbl.unique.filter (KeyEquals R tbl m)
  have hmem : ∀ x ∈ tbl.rows.filter (KeyEquals R tbl m), KeyEquals R tbl m x = true :=
    fun x hx => (List.mem_filter.mp hx).2
  cases hrows : tbl.rows.filter (KeyEquals R tbl m) with
  | nil => simp
  | cons r rows =>
      cases rows with
      | nil => simp
      | cons r' rest =>
          rw [hrows] at hpair hmem
          have hfree := (List.pairwise_cons.mp hpair).1 r' List.mem_cons_self
          rw [hclash r r' (hmem r List.mem_cons_self) (hmem r' (by simp))] at hfree
          cases hfree

/-! ### The operations -/

section Operations

variable (h : m.cls.Valid T)
include h

theorem keyBindings_names : ∀ k ∈ (keyBindings m).map (·.1), Name k := by
  intro k hk
  obtain ⟨e, he, rfl⟩ := List.mem_map.mp hk
  obtain ⟨p, hp, hpe, -⟩ := mem_keyBindings.mp he
  obtain ⟨hmem, hkey⟩ := mem_keyProperties.mp hp
  exact hpe ▸ h.columns p hmem (h.keys p hmem hkey)

/-- The primary key clause is about columns of the table. -/
theorem keyBindings_has (htbl : TableOf m.cls tbl) (vs : List Value) :
    ∀ b ∈ Sql.bind (((keyBindings m).map (·.1)).map Atom.eq) vs, tbl.has b.1 = true := by
  intro b hb
  obtain ⟨a, ha, hab⟩ := Sql.bind_column hb
  obtain ⟨k, hk, rfl⟩ := List.mem_map.mp ha
  obtain ⟨e, he, rfl⟩ := List.mem_map.mp hk
  obtain ⟨p, hp, hpe, -⟩ := mem_keyBindings.mp he
  obtain ⟨t, -, hmem⟩ := key_stored h hp
  have hhas := htbl.has (p.column, t) hmem
  rw [← hab, Atom.column, ← hpe]
  exact hhas

omit h in
theorem keyBindings_params (m : Model) :
    ((((keyBindings m).map (·.1)).map Atom.eq).map Atom.params).sum =
      ((keyBindings m).map (·.2)).length := by
  simp [Function.comp_def, Atom.params]

variable (hdb : db (fold T) = some tbl) (hK : KeysBacked m.cls.chain)
include hdb hK

/-- The existence check looks for an addressed row. -/
theorem isExists_run (htbl : TableOf m.cls tbl) (hk : keyBindings m ≠ []) :
    isExistsWithModel R m db = (.ok (tbl.rows.any (Addressed R tbl m)), db) := by
  have hrows : Sql.select R.conv db (.select T (((keyBindings m).map (·.1)).map Atom.eq))
      (((keyBindings m).map (·.2)).map (bindObject R)) =
      some (tbl.rows.filter (Addressed R tbl m)) := by
    simp only [Sql.select, hdb, Option.bind_some, Sql.selectRows,
      if_pos (List.all_eq_true.mpr (keyBindings_has h htbl _))]
    rfl
  have hquery := executeQuery_done
    (prepare_select h.name (keyText_isClause (keyBindings_names h))) (keyBindings_params m).le hrows
  have hany : (!(tbl.rows.filter (Addressed R tbl m)).isEmpty) =
      tbl.rows.any (Addressed R tbl m) := by
    induction tbl.rows with
    | nil => rfl
    | cons r rs ih => by_cases hr : Addressed R tbl m r = true <;> simp_all
  rw [isExistsWithModel, createSelectSQLWithPrimaryKey, h.table,
    hasRow_some (createSelectSQL_run hK hk) hquery, hany]

/-- The delete removes the addressed rows. -/
theorem delete_run (htbl : TableOf m.cls tbl) (hk : keyBindings m ≠ []) :
    deleteRecordWithModel R m db = (.ok true, Function.update db (fold T) (some { tbl with
      rows := tbl.rows.filter fun r => !Addressed R tbl m r })) := by
  rw [deleteRecordWithModel, executeBuilt_some (createDeleteSQL_run h.table hK hk),
    executeUpdate_delete h.name hdb (keyText_isClause (keyBindings_names h)) (keyBindings_params m)
      (keyBindings_has h htbl _)]
  rfl

/-- The update changes addressed rows only. -/
theorem update_run (hk : keyBindings m ≠ []) :
    ChangesOnly T tbl (Addressed R tbl m) db
      (updateWithModelTableSetWhere R m m.cls none none db).2 := by
  have hlen : ¬ (m.cls.getTableName.getD "").length = 0 := by
    rw [h.table]
    exact Name.length h.name
  rw [updateWithModelTableSetWhere, if_neg hlen, createUpdateSQLWithModelAndTableClass, h.table]
  by_cases hA : AllBacked m.cls.chain (properties m.cls.chain)
  · rw [executeBuilt_some (createUpdateSQL_run hA hK hk)]
    exact executeUpdate_where h.name hdb (keyText_isClause (keyBindings_names h))
      (keyBindings_params m) (keyText_where _) (updateBindings_word hA)
  · rw [executeBuilt_error (createUpdateSQL_error hA _ _)]
    exact .refl hdb

end Operations

/-! ### Addressing -/

/-- Over every table of written rows the model addresses the row that has its key, and no other:
the existence check tells whether it is there, the delete removes it, the update changes no
other row. -/
def AddressesByKey (R : Runtime) (T : String) (m : Model) : Prop :=
  ∀ tbl db, TableOf m.cls tbl → db (fold T) = some tbl →
    (∀ r ∈ tbl.rows, Written R tbl m.cls T r) →
    (tbl.rows.filter (KeyEquals R tbl m)).length ≤ 1 ∧
    isExistsWithModel R m db = (.ok (tbl.rows.any (KeyEquals R tbl m)), db) ∧
    (deleteRecordWithModel R m db).2 = Function.update db (fold T) (some { tbl with
      rows := tbl.rows.filter fun r => !KeyEquals R tbl m r }) ∧
    ChangesOnly T tbl (KeyEquals R tbl m) db
      (updateWithModelTableSetWhere R m m.cls none none db).2

/-- The instance variables of the keys are there, and the keys agree.  Of a class that can write
no row, only that the builders do not fail an assertion. -/
def KeysExact (R : Runtime) (m : Model) : Prop :=
  KeysBacked m.cls.chain ∧
    if AllBacked m.cls.chain (properties m.cls.chain) then KeysAgree R m
    else keyBindings m ≠ [] ∨ R.asserts = false

theorem KeysExact.agree (hexact : KeysExact R m)
    (hA : AllBacked m.cls.chain (properties m.cls.chain)) : KeysAgree R m := by
  have hcase := hexact.2
  rwa [if_pos hA] at hcase

theorem KeysAgree.keyBindings (hagree : KeysAgree R m) (hpk : getPrimaryKeys m.cls.chain ≠ []) :
    keyBindings m ≠ [] := by
  have hvalue : ∀ p ∈ keyProperties m, ∀ v, m.value p.column = some v →
      NBDataBase.keyBindings m ≠ [] := fun p hp v hv =>
    List.ne_nil_of_mem (mem_keyBindings.mpr ⟨p, hp, rfl, hv⟩ : (p.column, v) ∈ _)
  rcases hagree with hplain | ⟨p, hp, -, v, hv, -⟩ | ⟨⟨p, hp, v, hv, -⟩, -⟩
  · obtain ⟨k, hk⟩ := List.exists_mem_of_ne_nil _ hpk
    obtain ⟨p, hp, hkey, -⟩ := mem_getPrimaryKeys.mp hk
    have hp := mem_keyProperties.mpr ⟨hp, hkey⟩
    obtain ⟨⟨v, hv⟩, -⟩ := hplain p hp
    exact hvalue p hp v hv
  · exact hvalue p hp v hv
  · exact hvalue p hp v hv

section Addressing

variable (h : m.cls.Valid T)
include h

theorem written_allBacked (hr : Written R tbl m.cls T r) :
    AllBacked m.cls.chain (properties m.cls.chain) := by
  obtain ⟨m', -, hA, -⟩ := hr.eq_storedRow h
  exact hA

/-- Where the clause selects the rows with the key of the model, so do the operations. -/
theorem operations_same (htbl : TableOf m.cls tbl) (hdb : db (fold T) = some tbl)
    (hK : KeysBacked m.cls.chain) (hk : keyBindings m ≠ [])
    (hsame : ∀ r ∈ tbl.rows, Addressed R tbl m r = KeyEquals R tbl m r) :
    isExistsWithModel R m db = (.ok (tbl.rows.any (KeyEquals R tbl m)), db) ∧
    (deleteRecordWithModel R m db).2 = Function.update db (fold T) (some { tbl with
      rows := tbl.rows.filter fun r => !KeyEquals R tbl m r }) ∧
    ChangesOnly T tbl (KeyEquals R tbl m) db
      (updateWithModelTableSetWhere R m m.cls none none db).2 := by
  refine ⟨?_, ?_, ?_⟩
  · have hany : tbl.rows.any (Addressed R tbl m) = tbl.rows.any (KeyEquals R tbl m) := by
      rw [Bool.eq_iff_iff, List.any_eq_true, List.any_eq_true]
      exact exists_congr fun r => and_congr_right fun hr => by rw [hsame r hr]
    rw [isExists_run h hdb hK htbl hk, hany]
  · have hfilter : tbl.rows.filter (fun r => !Addressed R tbl m r) =
        tbl.rows.filter fun r => !KeyEquals R tbl m r :=
      List.filter_congr fun r hr => by rw [hsame r hr]
    rw [delete_run h hdb hK htbl hk, hfilter]
  · obtain ⟨f, hf⟩ := update_run (R := R) h hdb hK hk
    have hmap : (tbl.rows.map fun r => if Addressed R tbl m r then f r else r) =
        tbl.rows.map fun r => if KeyEquals R tbl m r then f r else r :=
      List.map_congr_left fun r hr => by rw [hsame r hr]
    exact ⟨f, hmap ▸ hf⟩

/-- Without a key and without assertions the existence check looks for any row. -/
theorem exists_without_keys (hK : KeysBacked m.cls.chain) (hk : keyBindings m = [])
    (hR : R.asserts = false) (hdb : db (fold T) = some tbl) :
    isExistsWithModel R m db = (.ok !tbl.rows.isEmpty, db) := by
  have hselect : Sql.select R.conv db (.select T []) ([].map (bindObject R)) = some tbl.rows := by
    simp [Sql.select, hdb, Sql.selectRows, Sql.bind, satisfies]
  have hclause : IsClause (keyText []) [] := keyText_isClause fun _ hk => absurd hk List.not_mem_nil
  have hquery := executeQuery_done (prepare_select h.name hclause) (le_refl 0) hselect
  have hbuilt := createSelectSQL_nil (R := R) (T := T) hK hk
  rw [if_neg (by simp [hR])] at hbuilt
  rw [isExistsWithModel, createSelectSQLWithPrimaryKey, h.table, hasRow_some hbuilt hquery]

/-- Without a key and without assertions the operations do nothing to an empty table. -/
theorem operations_empty (hdb : db (fold T) = some tbl) (hrows : tbl.rows = [])
    (hK : KeysBacked m.cls.chain) (hk : keyBindings m = []) (hR : R.asserts = false)
    (hA : ¬ AllBacked m.cls.chain (properties m.cls.chain)) :
    isExistsWithModel R m db = (.ok false, db) ∧ (deleteRecordWithModel R m db).2 = db ∧
    (updateWithModelTableSetWhere R m m.cls none none db).2 = db := by
  refine ⟨?_, ?_, ?_⟩
  · rw [exists_without_keys h hK hk hR hdb, hrows]
    rfl
  · have hbuilt := createDeleteSQL_nil (R := R) hK hk
    rw [if_neg (by simp [hR])] at hbuilt
    rw [deleteRecordWithModel, executeBuilt_none hbuilt]
  · have hlen : ¬ (m.cls.getTableName.getD "").length = 0 := by
      rw [h.table]
      exact Name.length h.name
    rw [updateWithModelTableSetWhere, if_neg hlen, createUpdateSQLWithModelAndTableClass,
      executeBuilt_error (createUpdateSQL_error hA _ _)]

/-- **Keys that are exact** address by key. -/
theorem KeysExact.addresses (hpk : getPrimaryKeys m.cls.chain ≠ []) (hexact : KeysExact R m) :
    AddressesByKey R T m := by
  intro tbl db htbl hdb hW
  have hK := hexact.1
  refine ⟨keyEquals_unique htbl hpk, ?_⟩
  by_cases hk : NBDataBase.keyBindings m = []
  · -- no key at all: then the class writes no row
    have hA : ¬ AllBacked m.cls.chain (properties m.cls.chain) := fun hA =>
      (hexact.agree hA).keyBindings hpk hk
    have hcase := hexact.2
    rw [if_neg hA] at hcase
    have hrows : tbl.rows = [] := List.eq_nil_iff_forall_not_mem.mpr fun r hr =>
      hA (written_allBacked h (hW r hr))
    obtain ⟨hexists, hdelete, hupdate⟩ := operations_empty h hdb hrows hK hk
      (hcase.resolve_left fun hne => hne hk) hA
    have hsame : Function.update db (fold T) (some { tbl with rows := [] }) = db :=
      Function.update_eq_self_iff.mpr (by rw [hdb, ← hrows])
    refine ⟨by rw [hexists, hrows]; rfl, ?_, id, ?_⟩
    · rw [hdelete, hrows, List.filter_nil, hsame]
    · rw [hupdate, hrows, List.map_nil, hsame]
  · refine operations_same h htbl hdb hK hk fun r hr => ?_
    exact addressed_eq_keyEquals h htbl (hexact.agree (written_allBacked h (hW r hr))) (hW r hr)

/-! ### Keys that are not exact -/

/-- A table of the class with one row. -/
def rowTable (cls : ModelClass) (r : Row) : Table := { createdTable cls with rows := [r] }

omit h in
theorem rowTable_tableOf (h : cls.Valid T) (r : Row) : TableOf cls (rowTable cls r) where
  has := (created_tableOf h).has
  affinity := (created_tableOf h).affinity
  primaryKey := rfl
  unique := List.pairwise_singleton _ r

/-- When the keys do not agree, the row of the model's stored properties is addressed and lacks a
key of the model, or has every key and is not addressed. -/
theorem own_row_differs (htbl : TableOf m.cls tbl) (hno : ¬ KeysAgree R m)
    (hA : AllBacked m.cls.chain (properties m.cls.chain)) :
    Addressed R tbl m (storedRow R tbl (storedModel m.cls m.value)) ≠
      KeyEquals R tbl m (storedRow R tbl (storedModel m.cls m.value)) := by
  simp only [KeysAgree, not_or] at hno
  obtain ⟨hplain, hnull, hnil⟩ := hno
  have hown : ∀ p ∈ keyProperties m, storedRow R tbl (storedModel m.cls m.value) (fold p.column) =
      storedRow R tbl m (fold p.column) := fun p hp => by
    obtain ⟨hmem, hkey⟩ := mem_keyProperties.mp hp
    have hp' : p ∈ keyProperties (storedModel m.cls m.value) := hp
    have h' : (storedModel m.cls m.value).cls.Valid T := h
    rw [stored_key h' hp', stored_key h hp, storedModel_value_stored hA hmem (h.keys p hmem hkey)]
  have hnotnull : ∀ p ∈ keyProperties m, ∀ v, m.value p.column = some v →
      storedRow R tbl m (fold p.column) ≠ .null := fun p hp v hv => by
    by_cases ha : Archived m p
    · obtain ⟨b, hb⟩ : ∃ b, storedRow R tbl m (fold p.column) = .blob b := stored_key_blob h hp ha
      rw [hb]
      exact Value.noConfusion
    · intro hst
      exact hnull ⟨p, hp, ha, v, hv, (stored_key_null h hp hv ha).mp hst⟩
  by_cases hsome : ∃ p ∈ keyProperties m, Archived m p
  · -- an archived key: the row has every key of the model, and is not addressed
    obtain ⟨p, hp, ha⟩ := hsome
    obtain ⟨v, hv, hblob, -⟩ := id ha
    have hequals : KeyEquals R tbl m (storedRow R tbl (storedModel m.cls m.value)) = true := by
      rw [keyEquals_iff]
      intro q hq
      rw [hown q hq]
      cases hqv : m.value q.column with
      | none => exact absurd ⟨⟨p, hp, ha⟩, q, hq, hqv⟩ hnil
      | some w => exact Value.equals_self (hnotnull q hq w hqv)
    obtain ⟨hmem, hkey⟩ := mem_keyProperties.mp hp
    have hr : Written R tbl m.cls T (storedRow R tbl (storedModel m.cls m.value)) :=
      storedModel_written h hA htbl hmem (h.keys p hmem hkey) (by rw [hv]; rfl)
    intro heq
    rw [hequals] at heq
    have hcol := addressed_iff.mp heq p hp v hv
    rw [columnIs_archived h hp htbl ha (written_blob h hp hr hblob) hv] at hcol
    cases hcol
  · -- a key that is nil: the row is addressed, and lacks the key
    have hadd : Addressed R tbl m (storedRow R tbl (storedModel m.cls m.value)) = true := by
      rw [addressed_iff]
      intro p hp v hv
      rw [columnIs_plain h hp htbl hv fun ha => hsome ⟨p, hp, ha⟩, hown p hp]
      exact Value.equals_self (hnotnull p hp v hv)
    simp only [KeysPlain, not_forall] at hplain
    obtain ⟨q, hq, hbad⟩ := hplain
    have hqv : m.value q.column = none := by
      by_contra hsomeq
      obtain ⟨w, hw⟩ := Option.ne_none_iff_exists'.mp hsomeq
      exact hbad ⟨⟨w, hw⟩, fun ha => hsome ⟨q, hq, ha⟩⟩
    intro heq
    rw [hadd] at heq
    have hcol := keyEquals_iff.mp heq.symm q hq
    rw [stored_key_nil h hq hqv, Value.equals_null_right] at hcol
    cases hcol

/-- What `AddressesByKey` says of a table with one row. -/
theorem AddressesByKey.exists_row (haddr : AddressesByKey R T m)
    (hr : Written R (rowTable m.cls r) m.cls T r) :
    (isExistsWithModel R m (Function.update (fun _ => none) (fold T) (some (rowTable m.cls r)))).1 =
      .ok (KeyEquals R (rowTable m.cls r) m r) := by
  obtain ⟨-, hexists, -⟩ := haddr (rowTable m.cls r) _ (rowTable_tableOf h r)
    (Function.update_self ..) fun r' hr' => by rwa [List.mem_singleton.mp hr']
  rw [hexists]
  simp [rowTable]

omit h in
/-- A builder of the existence check that raises does not answer. -/
theorem AddressesByKey.builds (h : m.cls.Valid T) (haddr : AddressesByKey R T m) (e : Fault) :
    createSelectSQLWithPrimaryKeyAndTableName R m (some T) none ≠ .error e := by
  intro herror
  obtain ⟨-, hexists, -⟩ := haddr (createdTable m.cls)
    (Function.update (fun _ => none) (fold T) (some (createdTable m.cls))) (created_tableOf h)
    (Function.update_self ..) fun r hr => by cases hr
  rw [isExistsWithModel, createSelectSQLWithPrimaryKey, h.table, hasRow_error herror] at hexists
  cases (Prod.mk.inj hexists).1

/-- A model that addresses by key has exact keys. -/
theorem AddressesByKey.keysExact (hpk : getPrimaryKeys m.cls.chain ≠ [])
    (haddr : AddressesByKey R T m) : KeysExact R m := by
  have hK : KeysBacked m.cls.chain := by
    by_contra hK
    exact haddr.builds h _ (createSelectSQL_error hK)
  have hreturns : keyBindings m = [] → R.asserts = false := fun hk => by
    by_contra hR
    have hbuilt := createSelectSQL_nil (R := R) (T := T) hK hk
    rw [if_pos (by simpa using hR)] at hbuilt
    exact haddr.builds h _ hbuilt
  refine ⟨hK, ?_⟩
  split
  · rename_i hA
    by_contra hno
    by_cases hk : keyBindings m = []
    · -- a model without keys finds the row of another
      obtain ⟨k, hmemk⟩ := List.exists_mem_of_ne_nil _ hpk
      obtain ⟨p, hmem, hkey, -⟩ := mem_getPrimaryKeys.mp hmemk
      have hp := mem_keyProperties.mpr ⟨hmem, hkey⟩
      let r := storedRow R (createdTable m.cls) (storedModel m.cls fun _ => some (.data []))
      have hr : Written R (rowTable m.cls r) m.cls T r :=
        storedModel_written h hA (rowTable_tableOf h r) hmem (h.keys p hmem hkey) rfl
      have hequals : KeyEquals R (rowTable m.cls r) m r = true := by
        have hexists := haddr.exists_row h hr
        rw [exists_without_keys h hK hk (hreturns hk) (Function.update_self ..)] at hexists
        exact (Except.ok.inj hexists).symm
      have hcol := keyEquals_iff.mp hequals p hp
      have hnil : m.value p.column = none := by
        by_contra hsome
        obtain ⟨v, hv⟩ := Option.ne_none_iff_exists'.mp hsome
        have he : (p.column, v) ∈ keyBindings m := mem_keyBindings.mpr ⟨p, hp, rfl, hv⟩
        rw [hk] at he
        cases he
      rw [stored_key_nil h hp hnil, Value.equals_null_right] at hcol
      cases hcol
    · let r := storedRow R (createdTable m.cls) (storedModel m.cls m.value)
      have hvalue : ∃ p ∈ keyProperties m, (m.value p.column).isSome = true := by
        obtain ⟨e, he⟩ := List.exists_mem_of_ne_nil _ hk
        obtain ⟨p, hp, -, hv⟩ := mem_keyBindings.mp he
        exact ⟨p, hp, by rw [hv]; rfl⟩
      obtain ⟨p, hp, hv⟩ := hvalue
      obtain ⟨hmem, hkey⟩ := mem_keyProperties.mp hp
      have htbl := rowTable_tableOf h r
      have hr : Written R (rowTable m.cls r) m.cls T r :=
        storedModel_written h hA htbl hmem (h.keys p hmem hkey) hv
      have hexists := haddr.exists_row h hr
      rw [isExists_run h (Function.update_self ..) hK htbl hk] at hexists
      have hsame : Addressed R (rowTable m.cls r) m r = KeyEquals R (rowTable m.cls r) m r := by
        simpa [rowTable] using hexists
      exact own_row_differs h htbl hno hA hsame
  · exact or_iff_not_imp_left.mpr fun hk => hreturns (not_not.mp hk)

end Addressing

/-- **A model addresses by key** exactly when its keys are exact. -/
theorem addressesByKey_iff (R : Runtime) (h : m.cls.Valid T)
    (hpk : getPrimaryKeys m.cls.chain ≠ []) : AddressesByKey R T m ↔ KeysExact R m :=
  ⟨fun haddr => haddr.keysExact h hpk, fun hexact => hexact.addresses h hpk⟩

/-! ### Books and loans -/

/-- A book addresses by key. -/
theorem book_addresses : AddressesByKey demoRuntime "tb_books" book := by
  refine (addressesByKey_iff demoRuntime bookClass_valid (by decide +kernel)).mpr
    ⟨by decide +kernel, ?_⟩
  have hkeys : keyProperties book = [⟨"_pk_bookId", "@\"NSString\"", "bookId"⟩] := by
    decide +kernel
  rw [if_pos (by decide +kernel)]
  refine .inl fun p hp => ?_
  rw [hkeys, List.mem_singleton] at hp
  subst hp
  refine ⟨⟨.string "NSString" "7", by decide +kernel⟩, ?_⟩
  rintro ⟨v, -, hblob, -⟩
  revert hblob
  decide +kernel

/-- A class with two keys. -/
def loanClass : ModelClass where
  chain :=
    [{ name := "Loan"
       properties :=
        [⟨"_pk_userId", "@\"NSString\"", "userId"⟩, ⟨"_pk_bookId", "@\"NSString\"", "bookId"⟩]
       ivars := [⟨"_userId", "@\"NSString\""⟩, ⟨"_bookId", "@\"NSString\""⟩] },
      { name := "NBBaseDBTableModel", properties := [], ivars := [] }]
  getTableName := some "tb_loans"
  ivar_word := by decide

/-- A loan of a book by nobody. -/
def loan : Model := .ofIvars loanClass fun key =>
  if key = "_bookId" then some (.string "NSString" "7") else none

theorem loanClass_valid : loanClass.Valid "tb_loans" where
  table := rfl
  name := by decide +kernel
  ordinary := by decide +kernel
  columns := by decide +kernel
  distinct := by decide +kernel
  keys := by decide +kernel
  stores := by decide +kernel

/-- A loan without its user addresses the loans of the book by everybody. -/
theorem loan_addresses_others : ¬ AddressesByKey demoRuntime "tb_loans" loan := by
  intro haddr
  have hexact := haddr.keysExact loanClass_valid (by decide +kernel)
  have hkeys : keyProperties loan = [⟨"_pk_userId", "@\"NSString\"", "userId"⟩,
      ⟨"_pk_bookId", "@\"NSString\"", "bookId"⟩] := by decide +kernel
  have hblob : ∀ p ∈ keyProperties loan, p.columnType ≠ some "BLOB" := by
    rw [hkeys]
    decide +kernel
  have hA : AllBacked loan.cls.chain (properties loan.cls.chain) := by decide +kernel
  have hagree := hexact.agree hA
  have hnil : loan.value "_userId" = none := by decide +kernel
  rcases hagree with hplain | ⟨p, hp, -, v, hv, hnull⟩ | ⟨⟨p, hp, v, -, hb, -⟩, -⟩
  · obtain ⟨⟨v, hv⟩, -⟩ := hplain ⟨"_pk_userId", "@\"NSString\"", "userId"⟩ (by simp [hkeys])
    have hcol : (⟨"_pk_userId", "@\"NSString\"", "userId"⟩ : Property).column = "_userId" := by
      decide +kernel
    rw [hcol, hnil] at hv
    cases hv
  · have hbook : loan.value "_bookId" = some (.string "NSString" "7") := by decide +kernel
    have hcol : ∀ p ∈ keyProperties loan, p.column = "_userId" ∨ p.column = "_bookId" := by
      rw [hkeys]
      decide +kernel
    rcases hcol p hp with hc | hc
    · rw [hc, hnil] at hv
      cases hv
    · rw [hc, hbook] at hv
      rw [← Option.some.inj hv] at hnull
      exact Value.noConfusion hnull
  · exact hblob p hp hb

end NBDataBase
