import NBDataBase.Orm.Bound

/-!
# Orm — the encoding of a column

Whether every builder that binds the value of a property binds the same.

* `WritePath`: what the builders return that write a model, or columns of it, to a table.
* `EncodesAlike`: each of them binds a stored property as the inserts of the whole model do.
* `encodesAlike_iff`: this is so exactly when no `BLOB` column holds anything but an `NSData`.
  The updates and the lists of columns bind the value itself, not its archive.
-/

namespace NBDataBase
open Sql

/-! ### Write paths -/

/-- What a builder returns that binds values of the properties of `m` to columns of `T`. -/
inductive WritePath (R : Runtime) (m : Model) (T : String) :
    Except Fault (Option (String × List Obj)) → Prop
  | insert (tableName : Option String) (replace : Bool)
      (hT : tableName.or m.cls.getTableName = some T) :
      WritePath R m T (createInsertSQL R m tableName replace)
  | columns (tableName : Option String) (columns : Columns) (cs : List String) (replace : Bool)
      (hT : tableName.or m.cls.getTableName = some T) (hcs : columnsArray R columns = .ok cs)
      (hn : ∀ c ∈ cs, Name c) :
      WritePath R m T (createInsertSQLWithColumns R m tableName (some columns) replace)
  | beginClass (B : ModelClass) (replace : Bool) (hB : B.IsAncestor m.cls)
      (hT : B.getTableName = some T) :
      WritePath R m T (createInsertSQLWithModelAndBeginClass R m B replace)
  | update (condition : Option Where) :
      WritePath R m T (createUpdateSQLWithModelAndTableName R m (some T) none condition)
  | sets (sets : Sets) (cs : List String) (condition : Option Where)
      (hcs : sets.names = some cs) (hn : ∀ c ∈ cs, Name c) :
      WritePath R m T (createUpdateSQLWithModelAndTableName R m (some T) (some sets) condition)

/-- Every write path binds a stored property as the inserts of the whole model do. -/
def EncodesAlike (R : Runtime) (m : Model) : Prop :=
  ∀ p ∈ properties m.cls.chain, p.isStored = true → ∀ v, m.value p.column = some v →
    ∀ T built, Name T → WritePath R m T built → ∀ w, Assigns built p.column w → w = p.encode R v

/-! ### What the bindings bind -/

variable {R : Runtime} {m : Model} {p : Property} {c : String} {v w : Obj}

/-- An insert binds a value under the encoding of the property it walked. -/
theorem mem_insertBindings {ps : List Property} :
    (c, w) ∈ insertBindings R m ps ↔
      ∃ p ∈ ps, isColumn p.name = true ∧ p.column = c ∧
        ∃ v, m.value c = some v ∧ w = p.encode R v := by
  simp only [insertBindings, List.mem_filterMap, insertBinding]
  refine exists_congr fun p => and_congr_right fun _ => ?_
  split
  · simp only [Option.map_eq_some_iff, Prod.mk.injEq, *, true_and]
    constructor
    · rintro ⟨v, hv, rfl, rfl⟩
      exact ⟨rfl, v, hv, rfl⟩
    · rintro ⟨rfl, v, hv, rfl⟩
      exact ⟨v, hv, rfl, rfl⟩
  · simp [*]

/-- An update binds the value itself. -/
theorem mem_updateBindings {ps : List Property} :
    (c, w) ∈ updateBindings m ps ↔
      (∃ p ∈ ps, isColumn p.name = true ∧ isPrimaryKey p.name = false ∧ p.column = c) ∧
        m.value c = some w := by
  simp only [updateBindings, List.mem_filterMap, updateBinding]
  constructor
  · rintro ⟨p, hp, h⟩
    split at h
    · obtain ⟨v, hv, h⟩ := Option.map_eq_some_iff.mp h
      obtain ⟨rfl, rfl⟩ := Prod.mk.inj h
      exact ⟨⟨p, hp, (‹_ ∧ _›).1, (‹_ ∧ _›).2, rfl⟩, hv⟩
    · cases h
  · rintro ⟨⟨p, hp, hcol, hkey, rfl⟩, hv⟩
    exact ⟨p, hp, by rw [if_pos ⟨hcol, hkey⟩, hv]; rfl⟩

/-- A value is archived unless it is an `NSData` or its column is no `BLOB`. -/
theorem Property.encode_eq_self_iff :
    p.encode R v = v ↔ (p.columnType = some "BLOB" → v.isData = true) := by
  unfold Property.encode
  cases v <;> simp [Obj.isData]

theorem properties_of_ancestor {B : ModelClass} (h : B.IsAncestor m.cls)
    (hp : p ∈ properties B.chain) : p ∈ properties m.cls.chain := by
  obtain ⟨pre, hpre⟩ := h
  rw [properties, ← hpre, List.flatMap_append]
  exact List.mem_append_right _ hp

/-! ### The encoding -/

/-- The values that would be archived are `NSData`. -/
def BlobsAreData (m : Model) : Prop :=
  ∀ p ∈ properties m.cls.chain, p.isStored = true → Name p.column → ∀ v,
    m.value p.column = some v → p.columnType = some "BLOB" → v.isData = true

/-- Nothing the model binds is archived. -/
theorem BlobsAreData.encode (h : BlobsAreData m) (hp : p ∈ properties m.cls.chain)
    (hcol : isColumn p.name = true) (hn : Name p.column) (hv : m.value p.column = some v) :
    p.encode R v = v := by
  refine Property.encode_eq_self_iff.mpr fun hblob => h p hp ?_ hn v hv hblob
  simp [Property.isStored, hcol, hblob]

/-- Under a write path a bound column is a name, and it is bound to the value of some property
that has the column, encoded or not. -/
theorem WritePath.bound {T : String} {built : Except Fault (Option (String × List Obj))}
    (h : WritePath R m T built) (hN : Name T) (hw : Assigns built c w) :
    Name c ∧ ∃ v, m.value c = some v ∧ (w = v ∨ ∃ p ∈ properties m.cls.chain,
      isColumn p.name = true ∧ p.column = c ∧ w = p.encode R v) := by
  cases h with
  | insert tableName replace hT =>
      obtain ⟨-, hn, hmem⟩ := (assigns_insert_iff hT hN replace).mp hw
      obtain ⟨p, hp, hcol, rfl, v, hv, rfl⟩ := mem_insertBindings.mp hmem
      have hc := hn _ hmem
      exact ⟨hc, v, hv, .inr ⟨p, hp, hcol, rfl, rfl⟩⟩
  | columns tableName columns cs replace hT hcs hn =>
      obtain ⟨hc, hv⟩ := mem_columnBindings.mp (assigns_columns hT hN hcs hn replace hw)
      exact ⟨hn c hc, w, hv, .inl rfl⟩
  | beginClass B replace hB hT =>
      obtain ⟨-, hn, hmem⟩ := (assigns_beginClass_iff hT hN replace).mp hw
      obtain ⟨p, hp, hcol, rfl, v, hv, rfl⟩ := mem_insertBindings.mp hmem
      have hc := hn _ hmem
      exact ⟨hc, v, hv, .inr ⟨p, properties_of_ancestor hB hp, hcol, rfl, rfl⟩⟩
  | update condition =>
      obtain ⟨-, hn, hmem⟩ := assigns_update hN hw
      have hc := hn _ hmem
      exact ⟨hc, w, (mem_updateBindings.mp hmem).2, .inl rfl⟩
  | sets sets cs condition hcs hn =>
      obtain ⟨hc, hv⟩ := mem_columnBindings.mp (assigns_sets hN hcs hn hw)
      exact ⟨hn c hc, w, hv, .inl rfl⟩

/-- A list with the column alone binds the value itself. -/
theorem EncodesAlike.blobsAreData (h : EncodesAlike R m) : BlobsAreData m := by
  intro p hp hst hn v hv
  have hkey : m.valueForKey? p.column = some (some v) := Option.join_eq_some_iff.mp hv
  have hraw := h p hp hst v hv "t" _ (by decide)
    (.columns (some "t") (.array [p.column]) [p.column] false rfl rfl (by simpa using hn)) v
    (assigns_column (by decide) hn hkey false)
  exact Property.encode_eq_self_iff.mp hraw.symm

/-- **Every write path binds a stored property alike** exactly when the model holds no value to
archive. -/
theorem encodesAlike_iff (R : Runtime) (m : Model) : EncodesAlike R m ↔ BlobsAreData m := by
  refine ⟨fun h => h.blobsAreData, ?_⟩
  intro h p hp hst v hv T built hN hpath w hw
  have hcol : isColumn p.name = true := (Bool.and_eq_true_iff.mp hst).1
  obtain ⟨hn, v', hv', hw⟩ := hpath.bound hN hw
  obtain rfl : v' = v := Option.some.inj (hv'.symm.trans hv)
  rw [h.encode hp hcol hn hv]
  rcases hw with rfl | ⟨q, hq, hqcol, hqc, rfl⟩
  · rfl
  · rw [← hqc] at hn hv
    exact h.encode hq hqcol hn hv

/-! ### The demo's books -/

/-- `Book` of the demo, below `NBBaseDBTableModel`. -/
def bookClass : ModelClass where
  chain :=
    [{ name := "Book"
       properties :=
        [⟨"_pk_bookId", "@\"NSString\"", "bookId"⟩, ⟨"name", "@\"NSString\"", "name"⟩,
          ⟨"infoDic", "@\"NSDictionary\"", "infoDic"⟩, ⟨"author", "@\"User\"", "author"⟩]
       ivars :=
        [⟨"_bookId", "@\"NSString\""⟩, ⟨"_name", "@\"NSString\""⟩,
          ⟨"_infoDic", "@\"NSDictionary\""⟩, ⟨"_author", "@\"User\""⟩] },
      { name := "NBBaseDBTableModel", properties := [], ivars := [] }]
  getTableName := some "tb_books"
  ivar_word := by decide

/-- A book with an identifier and a dictionary. -/
def book : Model := .ofIvars bookClass fun key =>
  if key = "_bookId" then some (.string "NSString" "7")
  else if key = "_infoDic" then some (.other "NSDictionary" "{}")
  else none

/-- The dictionary of a book is archived by its insert and not by its update. -/
theorem book_encoded_twice : ¬ EncodesAlike demoRuntime book := by
  intro h
  have hdata := h.blobsAreData ⟨"infoDic", "@\"NSDictionary\"", "infoDic"⟩
    (by decide +kernel) (by decide +kernel) (by decide +kernel) (.other "NSDictionary" "{}")
    (by decide +kernel) (by decide +kernel)
  cases hdata

end NBDataBase
