import NBDataBase.Orm.Reading
import NBDataBase.Orm.Upsert

/-!
# Orm — a value written and read

Whether an object-valued property comes back from the table it was written to.

* `roundTrip`: create the table of the class, insert the model, query.  `Survives`: the one model
  read has a value equal to the one written.
* `storedCell`: what the table holds for a value; `readBack`: what is read of it.
* `ReadsBack`: a class that takes its own archives back, a non-empty text of `NSString`, or a value
  that a new model has anyway.
* `survives_iff`: a value survives exactly when the model is stored, the other columns are read and
  it reads back.
-/

namespace NBDataBase
open Sql (fold Name Db Table Row Value affinityOf prepare)

/-! ### The round trip -/

/-- `isEqual:` of numbers. -/
def NSNumber.isEqual : NSNumber → NSNumber → Bool
  | .integer m, .integer n => m == n
  | .integer m, .double x => x == some (.finite m)
  | .double x, .integer n => x == some (.finite n)
  | .double x, .double y => x == y

/-- `isEqual:`.  Strings of all classes are equal by their texts. -/
def Obj.isEqual : Obj → Obj → Bool
  | .number m, .number n => m.isEqual n
  | .string _ s, .string _ t => s == t
  | o, o' => o == o'

theorem Obj.isEqual_self (o : Obj) : o.isEqual o = true := by
  cases o with
  | number n => cases n <;> simp [isEqual, NSNumber.isEqual]
  | _ => simp [isEqual]

section

variable (F : Foundation) (R : Runtime)

/-- `executeUpdate:` of `createTableSQL`. -/
def createTable (cls : ModelClass) : Action Unit := do
  match createTableSQL cls with
  | some sql => let _ ← executeUpdate R sql []
  | none => return ()

/-- Create the table of the class, insert the model, and query. -/
def roundTrip (m : Model) : Action (List Instance) := do
  createTable R m.cls
  let _ ← insertToDBWithModel R m
  query F R m.cls

/-- One model is read, and it has a value of the property that is equal to `v`. -/
def Survives (m : Model) (p : Property) (v : Obj) (db : Db) : Prop :=
  ∃ inst db', roundTrip F R m db = (.ok [inst], db') ∧
    ∃ w, inst p.column = some w ∧ w.isEqual v = true

/-! ### When a value survives -/

/-- What the table holds for a value of the property. -/
def storedCell (p : Property) (v : Obj) : Value :=
  (affinityOf (p.columnType.getD "")).apply R.conv (bindObject R (p.encode R v))

/-- The column of the property is read: the model does not respond to its selector, or what is
stored for the value suits the instance variable. -/
def PropertyReads (m : Model) (p : Property) : Prop :=
  F.respondsToSelector m.cls (selectorOfColumn p.column) = true →
    ∀ ivar, getInstanceVariable m.cls.chain p.column = some ivar →
      ∀ v, m.value p.column = some v → ∀ value, objectForColumn (storedCell R p v) = some value →
        Suits F ivar.typeEncoding value

instance (m : Model) (q : Property) : Decidable (PropertyReads F R m q) :=
  inferInstanceAs (Decidable (_ → ∀ ivar ∈ getInstanceVariable m.cls.chain q.column,
    ∀ v ∈ m.value q.column, ∀ value ∈ objectForColumn (storedCell R q v),
      Suits F ivar.typeEncoding value))

/-- An object type: that of a class or of a protocol-qualified `id`. -/
structure ObjectType (typeEncoding : String) : Prop where
  object : typeEncoding.toList.head? = some '@'
  named : 3 ≤ typeEncoding.length

/-- The class of an object type; the empty string is a protocol-qualified `id`. -/
def declaredClass (p : Property) : String := classNameOfEncoding p.typeEncoding.toList

/-- The reader takes the value of the class for what it is: a text of `NSString` that is not empty
and has no NUL; 0 for a protocol-qualified `id`; and else an object of a class that the reader asks
for an archive, or bytes that are an archive of themselves. -/
def Kept (c : String) (v : Obj) : Prop :=
  if c = "" then (Obj.number (.integer 0)).isEqual v = true
  else if c = "NSString" then ∃ cls s, v = .string cls s ∧ s ≠ "" ∧ '\x00' ∉ s.toList
  else (∀ d ∈ "NSString" :: "NSNumber" :: unsupportedClasses, F.isSubclassOfClass c d = false) ∧
    ∀ b, v = .data b → F.unarchiveObjectWithData b = some (some v)

/-- The value reads back.  When the model does not respond to the selector of the column, or the
value is an empty `NSData`, nothing is set. -/
def ReadsBack (cls : ModelClass) (p : Property) (v : Obj) : Prop :=
  if F.respondsToSelector cls (selectorOfColumn p.column) = true ∧ v ≠ .data [] then
    Kept F (declaredClass p) v
  else ∃ w, F.init cls p.column = some w ∧ w.isEqual v = true

/-- The model is stored, its other columns are read, and the value reads back. -/
structure SurvivesWhen (T : String) (m : Model) (p : Property) (v : Obj) : Prop where
  allBacked : AllBacked m.cls.chain (properties m.cls.chain)
  storable : Storable m
  named : checkStringIsEmpty T = false
  others : ∀ q ∈ properties m.cls.chain, q.isStored = true → q ≠ p → PropertyReads F R m q
  readsBack : ReadsBack F m.cls p v

/-- The model is stored, and its other columns are read. -/
structure StoredAndRead (T : String) (m : Model) (p : Property) : Prop where
  allBacked : AllBacked m.cls.chain (properties m.cls.chain)
  storable : Storable m
  named : checkStringIsEmpty T = false
  others : ∀ q ∈ properties m.cls.chain, q.isStored = true → q ≠ p → PropertyReads F R m q

/-- A value of the declared type of a property that has an instance variable of its type, under
the name of its column. -/
structure Declares (m : Model) (p : Property) (v : Obj) : Prop where
  column : isColumn p.name = true
  type : ObjectType p.typeEncoding
  ivar : getInstanceVariable m.cls.chain p.column = some ⟨p.column, p.typeEncoding⟩
  value : m.value p.column = some v
  kind : declaredClass p ≠ "" →
    F.classExists (declaredClass p) = true ∧ F.isKindOfClass v (declaredClass p) = true

end

variable {F : Foundation} {R : Runtime} {T : String} {m : Model} {p q : Property} {v : Obj}
  {db db' : Db} {tbl : Table} {c : String}

/-! ### What the table holds -/

theorem ObjectType.columnType (h : ObjectType p.typeEncoding) :
    p.columnType = some (if declaredClass p = "NSString" then "VARCHAR" else "BLOB") := by
  rw [Property.columnType, columnTypeStringWithDataType, h.object]
  by_cases hc : declaredClass p = "NSString"
  · have hc' : classNameOfEncoding p.typeEncoding.toList = "NSString" := hc
    simp [h.named, hc, hc']
  · have hc' : classNameOfEncoding p.typeEncoding.toList ≠ "NSString" := hc
    simp [h.named, hc, hc']

theorem ObjectType.classString (h : ObjectType p.typeEncoding) :
    classStringWithDataType p.typeEncoding = some (declaredClass p) := by
  rw [classStringWithDataType, h.object]
  simp [h.named, declaredClass]

theorem cString_of_free {s : String} (h : '\x00' ∉ s.toList) : cString s = s := by
  have hall : s.toList.takeWhile (· ≠ '\x00') = s.toList :=
    List.takeWhile_eq_self_iff.mpr fun c hc => by
      have hne : c ≠ '\x00' := fun e => h (e ▸ hc)
      simpa using hne
  rw [cString, hall, String.ofList_toList]

theorem cString_free (s : String) : '\x00' ∉ (cString s).toList := by
  intro h
  rw [cString, String.toList_ofList] at h
  simpa using List.mem_takeWhile_imp h

/-- A text column gives a string back up to its first NUL. -/
theorem objectForColumn_text (h : p.columnType = some "VARCHAR") (cls s : String) :
    objectForColumn (storedCell R p (.string cls s)) = some (.string "NSString" (cString s)) := by
  have htype : affinityOf "VARCHAR" = .text := by decide +kernel
  have hencode : p.encode R (.string cls s) = .string cls s :=
    Property.encode_eq_self_iff.mpr (by simp [h])
  rw [storedCell, h, hencode, Option.getD_some, htype]
  show some (Obj.string "NSString" (cString (cString s))) = _
  rw [cString_of_free (cString_free s)]

/-- The bytes that are stored for a value in a blob column. -/
def storedBytes (R : Runtime) : Obj → List UInt8
  | .data b => b
  | v => R.archivedData v

theorem objectForColumn_blob (h : p.columnType = some "BLOB") (v : Obj) :
    objectForColumn (storedCell R p v) =
      if storedBytes R v = [] then none else some (.data (storedBytes R v)) := by
  have htype : affinityOf "BLOB" = .blob := by decide +kernel
  have hencode : bindObject R (p.encode R v) = .blob (storedBytes R v) := by
    cases v <;> simp [Property.encode, h, Obj.isData, bindObject, storedBytes]
  rw [storedCell, h, hencode, Option.getD_some, htype]
  show objectForColumn (.blob (storedBytes R v)) = _
  cases storedBytes R v <;> simp [objectForColumn]

/-! ### What is read of it -/

/-- What is read for a value of the property. -/
def readBack (F : Foundation) (R : Runtime) (cls : ModelClass) (p : Property) (v : Obj) :
    Except Fault (Option Obj) :=
  if F.respondsToSelector cls (selectorOfColumn p.column) then
    match objectForColumn (storedCell R p v) with
    | none => .ok (F.init cls p.column)
    | some value => modelValue F p.typeEncoding value
  else .ok (F.init cls p.column)

/-- The value comes back. -/
def ComesBack (F : Foundation) (R : Runtime) (cls : ModelClass) (p : Property) (v : Obj) : Prop :=
  ∃ w, readBack F R cls p v = .ok (some w) ∧ w.isEqual v = true

/-- What a class makes of a text. -/
theorem classValue_text (cls s : String) :
    classValue F "NSString" (.string cls s) =
      .ok (if s = "" then none else some (.string cls s)) := by
  show (if (s == "") = true then _ else _) = _
  by_cases hs : s = ""
  · rw [if_pos (by simpa using hs), if_pos hs]
    rfl
  · rw [if_neg (by simpa using hs), if_neg hs, if_pos (F.subclass_self "NSString")]
    rfl

/-- A text comes back when it is not empty and has no NUL. -/
theorem text_reads (cls s : String) :
    (∃ w, (Except.ok (if cString s = "" then none else some (.string "NSString" (cString s))) :
        Except Fault (Option Obj)) = .ok (some w) ∧ w.isEqual (.string cls s) = true) ↔
      ∃ cls' s', Obj.string cls s = .string cls' s' ∧ s' ≠ "" ∧ '\x00' ∉ s'.toList := by
  constructor
  · rintro ⟨w, hw, hequal⟩
    by_cases hempty : cString s = ""
    · rw [if_pos hempty] at hw
      cases hw
    · rw [if_neg hempty] at hw
      obtain rfl := Option.some.inj (Except.ok.inj hw)
      have hs : cString s = s := by simpa [Obj.isEqual] using hequal
      exact ⟨cls, s, rfl, hs ▸ hempty, hs ▸ cString_free s⟩
  · rintro ⟨cls', s', hs, hne, hfree⟩
    cases hs
    rw [cString_of_free hfree, if_neg hne]
    exact ⟨_, rfl, by simp [Obj.isEqual]⟩

/-- What a class makes of bytes. -/
theorem classValue_data {b : List UInt8} (hb : b ≠ []) :
    classValue F c (.data b) =
      if F.isSubclassOfClass c "NSString" then .ok (some (.data b))
      else if F.isSubclassOfClass c "NSNumber" then .error .invalidArgument
      else if unsupportedClasses.any (F.isSubclassOfClass c) then .ok none
      else (unarchive F (.data b)).map (Option.filter (F.isKindOfClass · c)) := by
  show (if b.isEmpty = true then _ else _) = _
  rw [if_neg (by simpa using hb)]
  split
  · rfl
  · split
    · rfl
    · split
      · rfl
      · cases unarchive F (.data b) <;> rfl

theorem Obj.isEqual_data {w : Obj} {b : List UInt8} (h : w.isEqual (.data b) = true) :
    w = .data b := by
  cases w <;> simp_all [isEqual]

/-- An archive is not empty. -/
theorem storedBytes_ne (harchive : F.unarchiveObjectWithData (R.archivedData v) = some (some v))
    (hv : v ≠ .data []) : storedBytes R v ≠ [] := by
  have hne : R.archivedData v ≠ [] := fun h => F.no_empty_archive v (h ▸ harchive)
  cases v with
  | data b => exact fun h => hv (congrArg Obj.data h)
  | _ => exact hne

/-- What was stored for a value is an archive of it, unless the value is an `NSData`. -/
theorem unarchive_stored (h : F.isKindOfClass v c = true)
    (harchive : F.unarchiveObjectWithData (R.archivedData v) = some (some v)) :
    (∃ w, (unarchive F (.data (storedBytes R v))).map (Option.filter (F.isKindOfClass · c)) =
        .ok (some w) ∧ w.isEqual v = true) ↔
      ∀ b, v = .data b → F.unarchiveObjectWithData b = some (some v) := by
  have hkept : F.unarchiveObjectWithData (storedBytes R v) = some (some v) →
      ∃ w, (unarchive F (.data (storedBytes R v))).map (Option.filter (F.isKindOfClass · c)) =
        .ok (some w) ∧ w.isEqual v = true := fun hself => by
    refine ⟨v, ?_, v.isEqual_self⟩
    rw [unarchive, hself]
    show Except.ok ((some v).filter _) = _
    rw [Option.filter_some, if_pos h]
  cases v with
  | data b =>
      constructor
      · rintro ⟨w, hw, hequal⟩ b' hb'
        obtain rfl := Obj.data.inj hb'
        obtain rfl := Obj.isEqual_data hequal
        rw [unarchive] at hw
        cases hself : F.unarchiveObjectWithData b with
        | none => simp [storedBytes, hself, Except.map] at hw
        | some o =>
            have ho : o.filter (F.isKindOfClass · c) = some (.data b) := by
              simpa [storedBytes, hself, Except.map] using hw
            rw [(Option.filter_eq_some_iff.mp ho).1]
      · exact fun hself => hkept (hself b rfl)
  | _ => exact iff_of_true (hkept harchive) fun b hb => (by cases hb)

/-- A class that the reader asks for an archive gets the value from what was stored for it. -/
theorem classValue_stored (h : F.isKindOfClass v c = true)
    (harchive : F.unarchiveObjectWithData (R.archivedData v) = some (some v))
    (hv : v ≠ .data []) :
    (∃ w, classValue F c (.data (storedBytes R v)) = .ok (some w) ∧ w.isEqual v = true) ↔
      (∀ d ∈ "NSString" :: "NSNumber" :: unsupportedClasses, F.isSubclassOfClass c d = false) ∧
        ∀ b, v = .data b → F.unarchiveObjectWithData b = some (some v) := by
  rw [classValue_data (storedBytes_ne harchive hv), List.forall_mem_cons, List.forall_mem_cons]
  split
  · -- the bytes stay bytes, and the value is a string
    refine iff_of_false ?_ (by simp [*])
    rintro ⟨w, hw, hequal⟩
    obtain ⟨cls, s, rfl⟩ := F.kind_of_string c v ‹_› h
    obtain rfl := Option.some.inj (Except.ok.inj hw)
    cases hequal
  · split
    · refine iff_of_false ?_ (by simp [*])
      rintro ⟨w, hw, -⟩
      cases hw
    · split
      · refine iff_of_false ?_ ?_
        · rintro ⟨w, hw, -⟩
          cases hw
        · rintro ⟨⟨-, -, hnone⟩, -⟩
          obtain ⟨d, hd, hsub⟩ := List.any_eq_true.mp ‹_›
          rw [hnone d hd] at hsub
          cases hsub
      · have hclass : F.isSubclassOfClass c "NSString" = false ∧
            F.isSubclassOfClass c "NSNumber" = false ∧
              ∀ d ∈ unsupportedClasses, F.isSubclassOfClass c d = false := by
          refine ⟨by simp [*], by simp [*], fun d hd => ?_⟩
          have hany : ¬ unsupportedClasses.any (F.isSubclassOfClass c) = true := ‹_›
          simpa using fun h => hany (List.any_eq_true.mpr ⟨d, hd, h⟩)
        rw [and_iff_right hclass]
        exact unarchive_stored h harchive

/-- **A value comes back** from what the table holds for it exactly when it reads back. -/
theorem comesBack_iff (h : Declares F m p v)
    (harchive : F.unarchiveObjectWithData (R.archivedData v) = some (some v)) :
    ComesBack F R m.cls p v ↔ ReadsBack F m.cls p v := by
  unfold ComesBack ReadsBack readBack
  by_cases hresponds : F.respondsToSelector m.cls (selectorOfColumn p.column) = true
  · by_cases hname : declaredClass p = "NSString"
    · -- a text
      obtain ⟨hexists, hkind⟩ := h.kind (by rw [hname]; decide)
      rw [hname] at hexists hkind
      obtain ⟨cls, s, rfl⟩ := F.kind_of_string _ v (F.subclass_self _) hkind
      have hvarchar : p.columnType = some "VARCHAR" := by rw [h.type.columnType, if_pos hname]
      simp only [hresponds, objectForColumn_text hvarchar, if_true, modelValue, h.type.classString,
        hname, hexists, classValue_text, Kept]
      exact text_reads cls s
    · have hblob : p.columnType = some "BLOB" := by rw [h.type.columnType, if_neg hname]
      by_cases hv : v = .data []
      · -- the bytes of an empty blob are `NULL`
        subst hv
        have hempty : objectForColumn (storedCell R p (.data [])) = none :=
          (objectForColumn_blob hblob _).trans (if_pos rfl)
        simp [hresponds, hempty]
      · have hcell : objectForColumn (storedCell R p v) = some (.data (storedBytes R v)) :=
          (objectForColumn_blob hblob v).trans (if_neg (storedBytes_ne harchive hv))
        rw [if_pos hresponds, hcell, if_pos ⟨hresponds, hv⟩, Kept, if_neg hname]
        simp only [modelValue, h.type.classString]
        by_cases hempty : declaredClass p = ""
        · -- a protocol-qualified `id` has no class, and is set to 0
          have hnone : F.classExists "" = false := F.scalar_no_class "" (by simp [scalarStrings])
          have hzero : basicValue F "" (.data (storedBytes R v)) = .ok (.number (.integer 0)) := rfl
          simp [hempty, hnone, hzero]
        · obtain ⟨hexists, hkind⟩ := h.kind hempty
          rw [if_pos hexists, if_neg hempty]
          exact classValue_stored hkind harchive hv
  · simp [hresponds]

/-! ### The run -/

/-- The column of the property in the row of the model. -/
theorem storedRow_cell (h : m.cls.Valid T) (htbl : TableOf m.cls tbl)
    (hp : p ∈ properties m.cls.chain) (hst : p.isStored = true) :
    storedRow R tbl m (fold p.column) =
      ((m.value p.column).map (storedCell R p)).getD .null := by
  obtain ⟨hcol, t, ht⟩ := isStored_iff.mp hst
  have haff : tbl.affinity p.column = affinityOf t :=
    htbl.affinity (p.column, t) (stored_mem hp hcol ht)
  have hcell : storedCell R p =
      fun v => (affinityOf t).apply R.conv (bindObject R (p.encode R v)) := by
    funext v
    rw [storedCell, ht, Option.getD_some]
  rw [storedRow_column h hp hcol, haff, hcell]

/-- The columns of the table are those of the stored properties. -/
theorem mem_createdColumns (c : String) :
    c ∈ (createdTable m.cls).columns.map (·.1) ↔
      ∃ p ∈ properties m.cls.chain, p.isStored = true ∧ p.column = c := by
  constructor
  · intro hc
    obtain ⟨d, hd, rfl⟩ := List.mem_map.mp hc
    obtain ⟨p, hp, hcol, hpd, ht⟩ := mem_storedColumns.mp hd
    exact ⟨p, hp, isStored_iff.mpr ⟨hcol, d.2, ht⟩, hpd⟩
  · rintro ⟨p, hp, hst, rfl⟩
    obtain ⟨hcol, t, ht⟩ := isStored_iff.mp hst
    exact List.mem_map.mpr ⟨_, stored_mem hp hcol ht, rfl⟩

theorem createdColumns_nodup (h : m.cls.Valid T) :
    ((createdTable m.cls).columns.map (·.1)).Nodup := by
  refine List.Nodup.of_map fold ?_
  rw [List.map_map]
  exact storedColumns_nodup h

/-- A column of the row of the model is read when its property is. -/
theorem columnReads_iff (h : m.cls.Valid T) (hA : AllBacked m.cls.chain (properties m.cls.chain))
    (hp : p ∈ properties m.cls.chain) (hst : p.isStored = true) :
    ColumnReads F m.cls (storedRow R (createdTable m.cls) m) p.column ↔ PropertyReads F R m p := by
  obtain ⟨ivar, hivar⟩ := Option.isSome_iff_exists.mp (hA p hp (isStored_iff.mp hst).1)
  unfold ColumnReads PropertyReads
  rw [storedRow_cell h (created_tableOf h) hp hst]
  refine forall_congr' fun _ => ?_
  cases m.value p.column <;> simp [hivar, objectForColumn]

/-- The instance variable of the property holds what is read back of its value. -/
theorem column_comesBack {r : Row} {names : List String}
    (hivar : getInstanceVariable m.cls.chain p.column = some ⟨p.column, p.typeEncoding⟩)
    (hcell : r (fold p.column) = storedCell R p v) (hc : p.column ∈ names) :
    (ColumnReads F m.cls r p.column ∧
        ∃ w, readValue F m.cls names r p.column = some w ∧ w.isEqual v = true) ↔
      ComesBack F R m.cls p v := by
  unfold ColumnReads ComesBack readBack readValue setOfColumn
  rw [if_pos hc, hcell]
  by_cases hresponds : F.respondsToSelector m.cls (selectorOfColumn p.column) = true
  · cases hvalue : objectForColumn (storedCell R p v) with
    | none => simp [hresponds, hivar]
    | some value =>
        have hsuits : (∃ o, modelValue F p.typeEncoding value = .ok o) ↔
            Suits F p.typeEncoding value := modelValue_ok_iff
        cases hmodel : modelValue F p.typeEncoding value with
        | error e =>
            rw [hmodel] at hsuits
            have hno : ¬ Suits F p.typeEncoding value := fun h => by
              obtain ⟨o, ho⟩ := hsuits.mpr h
              cases ho
            simp [hresponds, hivar, hno, hmodel]
        | ok o =>
            rw [hmodel] at hsuits
            simp [hresponds, hivar, hsuits.mp ⟨o, rfl⟩, hmodel]
  · simp [hresponds]

theorem createTable_run (h : m.cls.Valid T) (hfresh : db (fold T) = none) :
    createTable R m.cls db =
      (.ok (), Function.update db (fold T) (some (createdTable m.cls))) := by
  have hown : Option.or none m.cls.getTableName = some T := h.table
  obtain ⟨sql, hsql, hst⟩ := createTableSQL_prepare h.creates h.name hown
  have hexec : Sql.exec R.conv db
      (.create T (storedColumns m.cls.chain) (getPrimaryKeys m.cls.chain)) [] =
      some (Function.update db (fold T) (some (createdTable m.cls))) := by
    rw [Sql.exec, hfresh, if_neg (by simp), if_pos h.creates.creatable]
    rfl
  rw [createTable, createTableSQL, hsql]
  exact Action.bind_ok (executeUpdate_done hst (Nat.le_refl 0) hexec)

/-- What a database that has no row of the class answers. -/
theorem query_empty (h : m.cls.Valid T) (hrows : queriedRows db T = []) :
    query F R m.cls db = (.ok [], db) := by
  rw [query_run h.table h.name, hrows]
  rfl

/-- **The round trip** reads the row of the model, when that is stored and the name of its table is
not blank. -/
theorem roundTrip_stored (h : m.cls.Valid T) (hfresh : db (fold T) = none)
    (hA : AllBacked m.cls.chain (properties m.cls.chain)) (hst : Storable m)
    (hne : insertBindings R m (properties m.cls.chain) ≠ [])
    (hblank : checkStringIsEmpty T = false) :
    ∃ db', roundTrip F R m db = (executeResult F m.cls
      ((createdTable m.cls).columns.map (·.1)) [storedRow R (createdTable m.cls) m], db') := by
  have hself : Function.update db (fold T) (some (createdTable m.cls)) (fold T) =
      some (createdTable m.cls) := Function.update_self ..
  have hinsert : insertToDBWithModel R m _ = _ :=
    insert_run (R := R) h hA hself (created_tableOf h) hst hne
  rw [roundTrip, Action.bind_ok (createTable_run h hfresh), Action.bind_ok hinsert,
    query_run h.table h.name]
  refine ⟨_, Prod.ext ?_ rfl⟩
  simp [queriedColumns, queriedRows, hblank, createdTable]

/-- A model that is not stored, or whose table has a blank name, is not read. -/
theorem roundTrip_lost (h : m.cls.Valid T) (hfresh : db (fold T) = none)
    (hlost : ¬ (AllBacked m.cls.chain (properties m.cls.chain) ∧ Storable m ∧
      checkStringIsEmpty T = false)) (inst : Instance) (db' : Db) :
    roundTrip F R m db ≠ (.ok [inst], db') := by
  intro hrun
  have hself : Function.update db (fold T) (some (createdTable m.cls)) (fold T) =
      some (createdTable m.cls) := Function.update_self ..
  rw [roundTrip, Action.bind_ok (createTable_run h hfresh)] at hrun
  -- a query that finds no row
  have hnone : ∀ {db₁ : Db}, queriedRows db₁ T = [] → query F R m.cls db₁ ≠ (.ok [inst], db') :=
    fun hrows hquery => by
      rw [query_empty h hrows] at hquery
      cases hquery
  by_cases hA : AllBacked m.cls.chain (properties m.cls.chain)
  · by_cases hst : Storable m
    · have hblank : checkStringIsEmpty T = true := by
        simpa [hA, hst] using hlost
      rw [Action.bind_run] at hrun
      split at hrun
      · exact hnone (if_pos hblank) hrun
      · cases hrun
    · -- the insert names a column that the table does not have
      simp only [Storable, not_forall] at hst
      obtain ⟨q, hq, hcol, hv, hst⟩ := hst
      have hhas := created_has_not h hq hcol (Bool.not_eq_true _ ▸ hst)
      have hinsert : insertToDBWithModel R m _ = _ := insert_rejected h hA hself hq hcol hv hhas
      rw [Action.bind_ok hinsert] at hrun
      refine hnone ?_ hrun
      simp [queriedRows, createdTable]
  · have hown : Option.or none m.cls.getTableName = some T := h.table
    have hinsert (db₁ : Db) : insertToDBWithModel R m db₁ = (.error .invalidArgument, db₁) :=
      executeBuilt_error (createInsertSQL_error (R := R) false hown hA) db₁
    rw [Action.bind_error (hinsert _)] at hrun
    cases hrun

section Survival

variable (h : m.cls.Valid T) (hp : p ∈ properties m.cls.chain) (hst : p.isStored = true)
  (hivar : getInstanceVariable m.cls.chain p.column = some ⟨p.column, p.typeEncoding⟩)
  (hv : m.value p.column = some v) (hfresh : db (fold T) = none)
include h hp hst hivar hv

/-- What the query of a stored model reads of the property. -/
theorem column_readsBack :
    (ColumnReads F m.cls (storedRow R (createdTable m.cls) m) p.column ∧
        ∃ w, readValue F m.cls ((createdTable m.cls).columns.map (·.1))
          (storedRow R (createdTable m.cls) m) p.column = some w ∧ w.isEqual v = true) ↔
      ComesBack F R m.cls p v := by
  have hcell : storedRow R (createdTable m.cls) m (fold p.column) = storedCell R p v := by
    rw [storedRow_cell h (created_tableOf h) hp hst, hv, Option.map_some, Option.getD_some]
  exact column_comesBack hivar hcell ((mem_createdColumns p.column).mpr ⟨p, hp, hst, rfl⟩)

omit h hivar in
theorem insertBindings_ne : insertBindings R m (properties m.cls.chain) ≠ [] :=
  List.ne_nil_of_mem (mem_insertBindings.mpr
    ⟨p, hp, (isStored_iff.mp hst).1, rfl, v, hv, rfl⟩ : (p.column, p.encode R v) ∈ _)

include hfresh

/-- **A value survives** exactly when the model is stored, its other columns are read and the value
comes back. -/
theorem survives_iff_comesBack :
    Survives F R m p v db ↔ StoredAndRead F R T m p ∧ ComesBack F R m.cls p v := by
  constructor
  · rintro ⟨inst, db', hrun, w, hw, hequal⟩
    obtain ⟨hA, hstorable, hblank⟩ : AllBacked m.cls.chain (properties m.cls.chain) ∧
        Storable m ∧ checkStringIsEmpty T = false :=
      by_contra fun hlost => roundTrip_lost h hfresh hlost inst db' hrun
    obtain ⟨db'', hstored⟩ := roundTrip_stored (F := F) h hfresh hA hstorable
      (insertBindings_ne (R := R) hp hst hv) hblank
    have hread := (Prod.mk.inj (hstored.symm.trans hrun)).1
    have hall := executeResult_ok_iff.mp ⟨_, hread⟩
    have hinst := Except.ok.inj ((executeResult_ok (createdColumns_nodup h) hall).symm.trans hread)
    obtain rfl : readValue F m.cls _ _ = inst := (List.cons.inj hinst).1
    have hreads : ∀ q ∈ properties m.cls.chain, q.isStored = true →
        ColumnReads F m.cls (storedRow R (createdTable m.cls) m) q.column := fun q hq hqst =>
      hall _ (List.mem_singleton.mpr rfl) _ ((mem_createdColumns _).mpr ⟨q, hq, hqst, rfl⟩)
    exact ⟨⟨hA, hstorable, hblank, fun q hq hqst _ =>
      (columnReads_iff h hA hq hqst).mp (hreads q hq hqst)⟩,
      (column_readsBack h hp hst hivar hv).mp ⟨hreads p hp hst, w, hw, hequal⟩⟩
  · rintro ⟨⟨hA, hstorable, hblank, hothers⟩, hback⟩
    obtain ⟨db', hstored⟩ := roundTrip_stored (F := F) h hfresh hA hstorable
      (insertBindings_ne (R := R) hp hst hv) hblank
    obtain ⟨hpread, w, hw, hequal⟩ := (column_readsBack h hp hst hivar hv).mpr hback
    refine ⟨_, db', hstored.trans (Prod.ext (executeResult_ok (createdColumns_nodup h) ?_) rfl),
      w, hw, hequal⟩
    intro r hr c hc
    obtain rfl := List.mem_singleton.mp hr
    obtain ⟨q, hq, hqst, rfl⟩ := (mem_createdColumns c).mp hc
    by_cases hqp : q = p
    · exact hqp ▸ hpread
    · exact (columnReads_iff h hA hq hqst).mpr (hothers q hq hqst hqp)

end Survival

section Declared

variable (h : m.cls.Valid T) (hp : p ∈ properties m.cls.chain) (hdeclares : Declares F m p v)
  (harchive : F.unarchiveObjectWithData (R.archivedData v) = some (some v))
  (hfresh : db (fold T) = none)
include hdeclares

theorem Declares.isStored : p.isStored = true :=
  isStored_iff.mpr ⟨hdeclares.column, _, hdeclares.type.columnType⟩

include h hp harchive hfresh

/-- A value that survives belongs to a stored model, whose other columns are read, and reads
back. -/
theorem Survives.when (hsurvives : Survives F R m p v db) : SurvivesWhen F R T m p v := by
  obtain ⟨hstored, hback⟩ := (survives_iff_comesBack h hp hdeclares.isStored hdeclares.ivar
    hdeclares.value hfresh).mp hsurvives
  exact ⟨hstored.allBacked, hstored.storable, hstored.named, hstored.others,
    (comesBack_iff hdeclares harchive).mp hback⟩

/-- A value that reads back survives when its model is stored and the other columns are read. -/
theorem SurvivesWhen.survives (hwhen : SurvivesWhen F R T m p v) : Survives F R m p v db :=
  (survives_iff_comesBack h hp hdeclares.isStored hdeclares.ivar hdeclares.value hfresh).mpr
    ⟨⟨hwhen.allBacked, hwhen.storable, hwhen.named, hwhen.others⟩,
      (comesBack_iff hdeclares harchive).mpr hwhen.readsBack⟩

end Declared

/-- **An object value survives** exactly when the model is stored, the other columns are read and
the value reads back. -/
theorem survives_iff (F : Foundation) (R : Runtime) (m : Model) (p : Property) (v : Obj) (db : Db)
    (h : m.cls.Valid T) (hp : p ∈ properties m.cls.chain) (hdeclares : Declares F m p v)
    (harchive : F.unarchiveObjectWithData (R.archivedData v) = some (some v))
    (hfresh : db (fold T) = none) :
    Survives F R m p v db ↔ SurvivesWhen F R T m p v :=
  ⟨fun hsurvives => hsurvives.when h hp hdeclares harchive hfresh,
    fun hwhen => hwhen.survives h hp hdeclares harchive hfresh⟩

/-- A value that survives, of a class that is read by its archive, is of none of the classes that
the reader treats on their own. -/
theorem SurvivesWhen.class_free (hwhen : SurvivesWhen F R T m p v) (hc : declaredClass p = c)
    (hne : c ≠ "") (hstring : c ≠ "NSString")
    (hresponds : F.respondsToSelector m.cls (selectorOfColumn p.column) = true)
    (hv : v ≠ .data []) :
    ∀ d ∈ "NSString" :: "NSNumber" :: unsupportedClasses, F.isSubclassOfClass c d = false := by
  have hback := hwhen.readsBack
  rw [ReadsBack, if_pos ⟨hresponds, hv⟩, hc, Kept, if_neg hne, if_neg hstring] at hback
  exact hback.1

/-! ### Dictionaries and numbers -/

/-- The dictionary of a book. -/
def infoDic : Property := ⟨"infoDic", "@\"NSDictionary\"", "infoDic"⟩

/-- The dictionary of a book survives. -/
theorem book_infoDic_survives : bookClass.Valid "tb_books" ∧
    Survives demoFoundation demoRuntime book infoDic (.other "NSDictionary" "{}")
      fun _ => none := by
  have hdic : infoDic ∈ properties bookClass.chain := by decide +kernel
  refine ⟨bookClass_valid, (survives_iff (T := "tb_books") demoFoundation demoRuntime book infoDic
    _ _ bookClass_valid hdic ?_ (by decide +kernel) rfl).mpr ?_⟩
  · exact ⟨by decide +kernel, ⟨by decide, by decide⟩, by decide +kernel, by decide +kernel,
      fun _ => ⟨by decide +kernel, by decide +kernel⟩⟩
  · have hkept : Kept demoFoundation "NSDictionary" (.other "NSDictionary" "{}") := by
      rw [Kept, if_neg (by decide), if_neg (by decide)]
      exact ⟨by decide +kernel, fun b hb => (by cases hb)⟩
    have hresponds : demoFoundation.respondsToSelector bookClass
        (selectorOfColumn infoDic.column) = true := by decide +kernel
    have hclass : declaredClass infoDic = "NSDictionary" := by decide +kernel
    refine ⟨by decide +kernel, ?_, by decide +kernel, by decide +kernel, ?_⟩
    · unfold Storable
      decide +kernel
    · rw [ReadsBack, if_pos ⟨hresponds, by simp⟩, hclass]
      exact hkept

/-- A class with a number object, below `NBBaseDBTableModel`. -/
def ticketClass : ModelClass where
  chain :=
    [{ name := "Ticket"
       properties :=
        [⟨"_pk_ticketId", "@\"NSString\"", "ticketId"⟩, ⟨"price", "@\"NSNumber\"", "price"⟩]
       ivars := [⟨"_ticketId", "@\"NSString\""⟩, ⟨"_price", "@\"NSNumber\""⟩] },
      { name := "NBBaseDBTableModel", properties := [], ivars := [] }]
  getTableName := some "tb_tickets"
  ivar_word := by decide

/-- A ticket at the price of 7. -/
def ticket : Model := .ofIvars ticketClass fun key =>
  if key = "_ticketId" then some (.string "NSString" "1") else some (.number (.integer 7))

def price : Property := ⟨"price", "@\"NSNumber\"", "price"⟩

theorem ticketClass_valid : ticketClass.Valid "tb_tickets" where
  table := rfl
  name := by decide +kernel
  ordinary := by decide +kernel
  columns := by decide +kernel
  distinct := by decide +kernel
  keys := by decide +kernel
  stores := by decide +kernel

/-- The price of a ticket is stored as its archive, and the reader asks the archive for a number. -/
theorem ticket_price_lost : ticketClass.Valid "tb_tickets" ∧
    Declares demoFoundation ticket price (.number (.integer 7)) ∧
    demoFoundation.unarchiveObjectWithData
      (demoRuntime.archivedData (.number (.integer 7))) = some (some (.number (.integer 7))) ∧
    ¬ Survives demoFoundation demoRuntime ticket price (.number (.integer 7)) fun _ => none := by
  have harchive : demoFoundation.unarchiveObjectWithData
      (demoRuntime.archivedData (.number (.integer 7))) = some (some (.number (.integer 7))) := by
    decide +kernel
  have hdeclares : Declares demoFoundation ticket price (.number (.integer 7)) :=
    ⟨by decide +kernel, ⟨by decide, by decide⟩, by decide +kernel, by decide +kernel,
      fun _ => ⟨by decide +kernel, by decide +kernel⟩⟩
  have hprice : price ∈ properties ticketClass.chain := by decide +kernel
  refine ⟨ticketClass_valid, hdeclares, harchive, fun hsurvives => ?_⟩
  have hvalid : ticket.cls.Valid "tb_tickets" := ticketClass_valid
  have hfresh : (fun _ => none : Db) (fold "tb_tickets") = none := rfl
  have hwhen := hsurvives.when hvalid hprice hdeclares harchive hfresh
  have hresponds : demoFoundation.respondsToSelector ticketClass
      (selectorOfColumn price.column) = true := by decide +kernel
  have hclass : declaredClass price = "NSNumber" := by decide +kernel
  have hfree := hwhen.class_free hclass (by decide) (by decide) hresponds (by simp)
  exact absurd (hfree "NSNumber" (by simp)) (by decide)

end NBDataBase
