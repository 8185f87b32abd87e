import NBDataBase.Orm.Encoding
import NBDataBase.Orm.Where

/-!
# Orm — columns of the table class

Whether the writes of a whole model to the table of a class name columns of that table only.

* `Entry`: the inserts that walk the class of the model, the insert that walks the table class,
  and the update.  `Builds`: the statements of an entry.
* `Supplies`: the properties an entry takes a value from.
* `declares_iff`: an entry names declared columns only exactly when each property it takes a value
  from has its column in `CREATE TABLE`, or its statements cannot be built or read at all.
-/

namespace NBDataBase
open Sql (Name)

/-! ### Entries -/

/-- The ways to write a whole model to the table of a class. -/
inductive Entry where
  | insert | insertTable | update
  deriving DecidableEq

/-- The statements of an entry that writes `m` to the table of `B`. -/
inductive Builds (R : Runtime) (m : Model) :
    Entry → ModelClass → Except Fault (Option (String × List Obj)) → Prop
  /-- `insertToDBWithModel:` and its variants for the model's own table. -/
  | insert (replace : Bool) : Builds R m .insert m.cls (createInsertSQL R m none replace)
  /-- `insertToDBWithDataArray:table:update:` and `…table:columns:replace:`. -/
  | insertArray (B : ModelClass) (replace : Bool) :
      Builds R m .insert B (createInsertSQLWithColumns R m B.getTableName none replace)
  /-- `insertToDBWithModel:table:replace:` and `insertToDBWithDataArray:table:replace:`. -/
  | insertTable (B : ModelClass) (replace : Bool) :
      Builds R m .insertTable B (createInsertSQLWithModelAndBeginClass R m B replace)
  /-- `updateWithModel:table:set:where:` and `updateWithDataArray:table:set:`, without sets. -/
  | update (B : ModelClass) (condition : Option Where) :
      Builds R m .update B (createUpdateSQLWithModelAndTableClass R m B none condition)

namespace Entry

/-- The properties whose instance variables the loop of the entry looks up. -/
def walk (m : Model) (B : ModelClass) : Entry → List Property
  | insert => properties m.cls.chain
  | insertTable => properties B.chain
  | update => properties m.cls.chain

/-- The entry takes a value from the property; an update leaves out the primary key. -/
def Supplies (e : Entry) (m : Model) (B : ModelClass) (p : Property) : Prop :=
  p ∈ e.walk m B ∧ isColumn p.name = true ∧ (e = update → isPrimaryKey p.name = false) ∧
    (m.value p.column).isSome = true

/-- The statements of the entry are built, and name columns by what SQLite takes as a name. -/
def Readable (e : Entry) (m : Model) (B : ModelClass) : Prop :=
  AllBacked m.cls.chain (e.walk m B) ∧ ∀ p, e.Supplies m B p → Name p.column

end Entry

/-- The columns `createTableSQL` declares. -/
def declaredColumns (B : ModelClass) : List String := (storedColumns B.chain).map (·.1)

/-! ### What an entry assigns -/

variable {R : Runtime} {m : Model} {B : ModelClass} {T c : String} {w : Obj} {p : Property}

/-- A column an insert binds is that of a property it takes a value from. -/
theorem insertBindings_column {ps : List Property} :
    (∃ w, (c, w) ∈ insertBindings R m ps) ↔
      ∃ p ∈ ps, isColumn p.name = true ∧ p.column = c ∧ (m.value p.column).isSome = true := by
  simp only [mem_insertBindings]
  constructor
  · rintro ⟨w, p, hp, hcol, rfl, v, hv, -⟩
    exact ⟨p, hp, hcol, rfl, by rw [hv]; rfl⟩
  · rintro ⟨p, hp, hcol, rfl, hv⟩
    obtain ⟨v, hv⟩ := Option.isSome_iff_exists.mp hv
    exact ⟨p.encode R v, p, hp, hcol, rfl, v, hv, rfl⟩

theorem updateBindings_column {ps : List Property} :
    (∃ w, (c, w) ∈ updateBindings m ps) ↔ ∃ p ∈ ps, isColumn p.name = true ∧
      isPrimaryKey p.name = false ∧ p.column = c ∧ (m.value p.column).isSome = true := by
  simp only [mem_updateBindings]
  constructor
  · rintro ⟨w, ⟨p, hp, hcol, hkey, rfl⟩, hv⟩
    exact ⟨p, hp, hcol, hkey, rfl, by rw [hv]; rfl⟩
  · rintro ⟨p, hp, hcol, hkey, rfl, hv⟩
    obtain ⟨v, hv⟩ := Option.isSome_iff_exists.mp hv
    exact ⟨v, ⟨p, hp, hcol, hkey, rfl⟩, hv⟩

/-- An update is built and read under some condition. -/
theorem assigns_update_some (hN : Name T) (hA : AllBacked m.cls.chain (properties m.cls.chain))
    (hn : ∀ e ∈ updateBindings m (properties m.cls.chain), Name e.1)
    (hmem : (c, w) ∈ updateBindings m (properties m.cls.chain)) :
    ∃ condition,
      Assigns (createUpdateSQLWithModelAndTableName R m (some T) none condition) c w := by
  let dic : NSDictionary WhereValue := ⟨[(c, .scalar w)], by simp⟩
  have hc : Name c := hn _ hmem
  have hatoms : dictionaryAtoms dic.entries ≠ [] := by simp [dic, dictionaryAtoms, entryAtom]
  have hclause := dictionaryToSqlWhere_isClause hatoms (by simpa [dic] using hc)
  have hne : (updateBindings m (properties m.cls.chain)).map (·.1) ≠ [] := by
    simpa using List.ne_nil_of_mem hmem
  have hnames : ∀ s ∈ (updateBindings m (properties m.cls.chain)).map (·.1), Name s :=
    fun s hs => by
      obtain ⟨e, he, rfl⟩ := List.mem_map.mp hs
      exact hn e he
  refine ⟨some (.dictionary dic), _,
    (updateBindings m (properties m.cls.chain)).map (·.2) ++ (dictionaryToSqlWhere dic).2, _, ?_,
    prepare_update hN hne hnames hclause, ?_⟩
  · have hset : setList m none = _ := updateLoop_run hA
    have hentries : dic.entries.length > 0 := by simp [dic]
    have hrun := createUpdateSQL_dictionary (R := R) (T := T) hset hentries
    exact hrun
  · rw [assigned, zip_fst_snd]
    exact hmem

/-! ### Which columns an entry names -/

/-- Bindings of the columns of some properties, by these. -/
theorem supplied_iff {l : List (String × Obj)} {S : Property → Prop}
    (h : ∀ c, (∃ w, (c, w) ∈ l) ↔ ∃ p, S p ∧ p.column = c) :
    ((∀ x ∈ l, Name x.1) ∧ ∃ w, (c, w) ∈ l) ↔
      (∀ p, S p → Name p.column) ∧ ∃ p, S p ∧ p.column = c := by
  rw [h c]
  refine and_congr_left fun _ => ⟨fun hn p hp => ?_, fun hn x hx => ?_⟩
  · obtain ⟨w, hw⟩ := (h p.column).mpr ⟨p, hp, rfl⟩
    have hname := hn _ hw
    exact hname
  · obtain ⟨p, hp, hpx⟩ := (h x.1).mp ⟨x.2, hx⟩
    exact hpx ▸ hn p hp

/-- What an insert assigns that walks the properties an entry looks up. -/
theorem insert_reads_iff {e : Entry} (he : e ≠ .update) :
    (AllBacked m.cls.chain (e.walk m B) ∧ (∀ x ∈ insertBindings R m (e.walk m B), Name x.1) ∧
      ∃ w, (c, w) ∈ insertBindings R m (e.walk m B)) ↔
    e.Readable m B ∧ ∃ p, e.Supplies m B p ∧ p.column = c := by
  rw [Entry.Readable, and_assoc]
  refine and_congr_right fun _ => supplied_iff fun c => ?_
  rw [insertBindings_column]
  constructor
  · rintro ⟨p, hp, hcol, rfl, hv⟩
    exact ⟨p, ⟨hp, hcol, fun h => absurd h he, hv⟩, rfl⟩
  · rintro ⟨p, ⟨hp, hcol, -, hv⟩, rfl⟩
    exact ⟨p, hp, hcol, rfl, hv⟩

/-- What an update assigns. -/
theorem update_reads_iff :
    (AllBacked m.cls.chain (properties m.cls.chain) ∧
      (∀ x ∈ updateBindings m (properties m.cls.chain), Name x.1) ∧
      ∃ w, (c, w) ∈ updateBindings m (properties m.cls.chain)) ↔
    Entry.update.Readable m B ∧ ∃ p, Entry.update.Supplies m B p ∧ p.column = c := by
  rw [Entry.Readable, and_assoc]
  refine and_congr_right fun _ => supplied_iff fun c => ?_
  rw [updateBindings_column]
  constructor
  · rintro ⟨p, hp, hcol, hkey, rfl, hv⟩
    exact ⟨p, ⟨hp, hcol, fun _ => hkey, hv⟩, rfl⟩
  · rintro ⟨p, ⟨hp, hcol, hkey, hv⟩, rfl⟩
    exact ⟨p, hp, hcol, hkey rfl, rfl, hv⟩

/-- An entry that is read gives a value to the column of each property it takes a value from, and
to no other. -/
theorem builds_assigns_iff (hT : B.getTableName = some T) (hN : Name T) (e : Entry) :
    (∃ built, Builds R m e B built ∧ ∃ w, Assigns built c w) ↔
      e.Readable m B ∧ ∃ p, e.Supplies m B p ∧ p.column = c := by
  cases e with
  | insert =>
      rw [← insert_reads_iff (R := R) (by decide)]
      constructor
      · rintro ⟨built, hbuilds, w, hw⟩
        cases hbuilds with
        | insert replace =>
            have hown : Option.or none m.cls.getTableName = some T := hT
            obtain ⟨hA, hn, hmem⟩ := (assigns_insert_iff hown hN replace).mp hw
            exact ⟨hA, hn, w, hmem⟩
        | insertArray _ replace =>
            have hor : B.getTableName.or m.cls.getTableName = some T := by rw [hT]; rfl
            obtain ⟨hA, hn, hmem⟩ := (assigns_insert_iff hor hN replace).mp hw
            exact ⟨hA, hn, w, hmem⟩
      · rintro ⟨hA, hn, w, hmem⟩
        have hor : B.getTableName.or m.cls.getTableName = some T := by rw [hT]; rfl
        exact ⟨_, .insertArray B false, w, (assigns_insert_iff hor hN false).mpr ⟨hA, hn, hmem⟩⟩
  | insertTable =>
      rw [← insert_reads_iff (R := R) (by decide)]
      constructor
      · rintro ⟨built, hbuilds, w, hw⟩
        cases hbuilds with
        | insertTable _ replace =>
            obtain ⟨hA, hn, hmem⟩ := (assigns_beginClass_iff hT hN replace).mp hw
            exact ⟨hA, hn, w, hmem⟩
      · rintro ⟨hA, hn, w, hmem⟩
        exact ⟨_, .insertTable B false, w, (assigns_beginClass_iff hT hN false).mpr ⟨hA, hn, hmem⟩⟩
  | update =>
      rw [← update_reads_iff]
      constructor
      · rintro ⟨built, hbuilds, w, hw⟩
        cases hbuilds with
        | update _ condition =>
            rw [createUpdateSQLWithModelAndTableClass, hT] at hw
            obtain ⟨hA, hn, hmem⟩ := assigns_update hN hw
            exact ⟨hA, hn, w, hmem⟩
      · rintro ⟨hA, hn, w, hmem⟩
        obtain ⟨condition, hw⟩ := assigns_update_some (R := R) hN hA hn hmem
        refine ⟨_, .update B condition, w, ?_⟩
        rwa [createUpdateSQLWithModelAndTableClass, hT]

/-- **An entry names declared columns only** exactly when each property it takes a value from has
its column in `CREATE TABLE`, unless its statements cannot be built or read. -/
theorem declares_iff (R : Runtime) (m : Model) (hT : B.getTableName = some T) (hN : Name T)
    (e : Entry) :
    (∀ built, Builds R m e B built → ∀ c w, Assigns built c w → c ∈ declaredColumns B) ↔
      (e.Readable m B → ∀ p, e.Supplies m B p → p.column ∈ declaredColumns B) := by
  constructor
  · intro h hread p hp
    obtain ⟨built, hbuilds, w, hw⟩ := (builds_assigns_iff (R := R) hT hN e).mpr
      ⟨hread, p, hp, rfl⟩
    exact h built hbuilds _ w hw
  · intro h built hbuilds c w hw
    obtain ⟨hread, p, hp, rfl⟩ := (builds_assigns_iff hT hN e).mp ⟨built, hbuilds, w, hw⟩
    exact h hread p hp

/-! ### A property that is not stored -/

/-- A class below `NBBaseDBTableModel` with a structure among its properties. -/
def placeClass : ModelClass where
  chain :=
    [{ name := "Place"
       properties :=
        [⟨"_pk_placeId", "@\"NSString\"", "placeId"⟩, ⟨"center", "{CGPoint=dd}", "center"⟩]
       ivars := [⟨"_placeId", "@\"NSString\""⟩, ⟨"_center", "{CGPoint=dd}"⟩] },
      { name := "NBBaseDBTableModel", properties := [], ivars := [] }]
  getTableName := some "tb_places"
  ivar_word := by decide

/-- A place; its centre is an `NSValue` to key-value coding. -/
def place : Model := .ofIvars placeClass fun key =>
  if key = "_placeId" then some (.string "NSString" "1")
  else some (.other "NSConcreteValue" "NSPoint: {0, 0}")

/-- The insert of a place names the column of its centre, which its table does not have. -/
theorem place_insert_undeclared : ∃ built, Builds demoRuntime place .insert placeClass built ∧
    ∃ w, Assigns built "_center" w ∧ "_center" ∉ declaredColumns placeClass := by
  have hread : Entry.insert.Readable place placeClass := by
    refine ⟨by decide +kernel, fun p hp => ?_⟩
    have hall : ∀ p ∈ properties placeClass.chain, Name p.column := by decide +kernel
    exact hall p hp.1
  have hsupplies : Entry.insert.Supplies place placeClass ⟨"center", "{CGPoint=dd}", "center"⟩ :=
    ⟨by decide +kernel, by decide +kernel, by decide, by decide +kernel⟩
  obtain ⟨built, hbuilds, w, hw⟩ := (builds_assigns_iff (R := demoRuntime) (m := place)
    (B := placeClass) (c := "_center") (T := "tb_places") rfl (by decide +kernel) .insert).mpr
      ⟨hread, _, hsupplies, by decide +kernel⟩
  exact ⟨built, hbuilds, w, hw, by decide +kernel⟩

/-- Every entry of a book names declared columns only. -/
theorem book_declares : bookClass.getTableName = some "tb_books" ∧
    ∀ built, Builds demoRuntime book .update bookClass built →
      ∀ c w, Assigns built c w → c ∈ declaredColumns bookClass := by
  refine ⟨rfl,
    (declares_iff demoRuntime book (T := "tb_books") rfl (by decide +kernel) .update).mpr ?_⟩
  have hall : ∀ p ∈ properties bookClass.chain, p.column ∈ declaredColumns bookClass := by
    decide +kernel
  exact fun _ p hp => hall p hp.1

end NBDataBase
