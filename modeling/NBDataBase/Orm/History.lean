import NBDataBase.Orm.Migration
import NBDataBase.Orm.Reading

/-!
# Orm — histories of a class

What `query:` reads after any sequence of versions of a model class.  Each version opens the
database, so that `updateTableInDB` runs, and inserts models.

* `Version`, `history`, `run`: the versions of the class of one table, and what they do.
* `Readable`: the latest class has an instance variable for every column it responds to, and every
  value of every row suits it.
* `StepSuits`: what a step adds is readable.  `Readable.step`: such a step keeps the table
  readable.
* `history_reads`: after a history of such steps, `query:` of the latest class raises nothing, and
  sets only instance variables that columns are called as.
-/

namespace NBDataBase.History
open Sql

/-! ### Versions -/

/-- A version of the class opens the database with its registered classes, the others of which have
other tables. -/
structure Opening (T : String) where
  cls : ModelClass
  creates : cls.Creates T
  registed : List (Option ModelClass)
  registers : some cls ∈ registed
  others : ∀ other, some other ∈ registed → other = cls ∨
    ∃ U, other.Creates U ∧ fold U ≠ fold T

/-- An opening and the models that are inserted after it. -/
structure Version (T : String) extends Opening T where
  written : List { m : Model // m.cls = cls }

inductive Step (T : String) where
  | opened (v : Opening T)
  | wrote (m : { m : Model // m.cls.getTableName = some T })

def Version.steps {T : String} (v : Version T) : List (Step T) :=
  .opened v.toOpening :: v.written.map fun m => .wrote ⟨m.1, by rw [m.2, v.creates.table]⟩

/-- What the versions of a class do, one after another. -/
def history {T : String} (vs : List (Version T)) : List (Step T) := vs.flatMap Version.steps

section

variable (R : Runtime) (order : KeyOrder)

/-- A step leaves what it did to the database, also when it raised. -/
def step {T : String} (db : Db) : Step T → Db
  | .opened v => (updateTableInDB R order v.registed db).2
  | .wrote m => (insertToDBWithModel R m.1 db).2

/-- The database after some steps. -/
def run {T : String} (steps : List (Step T)) (db : Db) : Db := steps.foldl (step R order) db

end

/-! ### Tables that can be read -/

section

variable (F : Foundation) (latest : ModelClass)

/-- The class does not respond to the selector of the column, or has the instance variable. -/
def Known (c : String) : Prop :=
  F.respondsToSelector latest (selectorOfColumn c) = true →
    (getInstanceVariable latest.chain c).isSome = true

/-- The value of the column suits the instance variable of the class. -/
def ValueSuits (c : String) (value : Value) : Prop :=
  F.respondsToSelector latest (selectorOfColumn c) = true →
    ∀ ivar, getInstanceVariable latest.chain c = some ivar →
      ∀ o, objectForColumn value = some o → Suits F ivar.typeEncoding o

/-- The class reads every row of the table. -/
structure Readable (tbl : Table) : Prop where
  known : ∀ d ∈ tbl.columns, Known F latest d.1
  suits : ∀ r ∈ tbl.rows, ∀ d ∈ tbl.columns, ValueSuits F latest d.1 (r (fold d.1))

/-- What a step adds to the table is readable: the columns that the table does not have yet, and
what an insert binds for a column. -/
def StepSuits (R : Runtime) {T : String} (db : Db) : Step T → Prop
  | .opened v => ∀ d ∈ storedColumns v.cls.chain,
      (∀ tbl, db (fold T) = some tbl → tbl.has d.1 = false) → Known F latest d.1
  | .wrote m => ∀ tbl, db (fold T) = some tbl →
    ∀ e ∈ insertBindings R m.1 (properties m.1.cls.chain),
      ∀ d ∈ tbl.columns, fold d.1 = fold e.1 →
        ValueSuits F latest d.1 ((tbl.affinity d.1).apply R.conv (bindObject R e.2))

instance (c : String) : Decidable (Known F latest c) := by unfold Known; infer_instance

instance (c : String) (value : Value) : Decidable (ValueSuits F latest c value) :=
  inferInstanceAs (Decidable (_ → ∀ ivar ∈ getInstanceVariable latest.chain c,
    ∀ o ∈ objectForColumn value, Suits F ivar.typeEncoding o))

instance (R : Runtime) {T : String} (db : Db) : (s : Step T) → Decidable (StepSuits F latest R db s)
  | .opened v => inferInstanceAs (Decidable (∀ d ∈ storedColumns v.cls.chain,
      (∀ tbl ∈ db (fold T), tbl.has d.1 = false) → Known F latest d.1))
  | .wrote m => inferInstanceAs (Decidable (∀ tbl ∈ db (fold T),
      ∀ e ∈ insertBindings R m.1 (properties m.1.cls.chain), ∀ d ∈ tbl.columns,
        fold d.1 = fold e.1 →
          ValueSuits F latest d.1 ((tbl.affinity d.1).apply R.conv (bindObject R e.2))))

end

variable {F : Foundation} {latest : ModelClass} {R : Runtime} {order : KeyOrder} {T : String}
  {db db' : Db} {tbl : Table} {c : String} {m : Model} {cls : ModelClass}

theorem columnReads_of (hknown : Known F latest c) {r : Row}
    (hsuits : ValueSuits F latest c (r (fold c))) : ColumnReads F latest r c := by
  intro hresponds
  obtain ⟨ivar, hivar⟩ := Option.isSome_iff_exists.mp (hknown hresponds)
  exact ⟨ivar, hivar, fun o ho => hsuits hresponds ivar hivar o ho⟩

theorem valueSuits_null : ValueSuits F latest c .null := fun _ _ _ _ ho => by cases ho

/-! ### Openings -/

/-- The columns of the class that the table does not have are known. -/
def LacksKnown (F : Foundation) (latest cls : ModelClass) (old : Option Table) : Prop :=
  ∀ d ∈ storedColumns cls.chain, (∀ tbl, old = some tbl → tbl.has d.1 = false) → Known F latest d.1

/-- A table that is not there can be read. -/
def ReadableAt (F : Foundation) (latest : ModelClass) (old : Option Table) : Prop :=
  ∀ tbl, old = some tbl → Readable F latest tbl

/-- **A migration keeps the table readable** when the columns it adds are known. -/
theorem readable_migrated (h : cls.Creates T) {old : Option Table}
    (hold : ReadableAt F latest old) (hlacks : LacksKnown F latest cls old) :
    Readable F latest (migratedTable order cls old) := by
  cases old with
  | none => exact ⟨fun d hd => hlacks d hd fun _ h => (by cases h), fun r hr => (by cases hr)⟩
  | some tbl =>
      have htbl := hold tbl rfl
      have hadded : ∀ d ∈ addedColumns order cls tbl, Known F latest d.1 := fun d hd => by
        obtain ⟨hd, hno⟩ := (mem_addedColumns h).mp hd
        exact hlacks d hd fun tbl' htbl' => Option.some.inj htbl' ▸ hno
      refine ⟨fun d hd => ?_, fun r hr d hd => ?_⟩
      · exact (List.mem_append.mp hd).elim (htbl.known d) (hadded d)
      · obtain ⟨r₀, hr₀, rfl⟩ := List.mem_map.mp hr
        by_cases hnew : fold d.1 ∈ (addedColumns order cls tbl).map fun d => fold d.1
        · -- an added column is NULL
          simp only [hnew, if_true]
          exact valueSuits_null
        · simp only [hnew, if_false]
          refine htbl.suits r₀ hr₀ d ((List.mem_append.mp hd).resolve_right fun hd => hnew ?_)
          exact List.mem_map.mpr ⟨d, hd, rfl⟩

theorem LacksKnown.migrated {old : Option Table} (h : LacksKnown F latest cls old) :
    LacksKnown F latest cls (some (migratedTable order cls old)) := by
  intro d hd hno
  refine h d hd fun tbl htbl => ?_
  subst htbl
  have hno := hno _ rfl
  rw [Bool.eq_false_iff] at hno ⊢
  refine fun hhas => hno ?_
  rw [Table.has_iff] at hhas ⊢
  exact List.map_append ▸ List.mem_append_left _ hhas

theorem collect_snd {α β : Type} {f : α → Action (List β)} {x : α} {xs : List α} {l : List β}
    (h : f x db = (.ok l, db')) :
    (Action.collect f (x :: xs) db).2 = (Action.collect f xs db').2 := by
  have hrun : Action.collect f (x :: xs) db =
      (Action.collect f xs >>= fun l' => return l ++ l') db' := Action.bind_ok h
  rw [hrun, Action.bind_run]
  split <;> simp [*]

/-- The loop over the registered classes keeps the table readable. -/
theorem readable_collect (v : Opening T) {classes : List ModelClass}
    (hclasses : ∀ other ∈ classes, other = v.cls ∨ ∃ U, other.Creates U ∧ fold U ≠ fold T)
    (hold : ReadableAt F latest (db (fold T))) (hlacks : LacksKnown F latest v.cls (db (fold T))) :
    ReadableAt F latest ((Action.collect (updateTable R order) classes db).2 (fold T)) := by
  induction classes generalizing db with
  | nil => exact hold
  | cons cls classes ih =>
      have hrest : ∀ other ∈ classes, other = v.cls ∨ ∃ U, other.Creates U ∧ fold U ≠ fold T :=
        fun other hother => hclasses other (List.mem_cons_of_mem _ hother)
      rcases hclasses cls List.mem_cons_self with rfl | ⟨U, hU, hne⟩
      · obtain ⟨l, db', hrun, hcases⟩ := updateTable_cases v.creates R order db
        rw [collect_snd hrun]
        rcases hcases with rfl | rfl
        · exact ih hrest hold hlacks
        · refine ih hrest ?_ ?_
          · rw [Function.update_self]
            intro tbl htbl
            exact Option.some.inj htbl ▸ readable_migrated v.creates hold hlacks
          · rw [Function.update_self]
            exact hlacks.migrated
      · -- another class, with another table
        obtain ⟨l, db', hrun, hcases⟩ := updateTable_cases hU R order db
        have hsame : db' (fold T) = db (fold T) := by
          rcases hcases with rfl | rfl
          · rfl
          · exact Function.update_of_ne (Ne.symm hne) _ _
        rw [collect_snd hrun]
        exact ih hrest (hsame ▸ hold) (hsame ▸ hlacks)

theorem readable_opened (v : Opening T) (hold : ReadableAt F latest (db (fold T)))
    (hsuits : StepSuits F latest R db (.opened v)) :
    ReadableAt F latest (step R order db (.opened v) (fold T)) := by
  rw [step, updateTableInDB_eq]
  exact readable_collect v (fun other hother =>
    v.others other (List.reduceOption_mem_iff.mp hother))
    hold hsuits

/-! ### Inserts -/

/-- The statement of an insert changes nothing, or appends the row. -/
theorem execute_insert {sql : String} {l : List (String × Obj)}
    (hprep : prepare sql = some (.insert false T (l.map (·.1)) l.length)) :
    (executeUpdate R sql (l.map (·.2)) db).2 = db ∨ ∃ tbl, db (fold T) = some tbl ∧
      (executeUpdate R sql (l.map (·.2)) db).2 = Function.update db (fold T)
        (some { tbl with rows := tbl.rows ++ [rowOf R tbl l] }) := by
  have hparams : Stmt.params (.insert false T (l.map (·.1)) l.length) ≤ (l.map (·.2)).length := by
    simp [Stmt.params]
  cases hexec : exec R.conv db (.insert false T (l.map (·.1)) l.length)
      ((l.map (·.2)).map (bindObject R)) with
  | none => exact .inl (by rw [executeUpdate_failed hprep hparams hexec])
  | some db' =>
      rw [executeUpdate_done hprep hparams hexec]
      cases htbl : db (fold T) with
      | none =>
          simp only [exec, onTable, htbl] at hexec
          cases hexec
      | some tbl =>
          simp only [exec, onTable, htbl, Option.bind_some, insertRow] at hexec
          split at hexec
          · simp only [Bool.false_eq_true, if_false] at hexec
            split at hexec
            · -- a row has the key
              obtain rfl := Option.some.inj hexec
              refine .inl ?_
              show Function.update db (fold T) (some tbl) = db
              rw [← htbl, Function.update_eq_self]
            · obtain rfl := Option.some.inj hexec
              refine .inr ⟨tbl, rfl, ?_⟩
              rw [List.map_map]
              rfl
          · cases hexec

/-- **What an insert does to the database**: nothing, or it appends the row of the model. -/
theorem insert_cases (hT : m.cls.getTableName = some T) (hN : Name T) (R : Runtime) (db : Db) :
    (insertToDBWithModel R m db).2 = db ∨ ∃ tbl, db (fold T) = some tbl ∧
      (insertToDBWithModel R m db).2 = Function.update db (fold T)
        (some { tbl with rows := tbl.rows ++ [storedRow R tbl m] }) := by
  have hown : Option.or none m.cls.getTableName = some T := hT
  rw [insertToDBWithModel, insertToDBWithModelReplace]
  by_cases hA : AllBacked m.cls.chain (properties m.cls.chain)
  · have hrun := createInsertSQL_run (R := R) false hown hA
    by_cases hnil : insertBindings R m (properties m.cls.chain) = []
    · -- nothing to bind: there is no statement
      rw [hnil] at hrun
      exact .inl (by rw [executeBuilt_none hrun])
    · by_cases hn : ∀ e ∈ insertBindings R m (properties m.cls.chain), Name e.1
      · obtain ⟨sql, hsql, hprep⟩ := prepare_insert hN false hnil hn
        rw [hsql] at hrun
        rw [executeBuilt_some hrun]
        exact execute_insert hprep
      · cases hsql : insertText T false (.of (insertBindings R m (properties m.cls.chain))) with
        | none =>
            rw [hsql] at hrun
            exact .inl (by rw [executeBuilt_none hrun])
        | some s =>
            obtain ⟨sql, values⟩ := s
            rw [hsql] at hrun
            have hunread := prepare_insert_none hN false (insertBindings_word hA) hn hsql
            have hrefused := insertText_refused hN false (insertBindings_word hA) hn hsql
            exact .inl (by rw [executeBuilt_some hrun, executeUpdate_refused hunread hrefused])
  · exact .inl (by rw [executeBuilt_error (createInsertSQL_error (R := R) false hown hA)])

/-- A row whose bound values suit keeps the table readable. -/
theorem Readable.append (htbl : Readable F latest tbl)
    (hsuits : ∀ e ∈ insertBindings R m (properties m.cls.chain), ∀ d ∈ tbl.columns,
      fold d.1 = fold e.1 →
        ValueSuits F latest d.1 ((tbl.affinity d.1).apply R.conv (bindObject R e.2))) :
    Readable F latest { tbl with rows := tbl.rows ++ [storedRow R tbl m] } := by
  refine ⟨htbl.known, fun r hr d hd => ?_⟩
  rcases List.mem_append.mp hr with hr | hr
  · exact htbl.suits r hr d hd
  · obtain rfl := List.mem_singleton.mp hr
    rw [storedRow, rowOf_eq]
    cases hfind : (insertBindings R m (properties m.cls.chain)).find?
        fun e => fold e.1 = fold d.1 with
    | none => exact valueSuits_null
    | some e =>
        have hfold : fold e.1 = fold d.1 := by simpa using List.find?_some hfind
        have haff : tbl.affinity e.1 = tbl.affinity d.1 := by
          rw [Table.affinity, Table.affinity, hfold]
        rw [Option.map_some, Option.getD_some, haff]
        exact hsuits e (List.mem_of_find?_eq_some hfind) d hd hfold.symm

theorem readable_wrote (hN : Name T) (m : { m : Model // m.cls.getTableName = some T })
    (hold : ReadableAt F latest (db (fold T))) (hsuits : StepSuits F latest R db (.wrote m)) :
    ReadableAt F latest (step R order db (.wrote m) (fold T)) := by
  rw [step]
  rcases insert_cases m.2 hN R db with hsame | ⟨tbl, htbl, hrun⟩
  · rw [hsame]
    exact hold
  · rw [hrun, Function.update_self]
    intro tbl' htbl'
    exact Option.some.inj htbl' ▸ (hold tbl htbl).append (hsuits tbl htbl)

/-! ### Histories -/

/-- **A step that suits keeps the table readable.** -/
theorem readable_step (hN : Name T) (s : Step T) (hold : ReadableAt F latest (db (fold T)))
    (hsuits : StepSuits F latest R db s) :
    ReadableAt F latest (step R order db s (fold T)) := by
  cases s with
  | opened v => exact readable_opened v hold hsuits
  | wrote m => exact readable_wrote hN m hold hsuits

/-- The query raises nothing, and an instance variable is set by the column called as it or holds
what it holds in a new model. -/
def ReadsAll (F : Foundation) (R : Runtime) (latest : ModelClass) (T : String) (db : Db) : Prop :=
  ∃ insts, query F R latest db = (.ok insts, db) ∧
    ∀ inst ∈ insts, ∀ key, inst key ≠ F.init latest key →
      key ∈ queriedColumns db T ∧ SetsOwn F latest key

/-- A readable table is read. -/
theorem ReadableAt.readsAll (hT : latest.getTableName = some T) (hN : Name T)
    (h : ReadableAt F latest (db (fold T))) : ReadsAll F R latest T db := by
  have hall : ∀ r ∈ queriedRows db T, ∀ c ∈ queriedColumns db T, ColumnReads F latest r c := by
    intro r hr c hc
    cases htbl : db (fold T) with
    | none => simp [queriedColumns, htbl] at hc
    | some tbl =>
        have hr : r ∈ tbl.rows := by
          rw [queriedRows, htbl] at hr
          split at hr
          · cases hr
          · exact hr
        rw [queriedColumns, htbl] at hc
        obtain ⟨d, hd, rfl⟩ := List.mem_map.mp hc
        exact columnReads_of ((h tbl htbl).known d hd) ((h tbl htbl).suits r hr d hd)
  obtain ⟨insts, hread⟩ := executeResult_ok_iff.mpr hall
  exact ⟨insts, by rw [query_run hT hN, hread], executeResult_other hread⟩

/-- **The latest version reads** what a history left, at every moment, when each step of the
history suits it. -/
theorem history_reads (F : Foundation) (R : Runtime) (order : KeyOrder) (vs : List (Version T))
    (latest : Version T) (db : Db) (hfresh : db (fold T) = none)
    (hsuits : Loop.Along (StepSuits F latest.cls R) (step R order) db (history (vs ++ [latest]))) :
    ∀ steps, steps <+: history (vs ++ [latest]) →
      ReadsAll F R latest.cls T (run R order steps db) := by
  intro steps hsteps
  have hstart : ReadableAt F latest.cls (db (fold T)) := by
    rw [hfresh]
    intro tbl htbl
    cases htbl
  have hreadable : ReadableAt F latest.cls (run R order steps db (fold T)) :=
    (hsuits.take hsteps).invariant (I := fun db => ReadableAt F latest.cls (db (fold T)))
      (fun db s hold hs => readable_step latest.creates.name s hold hs) hstart
  exact hreadable.readsAll latest.creates.table latest.creates.name

/-! ### Notes -/

/-- A class whose tags have a type. -/
def noteClass (tags : String) : ModelClass where
  chain :=
    [{ name := "Note"
       properties := [⟨"_pk_noteId", "@\"NSString\"", "noteId"⟩, ⟨"tags", tags, "tags"⟩]
       ivars := [⟨"_noteId", "@\"NSString\""⟩, ⟨"_tags", tags⟩] },
      { name := "NBBaseDBTableModel", properties := [], ivars := [] }]
  getTableName := some "tb_notes"
  ivar_word d hd iv hiv := by
    have hall : ∀ t ∈ ["_noteId", "_tags"], Word t := by decide +kernel
    rcases List.mem_cons.mp hd with rfl | hd
    · rcases List.mem_cons.mp hiv with rfl | hiv
      · exact hall _ (by simp)
      · obtain rfl := List.mem_singleton.mp hiv
        exact hall _ (by simp)
    · obtain rfl := List.mem_singleton.mp hd
      cases hiv

def arrayType : String := "@\"NSArray\""
def stringType : String := "@\"NSString\""

theorem noteClass_creates {tags : String} (h : tags ∈ [arrayType, stringType, "i"]) :
    (noteClass tags).Creates "tb_notes" := by
  have hall : ∀ tags ∈ [arrayType, stringType, "i"],
      (∀ d ∈ storedColumns (noteClass tags).chain, Name d.1) ∧
        storedColumns (noteClass tags).chain ≠ [] ∧
        Creatable "tb_notes" (storedColumns (noteClass tags).chain) ["_noteId"] := by
    decide +kernel
  obtain ⟨hcolumns, hne, hcreatable⟩ := hall tags h
  have hkeys : getPrimaryKeys (noteClass tags).chain = ["_noteId"] := by
    have hkey : columnNameFromPropertyName "_pk_noteId" = "_noteId" := by decide +kernel
    have hmarks : isPrimaryKey "_pk_noteId" = true ∧ isPrimaryKey "tags" = false := by
      decide +kernel
    simp [getPrimaryKeys, properties, noteClass, hmarks, hkey]
  refine ⟨rfl, by decide +kernel, hcolumns, ?_, hne, ?_⟩
  · rw [hkeys]
    decide +kernel
  · rw [hkeys]
    exact hcreatable

/-- A note with an identifier and its tags. -/
def note (tags id : String) (value : Obj) : Model := .ofIvars (noteClass tags) fun key =>
  if key = "_noteId" then some (.string "NSString" id) else some value

/-- A version of the notes that writes one. -/
def noteVersion (tags : String) (h : tags ∈ [arrayType, stringType, "i"]) (id : String)
    (value : Obj) : Version "tb_notes" where
  cls := noteClass tags
  creates := noteClass_creates h
  registed := [some (noteClass tags)]
  registers := List.mem_singleton.mpr rfl
  others _ hother := .inl (Option.some.inj (List.mem_singleton.mp hother))
  written := [⟨note tags id value, rfl⟩]

def arrayNotes : Version "tb_notes" :=
  noteVersion arrayType (by simp) "1" (.other "NSArray" "(a)")

def stringNotes : Version "tb_notes" :=
  noteVersion stringType (by simp) "2" (.string "NSString" "b")

def numberNotes : Version "tb_notes" := noteVersion "i" (by simp) "2" (.number (.integer 1))

/-- Tags that were an array are read as a string: the string is the archive. -/
theorem string_notes_read :
    Loop.Along (StepSuits demoFoundation stringNotes.cls demoRuntime)
        (step demoRuntime insertionOrder) (fun _ => none)
          (history ([arrayNotes] ++ [stringNotes])) ∧
      ReadsAll demoFoundation demoRuntime stringNotes.cls "tb_notes"
        (run demoRuntime insertionOrder (history [arrayNotes, stringNotes]) fun _ => none) := by
  have hsuits : Loop.Along (StepSuits demoFoundation stringNotes.cls demoRuntime)
      (step demoRuntime insertionOrder) (fun _ => none)
      (history ([arrayNotes] ++ [stringNotes])) := by decide +kernel
  exact ⟨hsuits, history_reads demoFoundation demoRuntime insertionOrder [arrayNotes] stringNotes _
    rfl hsuits _ List.prefix_rfl⟩

/-- Tags that were an array are not read as a number. -/
theorem number_notes_raise :
    ¬ ReadsAll demoFoundation demoRuntime numberNotes.cls "tb_notes"
      (run demoRuntime insertionOrder (history [arrayNotes, numberNotes]) fun _ => none) := by
  intro hreads
  have hraises : (query demoFoundation demoRuntime numberNotes.cls (run demoRuntime insertionOrder
      (history [arrayNotes, numberNotes]) fun _ => none)).1.toBool = false := by decide +kernel
  obtain ⟨insts, hquery, -⟩ := hreads
  rw [hquery] at hraises
  cases hraises

end NBDataBase.History
