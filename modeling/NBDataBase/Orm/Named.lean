import NBDataBase.Orm.Migration

/-!
# Orm — tables created by name

`createTable:tableNames:`: tables for a class under other names than its own.

* `createTableTableNames`, `createTableTableName`: from the source, after `openDB`.
* `createStep`: what one name does to the database.  A name without a table creates the class's
  own table.  `createLoop_run`: the loop is these steps.
* `NamesCreated`: every name is a table of the class afterwards, and no other table changes.
* `namesCreated_iff`: this is so exactly when every name is that of an existing table or of the
  class's own.
-/

namespace NBDataBase
open Sql

section

variable (R : Runtime) (order : KeyOrder)

def createTableTableNames (tableClass : ModelClass) (tableNameArray : List String) :
    Action (List String) :=
  inTransaction (Action.collect (migrateTable R order tableClass) tableNameArray)

def createTableTableName (tableClass : ModelClass) (tableName : String) : Action (List String) :=
  createTableTableNames R order tableClass [tableName]

end

variable {R : Runtime} {order : KeyOrder} {cls : ModelClass} {T k : String} {db : Db}
  {names : List String}

/-! ### One name -/

/-- What one name does to the database. -/
def createStep (order : KeyOrder) (cls : ModelClass) (T : String) (db : Db) (n : String) : Db :=
  if (db (fold n)).isSome = true ∨ fold n = fold T then
    Function.update db (fold n) (some (migratedTable order cls (db (fold n))))
  else if (db (fold T)).isSome then db
  else Function.update db (fold T) (some (createdTable cls))

/-- A name SQLite takes as it stands and folds as FMDB does; what its table has of the class's
columns is spelled as the class spells it. -/
structure Nameable (R : Runtime) (db : Db) (cls : ModelClass) (n : String) : Prop where
  name : Name n
  lowercase : R.lowercaseString n = fold n
  fits : ∀ tbl, db (fold n) = some tbl → Fits cls tbl

theorem createStep_run (h : cls.Creates T) {n : String} (hn : Nameable R db cls n) :
    ∃ issued, migrateTable R order cls n db = (.ok issued, createStep order cls T db n) := by
  by_cases hown : (db (fold n)).isSome = true ∨ fold n = fold T
  · rw [createStep, if_pos hown]
    exact migrateTable_run h hn.name hn.lowercase hown
  · have hnone : db (fold n) = none := by simpa using (not_or.mp hown).1
    obtain ⟨sql, hsql⟩ : ∃ sql, migrateTable R order cls n db = _ :=
      migrateTable_create h hn.lowercase hnone
    rw [createStep, if_neg hown]
    exact ⟨[sql], hsql⟩

/-- A step keeps the spelling of every table. -/
theorem createStep_fits (h : cls.Creates T) {n : String} (hn : Nameable R db cls n)
    (hfits : ∀ tbl, db k = some tbl → Fits cls tbl) :
    ∀ tbl, createStep order cls T db n k = some tbl → Fits cls tbl := by
  intro tbl htbl
  unfold createStep at htbl
  split at htbl
  · by_cases hk : k = fold n
    · subst hk
      rw [Function.update_self] at htbl
      obtain rfl := Option.some.inj htbl
      exact (migratedTable_migrated h order hn.fits).fits h hn.fits
    · rw [Function.update_of_ne hk] at htbl
      exact hfits tbl htbl
  · split at htbl
    · exact hfits tbl htbl
    · by_cases hk : k = fold T
      · subst hk
        rw [Function.update_self] at htbl
        obtain rfl := Option.some.inj htbl
        exact (Migrated.created cls).fits h fun _ h => (by cases h)
      · rw [Function.update_of_ne hk] at htbl
        exact hfits tbl htbl

/-! ### The loop over the names -/

/-- **The loop over the names** takes these steps. -/
theorem createLoop_run (h : cls.Creates T) (hnames : ∀ n ∈ names, Nameable R db cls n) :
    ∃ issued, createTableTableNames R order cls names db =
      (.ok issued, names.foldl (createStep order cls T) db) := by
  induction names generalizing db with
  | nil => exact ⟨[], rfl⟩
  | cons n names ih =>
      have hn := hnames n List.mem_cons_self
      obtain ⟨l, hfirst⟩ : ∃ l, migrateTable R order cls n db = _ := createStep_run h hn
      have hrest : ∀ n' ∈ names, Nameable R (createStep order cls T db n) cls n' := by
        intro n' hn'
        have hold := hnames n' (List.mem_cons_of_mem _ hn')
        exact ⟨hold.name, hold.lowercase, createStep_fits h hn hold.fits⟩
      obtain ⟨l', hloop⟩ := ih hrest
      exact ⟨l ++ l', collect_cons hfirst hloop⟩

/-- When every name is that of a table or of the class, the steps migrate the tables named. -/
theorem createLoop_migrates (h : cls.Creates T) (hnames : ∀ n ∈ names, Nameable R db cls n)
    (hown : ∀ n ∈ names, (db (fold n)).isSome = true ∨ fold n = fold T) (k : String) :
    names.foldl (createStep order cls T) db k =
      if k ∈ names.map fold then some (migratedTable order cls (db k)) else db k := by
  induction names generalizing db with
  | nil => rfl
  | cons n names ih =>
      have hn := hnames n List.mem_cons_self
      have hstep : createStep order cls T db n =
          Function.update db (fold n) (some (migratedTable order cls (db (fold n)))) :=
        if_pos (hown n List.mem_cons_self)
      have hrest : ∀ n' ∈ names, Nameable R (createStep order cls T db n) cls n' := by
        intro n' hn'
        have hold := hnames n' (List.mem_cons_of_mem _ hn')
        exact ⟨hold.name, hold.lowercase, createStep_fits h hn hold.fits⟩
      have hown' : ∀ n' ∈ names, (createStep order cls T db n (fold n')).isSome = true ∨
          fold n' = fold T := by
        intro n' hn'
        refine (hown n' (List.mem_cons_of_mem _ hn')).imp_left fun hsome => ?_
        rw [hstep, Function.update_apply]
        split
        · rfl
        · exact hsome
      rw [List.foldl_cons, ih hrest hown', hstep, Function.update_apply, List.map_cons]
      by_cases hk : k = fold n
      · -- a name that comes again finds its table migrated
        subst hk
        rw [if_pos rfl, migratedTable_again h order hn.fits, ite_self, if_pos List.mem_cons_self]
      · simp only [List.mem_cons, hk, false_or, if_false]

/-- A table that is not the class's own is not created. -/
theorem createLoop_none (hk : k ≠ fold T) (hnone : db k = none) :
    names.foldl (createStep order cls T) db k = none := by
  induction names generalizing db with
  | nil => exact hnone
  | cons n names ih =>
      refine ih ?_
      unfold createStep
      split
      · rename_i hown
        have hne : k ≠ fold n := by
          rintro rfl
          rcases hown with hsome | hT
          · rw [hnone] at hsome
            cases hsome
          · exact hk hT
        rw [Function.update_of_ne hne, hnone]
      · split
        · exact hnone
        · rw [Function.update_of_ne hk, hnone]

/-! ### The names asked for -/

/-- Every name is a table that has the columns of the class, and one that was not there is what
`createTableSQLWithTableName` makes of the name.  No other table is created or altered. -/
def NamesCreated (R : Runtime) (order : KeyOrder) (cls : ModelClass) (names : List String)
    (db : Db) : Prop :=
  ∃ issued db', createTableTableNames R order cls names db = (.ok issued, db') ∧
    (∀ n ∈ names, ∃ new, db' (fold n) = some new ∧
      (∀ d ∈ storedColumns cls.chain, d.1 ∈ columnNames new) ∧
      (db (fold n) = none → ∃ sql, createTableSQLWithTableName cls (some n) = some sql ∧
        prepare sql = some (.create n new.columns new.primaryKey))) ∧
    ∀ k, k ∉ names.map fold → db' k = db k

/-- **The tables asked for are created** exactly when every name is that of an existing table or
of the class's own. -/
theorem namesCreated_iff (R : Runtime) (order : KeyOrder) (h : cls.Creates T)
    (hnames : ∀ n ∈ names, Nameable R db cls n) :
    NamesCreated R order cls names db ↔
      ∀ n ∈ names, (db (fold n)).isSome = true ∨ fold n = fold T := by
  obtain ⟨issued, hrun⟩ : ∃ issued, createTableTableNames R order cls names db = _ :=
    createLoop_run h hnames
  constructor
  · rintro ⟨issued', db', hrun', hcreated, -⟩ n hn
    rw [hrun] at hrun'
    obtain ⟨-, rfl⟩ := Prod.mk.inj hrun'
    by_contra hown
    rw [not_or] at hown
    obtain ⟨new, hnew, -⟩ := hcreated n hn
    have hnone : db (fold n) = none := by simpa using hown.1
    rw [createLoop_none hown.2 hnone] at hnew
    cases hnew
  · intro hown
    have hmigrates : ∀ k, names.foldl (createStep order cls T) db k = _ :=
      createLoop_migrates h hnames hown
    refine ⟨issued, _, hrun, fun n hn => ?_, fun k hk => by rw [hmigrates, if_neg hk]⟩
    have hmigrated := migratedTable_migrated h order (hnames n hn).fits
    refine ⟨migratedTable order cls (db (fold n)), ?_, hmigrated.complete, fun hnone => ?_⟩
    · rw [hmigrates, if_pos (List.mem_map_of_mem hn)]
    · have hname : Option.or (some n) cls.getTableName = some n := rfl
      obtain ⟨sql, hsql, hst⟩ := createTableSQL_prepare h (hnames n hn).name hname
      rw [hnone]
      exact ⟨sql, hsql, hst⟩

/-- A table of books for one year, by name: the class's own table is created instead. -/
theorem books_of_year_missing :
    ¬ NamesCreated demoRuntime insertionOrder bookClass ["tb_books_2024"] fun _ => none := by
  have hcreates := bookClass_valid.creates
  have hname : Nameable demoRuntime (fun _ => none) bookClass "tb_books_2024" :=
    ⟨by decide +kernel, rfl, fun _ h => (by cases h)⟩
  rintro ⟨issued, db', hrun, hcreated, -⟩
  obtain ⟨new, hnew, -⟩ := hcreated "tb_books_2024" (by simp)
  obtain ⟨issued', hrun'⟩ : ∃ issued, createTableTableNames demoRuntime insertionOrder bookClass
      ["tb_books_2024"] (fun _ => none) = _ := createLoop_run hcreates (by simpa using hname)
  rw [hrun] at hrun'
  obtain ⟨-, rfl⟩ := Prod.mk.inj hrun'
  rw [createLoop_none (by decide +kernel) rfl] at hnew
  cases hnew

/-- The books of a year, from before books had names. -/
def yearBooks : Db := fun n =>
  if n = "tb_books_2024" then
    some ⟨[("_bookId", "VARCHAR"), ("_shelf", "TEXT")], ["_bookId"], [fun _ => .text "1"]⟩
  else none

/-- The books of a year that has its table already, and the class's own. -/
theorem books_of_year_migrated :
    NamesCreated demoRuntime insertionOrder bookClass ["tb_books_2024", "TB_Books"] yearBooks := by
  have hname : ∀ n ∈ ["tb_books_2024", "TB_Books"],
      Nameable demoRuntime yearBooks bookClass n := by
    intro n hn
    have hnames : ∀ n ∈ ["tb_books_2024", "TB_Books"], Name n := by decide +kernel
    refine ⟨hnames n hn, rfl, fun tbl htbl => ?_⟩
    obtain ⟨-, heq⟩ := Option.ite_none_right_eq_some.mp htbl
    obtain rfl := Option.some.inj heq
    unfold Fits
    decide +kernel
  exact (namesCreated_iff demoRuntime insertionOrder bookClass_valid.creates hname).mpr
    (by decide +kernel)

end NBDataBase
