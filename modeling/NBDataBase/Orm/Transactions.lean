import NBDataBase.Orm.Batch

/-!
# Orm — transactions

The batch writes that `NBDataBase` runs in a transaction.

* `DbConnection`, `inTransactionOn`: FMDB's transactions.
* `BatchWrite`: the eight blocks, each by what it does first (`start`) and what it does with an
  element (`element`), from the source.  `BatchWrite.run`: the block.
* `results`: the block with the results that it does not look at.  `run_results`: the block does
  what it does.
* `AllOrNothing`: the batch leaves the database as it was when an element fails, and has the effect
  of all elements otherwise; no transaction is left open.
* `FitsTable`: a statement can be built, and fits the columns and the key of its table.  `Steady`: an
  action succeeds whatever the rows are, and keeps the columns and the keys.
* `BatchWrite.Fitting`: every element fits, or is steady, on the database as the block finds or
  creates its table.  `Idle`: alone, no element changes the database.
* `allOrNothing_when`: a block that is fitting or idle is all or nothing, and one that inserts
  models and replaces none (`BatchWrite.Adds`) is so in no other case.
-/

namespace NBDataBase
open Sql (Db Row Table Stmt Name Word fold)

/-! ### Connections -/

/-- A connection: its database and, in a transaction, the database that a rollback restores. -/
structure DbConnection where
  db : Db
  saved : Option Db

namespace DbConnection

/-- `beginTransaction`, which fails inside a transaction. -/
def beginTransaction (conn : DbConnection) : DbConnection :=
  { conn with saved := conn.saved.or (some conn.db) }

def commit (conn : DbConnection) : DbConnection := { conn with saved := none }

def rollback (conn : DbConnection) : DbConnection := ⟨conn.saved.getD conn.db, none⟩

end DbConnection

/-- `-[FMDatabaseQueue inTransaction:]`; the block returns `shouldRollback`.  An exception passes
by both the rollback and the commit. -/
def inTransactionOn (block : Action Bool) (conn : DbConnection) :
    Except Fault Unit × DbConnection :=
  let conn := conn.beginTransaction
  match block conn.db with
  | (.ok shouldRollback, db) =>
      let conn := { conn with db := db }
      (.ok (), if shouldRollback then conn.rollback else conn.commit)
  | (.error e, db) => (.error e, { conn with db := db })

/-! ### The blocks -/

section

variable (R : Runtime) (execute : String → Action Bool)

/-- Execute the statement of a builder that has values. -/
def executeValues (built : Except Fault (Option (String × List Obj))) : Action Bool := do
  match ← Action.build built with
  | some (sql, values) => if values.length > 0 then executeUpdate R sql values else return false
  | none => return false

/-- `upsertStep` with the result of its statement. -/
def upsertResult (select update insert : Except Fault (Option (String × List Obj))) :
    Action Bool := do
  match ← Action.build select with
  | none => return false
  | some (sql, values) =>
      let rs ← executeQuery R sql values
      if !rs.isEmpty then executeBuilt R update else executeBuilt R insert

/-- The text of an insert of one value. -/
def insertValueText (tableName columns value : String) (replace : Bool) : String :=
  (if replace then "replace" else "insert or ignore") ++ (" into " ++ (tableName ++ (" (" ++
    (columns ++ (") values (" ++ (value ++ ")"))))))

/-- The batch writes of two or more elements. -/
inductive BatchWrite where
  /-- `insertToDBWithDataArray:table:replace:`. -/
  | insertTable (tableClass : ModelClass) (replace : Bool)
  /-- `insertToDBWithDataArray:tableName:replace:`. -/
  | insertTableName (tableName : String) (replace : Bool)
  /-- `insertToDBWithDataArray:tableName:columns:replace:`, of models. -/
  | insertColumns (tableName : String) (columns : Option Columns) (replace : Bool)
  /-- The same of strings; `dataClass` is the class of the first. -/
  | insertStrings (dataClass : ModelClass) (tableName columns : String) (replace : Bool)
  /-- The same of numbers. -/
  | insertNumbers (dataClass : ModelClass) (tableName columns : String) (replace : Bool)
  /-- `insertToDBWithDataArray:tableName:columns:update:` with YES. -/
  | upsert (tableName : String) (columns : Option Columns)
  /-- `updateWithDataArray:table:set:`. -/
  | updateTable (tableClass : ModelClass) (sets : Option Sets)
  /-- `updateWithDataArray:tableName:set:`. -/
  | updateTableName (tableName : String) (sets : Option Sets)

namespace BatchWrite

/-- What the array holds. -/
abbrev Element : BatchWrite → Type
  | insertStrings .. => String
  | insertNumbers .. => NSNumber
  | _ => Model

variable (R : Runtime) (execute : String → Action Bool)

/-- What the block does first: the table of the first element's class, and its columns. -/
def start : (w : BatchWrite) → List w.Element → Action Unit
  | insertTable _ _, _ => return ()
  | insertTableName tableName _, array | insertColumns tableName _ _, array =>
      match array with
      | [] => return ()
      | first :: _ => createTableIfNotExists R first.cls tableName
  | insertStrings dataClass tableName _ _, _ => createTableIfNotExists R dataClass tableName
  | insertNumbers dataClass tableName _ _, _ => createTableIfNotExists R dataClass tableName
  | upsert tableName _, array =>
      match array with
      | [] => return ()
      | first :: _ => do
          createTableIfNotExists R first.cls tableName
          let _ ← getTableSchema tableName
  | updateTable _ _, _ => return ()
  | updateTableName _ _, _ => return ()

/-- What the block does with an element: whether its statement was built and succeeded. -/
def element : (w : BatchWrite) → w.Element → Action Bool
  | insertTable tableClass replace => fun data =>
      executeValues R (createInsertSQLWithModelAndBeginClass R data tableClass replace)
  | insertTableName tableName replace => fun data =>
      executeValues R (createInsertSQL R data (some tableName) replace)
  | insertColumns tableName columns replace => fun data =>
      executeValues R (createInsertSQLWithColumns R data (some tableName) columns replace)
  | insertStrings _ tableName columns replace => fun (data : String) =>
      execute (insertValueText tableName columns ("'" ++ (data ++ "'")) replace)
  | insertNumbers _ tableName columns replace => fun data =>
      execute (insertValueText tableName columns (R.description (.number data)) replace)
  | upsert _ columns => fun data =>
      upsertResult R (createSelectSQLWithPrimaryKey R data none)
        (createUpdateSQLWithModelAndTableClass R data data.cls (columns.map Columns.sets) none)
        (createInsertSQLWithColumns R data none columns false)
  | updateTable tableClass sets => fun data =>
      executeBuilt R (createUpdateSQLWithModelAndTableClass R data tableClass sets none)
  | updateTableName tableName sets => fun data =>
      executeBuilt R (createUpdateSQLWithModelAndTableName R data (some tableName) sets none)

/-- The block in its transaction.  It looks at no result, and never sets `rollback`. -/
def run (w : BatchWrite) (array : List w.Element) :
    DbConnection → Except Fault Unit × DbConnection :=
  inTransactionOn do
    w.start R array
    Action.each (fun data => ignore (w.element R execute data)) array
    return false

end BatchWrite

end

/-! ### The results of a block -/

/-- `f` at every element, in order, with the results. -/
def Action.mapAll {α β : Type} (f : α → Action β) : List α → Action (List β)
  | [] => return []
  | x :: xs => do
      let y ← f x
      return y :: (← mapAll f xs)

/-- The block, with the results that it does not look at. -/
def BatchWrite.results (R : Runtime) (execute : String → Action Bool) (w : BatchWrite)
    (array : List w.Element) : Action (List Bool) := do
  w.start R array
  Action.mapAll (w.element R execute) array

variable {R : Runtime} {execute : String → Action Bool} {w : BatchWrite} {db : Db}

theorem ignore_run (x : Action Bool) (db : Db) :
    ignore x db = ((x db).1.map fun _ => (), (x db).2) := by
  show (x >>= fun _ => pure ()) db = _
  rcases hx : x db with ⟨e | b, db'⟩
  · rw [Action.bind_error hx]; rfl
  · rw [Action.bind_ok hx]; rfl

/-- The block of upserts takes the steps of `upsertStep`. -/
theorem upsertStep_eq (select update insert : Except Fault (Option (String × List Obj))) :
    upsertStep R select update insert = ignore (upsertResult R select update insert) := by
  rcases select with e | _ | ⟨sql, values⟩
  · rfl
  · rfl
  · funext db
    have hstep : upsertStep R (.ok (some (sql, values))) update insert db =
        (executeQuery R sql values >>= fun rs =>
          if !rs.isEmpty then ignore (executeBuilt R update)
          else ignore (executeBuilt R insert)) db := rfl
    have hresult : upsertResult R (.ok (some (sql, values))) update insert db =
        (executeQuery R sql values >>= fun rs =>
          if !rs.isEmpty then executeBuilt R update else executeBuilt R insert) db := rfl
    rw [ignore_run, hstep, hresult]
    rcases hquery : executeQuery R sql values db with ⟨e | rs, db'⟩
    · rw [Action.bind_error hquery, Action.bind_error hquery]
      rfl
    · rw [Action.bind_ok hquery, Action.bind_ok hquery]
      cases rs.isEmpty <;> exact ignore_run _ _

/-- The batch of upserts is the transaction of
`insertToDBWithDataArray:tableName:columns:update:`. -/
theorem upsert_block (array : List Model) (hlen : 2 ≤ array.length) (tableName : String)
    (columns : Option Columns) :
    insertToDBWithDataArrayTableNameColumnsUpdate R array tableName columns = (do
      (BatchWrite.upsert tableName columns).start R array
      Action.each
        (fun data => ignore ((BatchWrite.upsert tableName columns).element R execute data))
        array) := by
  match array, hlen with
  | first :: second :: rest, _ =>
      have hstep : (fun data => upsertStep R (createSelectSQLWithPrimaryKey R data none)
            (createUpdateSQLWithModelAndTableClass R data data.cls (columns.map Columns.sets) none)
            (createInsertSQLWithColumns R data none columns false)) =
          fun data => ignore ((BatchWrite.upsert tableName columns).element R execute data) :=
        funext fun data => upsertStep_eq _ _ _
      rw [insertToDBWithDataArrayTableNameColumnsUpdate, hstep]
      · funext db
        show (createTableIfNotExists R first.cls tableName >>= fun _ =>
            getTableSchema tableName >>= fun _ => _) db =
          ((createTableIfNotExists R first.cls tableName >>= fun _ =>
            getTableSchema tableName >>= fun _ => pure ()) >>= fun _ => _) db
        rcases hcreate : createTableIfNotExists R first.cls tableName db with ⟨e | u, db'⟩
        · rw [Action.bind_error hcreate, Action.bind_error (Action.bind_error hcreate)]
        · have hschema : (createTableIfNotExists R first.cls tableName >>= fun _ =>
              getTableSchema tableName >>= fun _ => (pure () : Action Unit)) db = (.ok (), db') :=
            Action.bind_ok hcreate
          rw [Action.bind_ok hcreate, Action.bind_ok hschema]
          rfl
      · simp

/-- A loop that does not look at the results ends as one that does. -/
theorem each_ignore {α : Type} (f : α → Action Bool) (xs : List α) (db : Db) :
    Action.each (fun x => ignore (f x)) xs db =
      ((Action.mapAll f xs db).1.map fun _ => (), (Action.mapAll f xs db).2) := by
  induction xs generalizing db with
  | nil => rfl
  | cons x xs ih =>
      have hignore := ignore_run (f x) db
      rcases hx : f x db with ⟨e | y, db'⟩
      · rw [hx] at hignore
        have hleft : Action.each (fun x => ignore (f x)) (x :: xs) db = (.error e, db') :=
          Action.bind_error hignore
        have hright : Action.mapAll f (x :: xs) db = (.error e, db') := Action.bind_error hx
        rw [hleft, hright]
        rfl
      · rw [hx] at hignore
        have hleft : Action.each (fun x => ignore (f x)) (x :: xs) db =
            Action.each (fun x => ignore (f x)) xs db' := Action.bind_ok hignore
        have hright : Action.mapAll f (x :: xs) db =
            (Action.mapAll f xs >>= fun ys => pure (y :: ys)) db' := Action.bind_ok hx
        rw [hleft, hright, ih]
        rcases hrest : Action.mapAll f xs db' with ⟨e | ys, db''⟩
        · rw [Action.bind_error hrest]
        · rw [Action.bind_ok hrest]; rfl

/-- **The block** does to the database what it does with its results.  It commits unless it
raises, and then its transaction stays open. -/
theorem run_results (array : List w.Element) (db : Db) :
    w.run R execute array ⟨db, none⟩ =
      match w.results R execute array db with
      | (.ok _, db') => (.ok (), ⟨db', none⟩)
      | (.error e, db') => (.error e, ⟨db', some db⟩) := by
  show (match (w.start R array >>= fun _ =>
      Action.each (fun data => ignore (w.element R execute data)) array >>= fun _ =>
        (pure false : Action Bool)) db with
    | (.ok shouldRollback, db') => _
    | (.error e, db') => _) = _
  rcases hstart : w.start R array db with ⟨e | u, db₁⟩
  · have hresults : w.results R execute array db = (.error e, db₁) := Action.bind_error hstart
    rw [Action.bind_error hstart, hresults]
    rfl
  · have hresults : w.results R execute array db =
        Action.mapAll (w.element R execute) array db₁ := Action.bind_ok hstart
    have hloop := each_ignore (w.element R execute) array db₁
    rw [Action.bind_ok hstart, hresults]
    rcases hrun : Action.mapAll (w.element R execute) array db₁ with ⟨e | outcomes, db₂⟩
    · rw [hrun] at hloop
      rw [Action.bind_error hloop]
      rfl
    · rw [hrun] at hloop
      rw [Action.bind_ok hloop]
      rfl

/-! ### All or nothing -/

/-- When the statement of an element cannot be built or fails, the database is as it was;
otherwise the effect of every element is there.  No transaction is open afterwards. -/
def AllOrNothing (R : Runtime) (execute : String → Action Bool) (w : BatchWrite)
    (array : List w.Element) (db : Db) : Prop :=
  (w.run R execute array ⟨db, none⟩).2.saved = none ∧
    match w.results R execute array db with
    | (.ok outcomes, db') => (w.run R execute array ⟨db, none⟩).2.db =
        if outcomes.all id then db' else db
    | (.error _, _) => (w.run R execute array ⟨db, none⟩).2.db = db

/-- A batch is all or nothing when no builder raises and no failure meets a change. -/
theorem allOrNothing_results {array : List w.Element} :
    AllOrNothing R execute w array db ↔ ∃ outcomes db',
      w.results R execute array db = (.ok outcomes, db') ∧
        (outcomes.all id = true ∨ db' = db) := by
  unfold AllOrNothing
  rw [run_results]
  rcases hresults : w.results R execute array db with ⟨e | outcomes, db'⟩
  · -- the transaction is left open
    refine ⟨fun h => ?_, fun ⟨_, _, h, _⟩ => ?_⟩
    · cases h.1
    · cases h
  · cases hall : outcomes.all id with
    | true =>
        refine ⟨fun _ => ⟨outcomes, db', rfl, .inl hall⟩, fun _ => ⟨rfl, ?_⟩⟩
        simp [hall]
    | false =>
        constructor
        · rintro ⟨-, h⟩
          exact ⟨outcomes, db', rfl, .inr (by simpa [hall] using h)⟩
        · rintro ⟨outcomes', db'', h, hok⟩
          obtain ⟨h₁, rfl⟩ := Prod.mk.inj h
          obtain rfl := Except.ok.inj h₁
          have hsame := hok.resolve_left (by simp [hall])
          exact ⟨rfl, by simpa [hall] using hsame⟩

/-- Every element succeeds on the database that those before it leave. -/
inductive Served {α : Type} (f : α → Action Bool) : List α → Db → Prop
  | nil (db : Db) : Served f [] db
  | cons {x : α} {xs : List α} {db db' : Db} (h : f x db = (.ok true, db'))
      (rest : Served f xs db') : Served f (x :: xs) db

/-- Neither what the block does first nor any element alone changes the database or raises. -/
structure Idle (R : Runtime) (execute : String → Action Bool) (w : BatchWrite)
    (array : List w.Element) (db : Db) : Prop where
  start : w.start R array db = (.ok (), db)
  element : ∀ data ∈ array, ∃ done, w.element R execute data db = (.ok done, db)

theorem Served.mapAll {α : Type} {f : α → Action Bool} {xs : List α} (h : Served f xs db) :
    ∃ outcomes db', Action.mapAll f xs db = (.ok outcomes, db') ∧ outcomes.all id = true := by
  induction h with
  | nil db => exact ⟨[], db, rfl, rfl⟩
  | cons h _ ih =>
      obtain ⟨outcomes, db', hrest, hall⟩ := ih
      refine ⟨true :: outcomes, db', ?_, by simpa using hall⟩
      exact (Action.bind_ok h).trans (Action.bind_ok hrest)

theorem mapAll_idle {α : Type} {f : α → Action Bool} {xs : List α}
    (h : ∀ x ∈ xs, ∃ done, f x db = (.ok done, db)) :
    ∃ outcomes, Action.mapAll f xs db = (.ok outcomes, db) := by
  induction xs with
  | nil => exact ⟨[], rfl⟩
  | cons x xs ih =>
      obtain ⟨done, hx⟩ := h x List.mem_cons_self
      obtain ⟨outcomes, hrest⟩ := ih fun y hy => h y (List.mem_cons_of_mem _ hy)
      exact ⟨done :: outcomes, (Action.bind_ok hx).trans (Action.bind_ok hrest)⟩

theorem Idle.allOrNothing {array : List w.Element} (h : Idle R execute w array db) :
    AllOrNothing R execute w array db := by
  obtain ⟨outcomes, hrun⟩ := mapAll_idle h.element
  exact allOrNothing_results.mpr ⟨outcomes, db, (Action.bind_ok h.start).trans hrun, .inr rfl⟩

theorem Served.allOrNothing {array : List w.Element} {db₁ : Db}
    (hstart : w.start R array db = (.ok (), db₁)) (h : Served (w.element R execute) array db₁) :
    AllOrNothing R execute w array db := by
  obtain ⟨outcomes, db', hrun, hall⟩ := h.mapAll
  exact allOrNothing_results.mpr ⟨outcomes, db', (Action.bind_ok hstart).trans hrun, .inl hall⟩

/-! ### Statements that fit -/

/-- The columns and the keys of the tables. -/
def schema (db : Db) (n : String) : Option (List (String × String) × List String) :=
  (db n).map fun tbl => (tbl.columns, tbl.primaryKey)

/-- On every sound database with these columns and keys, whatever its rows, the action succeeds and
leaves such a database. -/
def Steady (conv : Sql.Conversions) (x : Action Bool) (db : Db) : Prop :=
  ∀ db₁, Db.Sound conv db₁ → schema db₁ = schema db →
    ∃ db₂, x db₁ = (.ok true, db₂) ∧ Db.Sound conv db₂ ∧ schema db₂ = schema db

/-- **Steady actions** are served. -/
theorem Served.of_steady {α : Type} {f : α → Action Bool} {xs : List α} {conv : Sql.Conversions}
    (hdb : Db.Sound conv db) (h : ∀ x ∈ xs, Steady conv (f x) db) : Served f xs db := by
  induction xs generalizing db with
  | nil => exact .nil db
  | cons x xs ih =>
      obtain ⟨db', hrun, hsound, hschema⟩ := h x List.mem_cons_self db hdb rfl
      refine .cons hrun (ih hsound fun y hy db₁ hdb₁ hsame => ?_)
      obtain ⟨db₂, hrun', hsound', hschema'⟩ :=
        h y (List.mem_cons_of_mem _ hy) db₁ hdb₁ (hsame.trans hschema)
      exact ⟨db₂, hrun', hsound', hschema'.trans hschema.symm⟩

/-- A table with these columns and this key. -/
theorem schema_table {db₁ : Db} (h : schema db₁ = schema db) {n : String} {tbl : Table}
    (htbl : db n = some tbl) : ∃ tbl₁, db₁ n = some tbl₁ ∧ tbl₁.columns = tbl.columns ∧
      tbl₁.primaryKey = tbl.primaryKey := by
  have hn : schema db₁ n = some (tbl.columns, tbl.primaryKey) := by
    rw [h, schema, htbl]
    rfl
  obtain ⟨tbl₁, htbl₁, hpair⟩ := Option.map_eq_some_iff.mp hn
  exact ⟨tbl₁, htbl₁, (Prod.mk.inj hpair).1, (Prod.mk.inj hpair).2⟩

theorem schema_update {n : String} {tbl tbl' : Table} (htbl : db n = some tbl)
    (hcolumns : tbl'.columns = tbl.columns) (hkey : tbl'.primaryKey = tbl.primaryKey) :
    schema (Function.update db n (some tbl')) = schema db := by
  funext k
  by_cases hk : k = n
  · subst hk
    simp [schema, htbl, hcolumns, hkey]
  · rw [schema, Function.update_of_ne hk, schema]

/-- An insert into columns of a table that is there, or an update of such columns, outside the key,
under such columns. -/
def StatementFits : Stmt → Db → Prop
  | .insert _ T cs _, db => ∃ tbl, db (fold T) = some tbl ∧ ∀ c ∈ cs, tbl.has c = true
  | .update T ss as, db => ∃ tbl, db (fold T) = some tbl ∧
      (∀ s ∈ ss, tbl.has s = true ∧ ∀ p ∈ tbl.primaryKey, fold s ≠ fold p) ∧
      ∀ a ∈ as, tbl.has a.column = true
  | _, _ => False

/-- The rows do not decide whether a statement fits. -/
theorem StatementFits.congr {st : Stmt} {db₁ : Db} (hsame : schema db₁ = schema db)
    (h : StatementFits st db) : StatementFits st db₁ := by
  cases st with
  | insert replace T cs n =>
      obtain ⟨tbl, htbl, hcs⟩ := h
      obtain ⟨tbl₁, htbl₁, hcolumns, -⟩ := schema_table hsame htbl
      exact ⟨tbl₁, htbl₁, fun c hc => by rw [Table.has, hcolumns]; exact hcs c hc⟩
  | update T ss as =>
      obtain ⟨tbl, htbl, hss, has⟩ := h
      obtain ⟨tbl₁, htbl₁, hcolumns, hkey⟩ := schema_table hsame htbl
      refine ⟨tbl₁, htbl₁, fun s hs => ?_, fun a ha => by rw [Table.has, hcolumns]; exact has a ha⟩
      rw [Table.has, hcolumns, hkey]
      exact hss s hs
  | create | addColumn | delete | select => exact h.elim

/-- **A statement that fits succeeds**, and keeps the columns and the keys. -/
theorem StatementFits.exec {conv : Sql.Conversions} {st : Stmt} (h : StatementFits st db)
    (hdb : Db.Sound conv db) (vs : List Sql.Value) :
    ∃ db', Sql.exec conv db st vs = some db' ∧ Db.Sound conv db' ∧ schema db' = schema db := by
  cases st with
  | insert replace T cs n =>
      obtain ⟨tbl, htbl, hcs⟩ := h
      obtain ⟨tbl', hrow⟩ : ∃ tbl', Sql.insertRow conv replace cs vs tbl = some tbl' := by
        rw [Sql.insertRow, if_pos (List.all_eq_true.mpr hcs)]
        dsimp only
        split
        · exact ⟨_, rfl⟩
        · split <;> exact ⟨_, rfl⟩
      have hexec : Sql.exec conv db (.insert replace T cs n) vs = _ :=
        Sql.onTable_of_some htbl hrow
      obtain ⟨⟨hcolumns, hkey, -⟩, -⟩ := Sql.insertRow_effect hrow
      exact ⟨_, hexec, (Sql.exec_does rfl hexec).sound hdb, schema_update htbl hcolumns hkey⟩
  | update T ss as =>
      obtain ⟨tbl, htbl, hss, has⟩ := h
      have hconds : ∀ b ∈ Sql.bind as (vs.drop ss.length), tbl.has b.1 = true := by
        intro b hb
        obtain ⟨a, ha, hab⟩ := Sql.bind_column hb
        exact hab ▸ has a ha
      obtain ⟨tbl', hrows, hcolumns, hkey⟩ : ∃ tbl', Sql.updateRows conv ss (vs.take ss.length)
          (Sql.bind as (vs.drop ss.length)) tbl = some tbl' ∧ tbl'.columns = tbl.columns ∧
            tbl'.primaryKey = tbl.primaryKey :=
        ⟨_, Sql.updateRows_of_keys (hdb _ _ htbl).unique (fun s hs => (hss s hs).1) hconds
          fun s hs => (hss s hs).2, rfl, rfl⟩
      have hexec : Sql.exec conv db (.update T ss as) vs = _ := Sql.onTable_of_some htbl hrows
      exact ⟨_, hexec, (Sql.exec_does rfl hexec).sound hdb, schema_update htbl hcolumns hkey⟩
  | create | addColumn | delete | select => exact h.elim

/-- A statement that can be built, has values, as many as SQLite takes, and fits. -/
def FitsTable (built : Except Fault (Option (String × List Obj))) (db : Db) : Prop :=
  ∃ sql values st, built = .ok (some (sql, values)) ∧ values ≠ [] ∧ Sql.prepare sql = some st ∧
    st.params ≤ values.length ∧ st.params ≤ Sql.maxVariables ∧ StatementFits st db

/-- A statement has no more values than SQLite takes. -/
def TakesValues (built : Except Fault (Option (String × List Obj))) : Prop :=
  ∀ sql values, built = .ok (some (sql, values)) → values.length ≤ Sql.maxVariables

theorem FitsTable.congr {built : Except Fault (Option (String × List Obj))} {db₁ : Db}
    (hsame : schema db₁ = schema db) (h : FitsTable built db) : FitsTable built db₁ := by
  obtain ⟨sql, values, st, hbuilt, hne, hst, hlen, htaken, hfits⟩ := h
  exact ⟨sql, values, st, hbuilt, hne, hst, hlen, htaken, hfits.congr hsame⟩

theorem FitsTable.built {built : Except Fault (Option (String × List Obj))}
    (h : FitsTable built db) :
    ∃ b, built = .ok b := by
  obtain ⟨sql, values, -, hbuilt, -⟩ := h
  exact ⟨_, hbuilt⟩

/-- What fits is executed, with or without a look at the values. -/
theorem FitsTable.run {built : Except Fault (Option (String × List Obj))} (h : FitsTable built db)
    (hdb : Db.Sound R.conv db) : ∃ db', executeBuilt R built db = (.ok true, db') ∧
      executeValues R built db = (.ok true, db') ∧ Db.Sound R.conv db' ∧
      schema db' = schema db := by
  obtain ⟨sql, values, st, rfl, hne, hst, hlen, -, hfits⟩ := h
  obtain ⟨db', hexec, hsound, hschema⟩ := hfits.exec hdb (values.map (bindObject R))
  have hdone := executeUpdate_done hst hlen hexec
  refine ⟨db', ?_, ?_, hsound, hschema⟩
  · rw [executeBuilt_some rfl, hdone]
  · have hrun : executeValues R (.ok (some (sql, values))) db =
        (if values.length > 0 then executeUpdate R sql values else pure false) db := rfl
    rw [hrun, if_pos (List.length_pos_iff.mpr hne), hdone]

/-- A statement that fits is steady. -/
theorem FitsTable.steady {built : Except Fault (Option (String × List Obj))}
    (h : FitsTable built db) :
    Steady R.conv (executeBuilt R built) db ∧ Steady R.conv (executeValues R built) db := by
  refine ⟨fun db₁ hdb₁ hsame => ?_, fun db₁ hdb₁ hsame => ?_⟩
  · obtain ⟨db₂, hrun, -, hsound, hschema⟩ := (h.congr hsame).run hdb₁
    exact ⟨db₂, hrun, hsound, hschema.trans hsame⟩
  · obtain ⟨db₂, -, hrun, hsound, hschema⟩ := (h.congr hsame).run hdb₁
    exact ⟨db₂, hrun, hsound, hschema.trans hsame⟩

/-- An upsert of which the query can be built, and both statements fit. -/
theorem upsertResult_steady {select update insert : Except Fault (Option (String × List Obj))}
    (hselect : ∃ q, select = .ok (some q)) (hupdate : FitsTable update db)
    (hinsert : FitsTable insert db) :
    Steady R.conv (upsertResult R select update insert) db := by
  obtain ⟨⟨sql, values⟩, rfl⟩ := hselect
  intro db₁ hdb₁ hsame
  obtain ⟨rs, hquery⟩ : ∃ rs, executeQuery R sql values db₁ = (.ok rs, db₁) := by
    unfold executeQuery
    split
    · exact ⟨_, rfl⟩
    · split <;> exact ⟨_, rfl⟩
  have hrun : upsertResult R (.ok (some (sql, values))) update insert db₁ =
      (if !rs.isEmpty then executeBuilt R update else executeBuilt R insert) db₁ :=
    Action.bind_ok hquery
  rw [hrun]
  split
  · exact hupdate.steady.1 db₁ hdb₁ hsame
  · exact hinsert.steady.1 db₁ hdb₁ hsame

/-! ### Inserts of models -/

/-- The database with other rows behind those of its tables. -/
def AddsRows (db db' : Db) : Prop :=
  ∃ extra : String → List Row, ∀ n, db' n =
    (db n).map fun tbl => { tbl with rows := tbl.rows ++ extra n }

theorem AddsRows.refl (db : Db) : AddsRows db db :=
  ⟨fun _ => [], fun n => by cases db n <;> simp⟩

theorem AddsRows.trans {db₁ db₂ : Db} (h : AddsRows db db₁) (h' : AddsRows db₁ db₂) :
    AddsRows db db₂ := by
  obtain ⟨extra, h⟩ := h
  obtain ⟨extra', h'⟩ := h'
  refine ⟨fun n => extra n ++ extra' n, fun n => ?_⟩
  rw [h', h, Option.map_map]
  cases db n <;> simp

/-- What comes back to where it started has not moved. -/
theorem AddsRows.antisymm {db₁ : Db} (h : AddsRows db db₁) (h' : AddsRows db₁ db) : db₁ = db := by
  obtain ⟨extra, h⟩ := h
  obtain ⟨extra', h'⟩ := h'
  funext n
  have hback := h' n
  rw [h n] at hback ⊢
  cases htbl : db n with
  | none => rfl
  | some tbl =>
      rw [htbl, Option.map_some, Option.map_some] at hback
      have hrows := congrArg Table.rows (Option.some.inj hback)
      simp only [List.append_assoc, List.self_eq_append_right, List.append_eq_nil_iff] at hrows
      rw [Option.map_some, hrows.1, List.append_nil]

/-- Rows are added to one table. -/
theorem AddsRows.update {n : String} {tbl tbl' : Table} (htbl : db n = some tbl)
    (hcolumns : tbl'.columns = tbl.columns) (hkey : tbl'.primaryKey = tbl.primaryKey)
    (hrows : tbl.rows <+: tbl'.rows) : AddsRows db (Function.update db n (some tbl')) := by
  obtain ⟨rows, hrows⟩ := hrows
  refine ⟨fun k => if k = n then rows else [], fun k => ?_⟩
  by_cases hk : k = n
  · subst hk
    simp only [Function.update_self, htbl, Option.map_some, if_true, hrows, ← hcolumns, ← hkey]
  · rw [Function.update_of_ne hk]
    cases db k <;> simp [hk]

/-- The columns and the keys are the same. -/
theorem AddsRows.schema {db₁ : Db} (h : AddsRows db db₁) : schema db₁ = schema db := by
  obtain ⟨extra, h⟩ := h
  funext n
  rw [NBDataBase.schema, h n, NBDataBase.schema]
  cases db n <;> rfl

namespace BatchWrite

/-- The statement of an element, in the blocks that insert models. -/
def added (R : Runtime) : (w : BatchWrite) → w.Element → Except Fault (Option (String × List Obj))
  | insertTable tableClass replace => fun data =>
      createInsertSQLWithModelAndBeginClass R data tableClass replace
  | insertTableName tableName replace => fun data =>
      createInsertSQL R data (some tableName) replace
  | insertColumns tableName columns replace => fun data =>
      createInsertSQLWithColumns R data (some tableName) columns replace
  | _ => fun _ => .ok none

/-- The element fits.  Of a text that is not bound only that it is steady can be said. -/
def ElementFits (R : Runtime) (execute : String → Action Bool) :
    (w : BatchWrite) → w.Element → Db → Prop
  | insertTable tableClass replace => fun data =>
      FitsTable (createInsertSQLWithModelAndBeginClass R data tableClass replace)
  | insertTableName tableName replace => fun data =>
      FitsTable (createInsertSQL R data (some tableName) replace)
  | insertColumns tableName columns replace => fun data =>
      FitsTable (createInsertSQLWithColumns R data (some tableName) columns replace)
  | upsert _ columns => fun data db =>
      (∃ q, createSelectSQLWithPrimaryKey R data none = .ok (some q)) ∧
        FitsTable (createUpdateSQLWithModelAndTableClass R data data.cls (columns.map Columns.sets)
          none) db ∧
        FitsTable (createInsertSQLWithColumns R data none columns false) db
  | updateTable tableClass sets => fun data =>
      FitsTable (createUpdateSQLWithModelAndTableClass R data tableClass sets none)
  | updateTableName tableName sets => fun data =>
      FitsTable (createUpdateSQLWithModelAndTableName R data (some tableName) sets none)
  | w => fun data => Steady R.conv (w.element R execute data)

/-- Every element fits the database as the block finds or creates its table, or is steady there. -/
def Fitting (R : Runtime) (execute : String → Action Bool) (w : BatchWrite)
    (array : List w.Element) (db : Db) : Prop :=
  ∀ data ∈ array, w.ElementFits R execute data (w.start R array db).2 ∨
    Steady R.conv (w.element R execute data) (w.start R array db).2

/-- The block inserts models into a table with a plain name, replaces none, and names its columns,
if it does, by words. -/
def Adds (R : Runtime) : BatchWrite → Prop
  | insertTable tableClass false => ∃ T, tableClass.getTableName = some T ∧ Name T
  | insertTableName tableName false => Name tableName
  | insertColumns tableName columns false => Name tableName ∧
      ∀ c cs, columns = some c → columnsArray R c = .ok cs → ∀ c ∈ cs, Word c
  | _ => False

theorem ElementFits.steady {data : w.Element} (h : w.ElementFits R execute data db) :
    Steady R.conv (w.element R execute data) db := by
  cases w with
  | insertTable | insertTableName | insertColumns => exact FitsTable.steady h |>.2
  | insertStrings | insertNumbers => exact h
  | upsert => exact upsertResult_steady h.1 h.2.1 h.2.2
  | updateTable | updateTableName => exact FitsTable.steady h |>.1

/-- What the block does first raises nothing. -/
theorem start_ok (R : Runtime) (w : BatchWrite) (array : List w.Element) (db : Db) :
    w.start R array db = (.ok (), (w.start R array db).2) := by
  have hcreate : ∀ (cls : ModelClass) (T : String), createTableIfNotExists R cls T db =
      (.ok (), (createTableIfNotExists R cls T db).2) := fun cls T => by rw [create_run]
  cases w with
  | insertTable | updateTable | updateTableName => rfl
  | insertTableName | insertColumns =>
      cases array with
      | nil => rfl
      | cons first rest => exact hcreate first.cls _
  | insertStrings dataClass | insertNumbers dataClass => exact hcreate dataClass _
  | upsert tableName =>
      cases array with
      | nil => rfl
      | cons first rest =>
          show (createTableIfNotExists R first.cls tableName >>= fun _ =>
            getTableSchema tableName >>= fun _ => pure ()) db = (.ok (),
              ((createTableIfNotExists R first.cls tableName >>= fun _ =>
                getTableSchema tableName >>= fun _ => pure ()) db).2)
          rw [Action.bind_ok (hcreate first.cls tableName)]
          rfl

/-- **A block whose elements fit** is all or nothing. -/
theorem Fitting.allOrNothing {array : List w.Element} (h : w.Fitting R execute array db)
    (hdb : Db.Sound R.conv (w.start R array db).2) : AllOrNothing R execute w array db :=
  Served.allOrNothing (w.start_ok R array db) (.of_steady hdb fun data hdata =>
    (h data hdata).elim ElementFits.steady id)

end BatchWrite

/-- What is built of words. -/
inductive BuildsInsert (T : String) : Except Fault (Option (String × List Obj)) → Prop
  | raised (e : Fault) : BuildsInsert T (.error e)
  | text {l : List (String × Obj)} (h : ∀ e ∈ l, Word e.1) :
      BuildsInsert T (.ok (insertText T false (.of l)))

theorem builds_walk {T : String} {m : Model} (ps : List Property) :
    BuildsInsert T (do
      let s ← ps.foldlM (insertStep R m) {}
      return insertText T false s) := by
  by_cases hb : AllBacked m.cls.chain ps
  · rw [insertLoop_run hb]
    exact .text (insertBindings_word hb)
  · rw [insertLoop_error hb]
    exact .raised _

theorem builds_columns {T : String} {m : Model} {columns : Option Columns}
    (hcolumns : ∀ c cs, columns = some c → columnsArray R c = .ok cs → ∀ c ∈ cs, Word c) :
    BuildsInsert T (createInsertSQLWithColumns R m (some T) columns false) := by
  cases columns with
  | none => exact builds_walk _
  | some columns =>
      have hrun : createInsertSQLWithColumns R m (some T) (some columns) false =
          (columnsArray R columns >>= fun cs => cs.foldlM (insertColumnStep m) {} >>= fun s =>
            pure (insertText T false s)) := rfl
      rw [hrun]
      cases hcs : columnsArray R columns with
      | error e => exact .raised e
      | ok cs =>
          show BuildsInsert T (cs.foldlM (insertColumnStep m) {} >>= fun s =>
            pure (insertText T false s))
          cases hloop : cs.foldlM (insertColumnStep m) {} with
          | error e => exact .raised e
          | ok s =>
              have hs : s = .of (columnBindings m cs) := by
                rw [Loop.foldl_of_ok (fun s c _ s' => insertColumnStep_eq) hloop]
                exact Loop.foldl_filterMap (fun c => (m.value c).map fun v => (c, v))
                  (fun (s : InsertState) e => s.append e.1 e.2) cs {}
              rw [hs]
              exact .text fun e he => hcolumns columns cs rfl hcs e.1 (mem_columnBindings.mp he).1

/-- An element of such a block is the insert of words into one table. -/
theorem BatchWrite.Adds.element (h : w.Adds R) : ∃ T, Name T ∧ ∀ data,
    w.element R execute data = executeValues R (w.added R data) ∧
      BuildsInsert T (w.added R data) := by
  cases w with
  | insertTable tableClass replace =>
      cases replace with
      | true => exact h.elim
      | false =>
          obtain ⟨T, htable, hT⟩ := h
          refine ⟨T, hT, fun data => ⟨rfl, ?_⟩⟩
          show BuildsInsert T (createInsertSQLWithModelAndBeginClass R data tableClass false)
          unfold createInsertSQLWithModelAndBeginClass
          rw [htable]
          exact builds_walk _
  | insertTableName tableName replace =>
      cases replace with
      | true => exact h.elim
      | false =>
          refine ⟨tableName, h, fun data => ⟨rfl, ?_⟩⟩
          show BuildsInsert tableName (createInsertSQLWithColumns R data
            (some tableName) none false)
          exact builds_columns fun _ _ hnone => by cases hnone
  | insertColumns tableName columns replace =>
      cases replace with
      | true => exact h.elim
      | false => exact ⟨tableName, h.1, fun data => ⟨rfl, builds_columns h.2⟩⟩
  | insertStrings | insertNumbers | upsert | updateTable | updateTableName => exact h.elim

section Insert

variable {T sql : String} {cs : List String} {n : ℕ} {values : List Obj} {done : Bool} {db' : Db}

/-- An insert that is read fits exactly the tables with its columns. -/
theorem fitsTable_insert (hst : Sql.prepare sql = some (.insert false T cs n))
    (hlen : n = values.length) (hne : values ≠ []) (htaken : values.length ≤ Sql.maxVariables) :
    FitsTable (.ok (some (sql, values))) db ↔
      ∃ tbl, db (fold T) = some tbl ∧ ∀ c ∈ cs, tbl.has c = true := by
  constructor
  · rintro ⟨sql', values', st, h, -, hst', -, -, htbl⟩
    obtain ⟨rfl, rfl⟩ := Prod.mk.inj (Option.some.inj (Except.ok.inj h))
    obtain rfl := Option.some.inj (hst.symm.trans hst')
    exact htbl
  · intro htbl
    exact ⟨sql, values, _, rfl, hne, hst, hlen.le, hlen.le.trans htaken, htbl⟩

/-- It succeeds exactly there, and adds rows at most. -/
theorem executeUpdate_inserts (hst : Sql.prepare sql = some (.insert false T cs n))
    (hlen : n = values.length) (hrun : executeUpdate R sql values db = (.ok done, db')) :
    AddsRows db db' ∧
      (done = true ↔ ∃ tbl, db (fold T) = some tbl ∧ ∀ c ∈ cs, tbl.has c = true) := by
  have hparams : (Sql.Stmt.insert false T cs n).params ≤ values.length := hlen.le
  cases hexec : Sql.exec R.conv db (.insert false T cs n) (values.map (bindObject R)) with
  | some db₁ =>
      rw [executeUpdate_done hst hparams hexec] at hrun
      cases hrun
      obtain ⟨tbl', hbind, rfl⟩ := Option.map_eq_some_iff.mp hexec
      obtain ⟨tbl, htbl, hrow⟩ := Option.bind_eq_some_iff.mp hbind
      obtain ⟨⟨hcolumns, hkey, -⟩, hrows⟩ := Sql.insertRow_effect hrow
      have hall := List.all_eq_true.mp (Option.ite_none_right_eq_some.mp hrow).1
      exact ⟨.update htbl hcolumns hkey hrows, fun _ => ⟨tbl, htbl, hall⟩, fun _ => rfl⟩
  | none =>
      rw [executeUpdate_failed hst hparams hexec] at hrun
      cases hrun
      refine ⟨.refl db, iff_of_false Bool.false_ne_true ?_⟩
      rintro ⟨tbl, htbl, hall⟩
      obtain ⟨tbl', hrow⟩ : ∃ tbl', Sql.insertRow R.conv false cs (values.map (bindObject R)) tbl =
          some tbl' := by
        rw [Sql.insertRow, if_pos (List.all_eq_true.mpr hall), if_neg (by simp)]
        split <;> exact ⟨_, rfl⟩
      have hdone := Sql.onTable_of_some htbl hrow
      rw [show Sql.onTable db T _ = none from hexec] at hdone
      cases hdone

/-- A text that is refused changes nothing. -/
theorem executeValues_refused (hnone : Sql.prepare sql = none) (hrefused : Sql.Refused sql)
    (hrun : executeValues R (.ok (some (sql, values))) db = (.ok done, db')) :
    done = false ∧ db' = db := by
  have hrun : (if values.length > 0 then executeUpdate R sql values else pure false) db =
      (.ok done, db') := hrun
  split at hrun
  · rw [executeUpdate_refused hnone hrefused] at hrun
    cases hrun
    exact ⟨rfl, rfl⟩
  · cases hrun
    exact ⟨rfl, rfl⟩

/-- **One insert** succeeds exactly when its statement fits, and adds rows at most. -/
theorem executeValues_inserts (hT : Name T) {built : Except Fault (Option (String × List Obj))}
    (h : BuildsInsert T built) (htaken : TakesValues built)
    (hrun : executeValues R built db = (.ok done, db')) :
    AddsRows db db' ∧ (done = true ↔ FitsTable built db) := by
  cases h with
  | raised e => cases hrun
  | @text l hw =>
      by_cases hl : l = []
      · subst hl
        cases hrun
        refine ⟨.refl db, iff_of_false Bool.false_ne_true ?_⟩
        rintro ⟨_, _, _, h, _⟩
        cases h
      · by_cases hn : ∀ e ∈ l, Name e.1
        · obtain ⟨sql, hsql, hst⟩ := prepare_insert hT false hl hn
          rw [hsql] at hrun htaken ⊢
          have hlen : l.length = (l.map (·.2)).length := (List.length_map _).symm
          have hne : l.map (·.2) ≠ [] := by simpa using hl
          have hrun : (if (l.map (·.2)).length > 0 then executeUpdate R sql (l.map (·.2))
              else pure false) db = (.ok done, db') := hrun
          rw [if_pos (List.length_pos_iff.mpr hne)] at hrun
          rw [fitsTable_insert hst hlen hne (htaken _ _ rfl)]
          exact executeUpdate_inserts hst hlen hrun
        · -- a column that is no name
          obtain ⟨⟨sql, values⟩, hsql⟩ : ∃ built, insertText T false (.of l) = some built := by
            rw [insertText, if_neg]
            · exact ⟨_, rfl⟩
            · rw [InsertState.of_eq fun e he => (hw e he).1]
              exact intercalate_ne (by simpa using hl) (by simp)
          have hnone := prepare_insert_none hT false hw hn hsql
          rw [hsql] at hrun ⊢
          obtain ⟨rfl, rfl⟩ := executeValues_refused hnone
            (insertText_refused hT false hw hn hsql) hrun
          refine ⟨.refl _, iff_of_false Bool.false_ne_true ?_⟩
          rintro ⟨sql', values', _, h, -, hst, -⟩
          obtain ⟨rfl, -⟩ := Prod.mk.inj (Option.some.inj (Except.ok.inj h))
          rw [hnone] at hst
          cases hst

end Insert

/-- Rows do not decide whether a statement fits. -/
theorem FitsTable.adds {db₁ : Db} (h : AddsRows db db₁)
    (built : Except Fault (Option (String × List Obj))) : FitsTable built db₁ ↔
      FitsTable built db :=
  ⟨FitsTable.congr h.schema.symm, FitsTable.congr h.schema⟩

/-- What is built is executed, and raises nothing. -/
theorem executeValues_ok (built : Option (String × List Obj)) (db : Db) :
    ∃ done db', executeValues R (.ok built) db = (.ok done, db') := by
  rcases built with _ | ⟨sql, values⟩
  · exact ⟨false, db, rfl⟩
  · have hrun : executeValues R (.ok (some (sql, values))) db =
        (if values.length > 0 then executeUpdate R sql values else pure false) db := rfl
    rw [hrun]
    split
    · rw [executeUpdate]
      repeat' split
      all_goals exact ⟨_, _, rfl⟩
    · exact ⟨false, db, rfl⟩

/-- Actions that add rows, and succeed when their statement fits. -/
def Inserting {α : Type} (f : α → Action Bool)
    (built : α → Except Fault (Option (String × List Obj))) (xs : List α) : Prop :=
  ∀ x ∈ xs, ∀ db, ((∃ b, built x = .ok b) → ∃ done db', f x db = (.ok done, db')) ∧
    ∀ done db', f x db = (.ok done, db') →
      AddsRows db db' ∧ (done = true ↔ FitsTable (built x) db)

theorem BatchWrite.Adds.inserting (h : w.Adds R) {array : List w.Element}
    (hvalues : ∀ data ∈ array, TakesValues (w.added R data)) :
    Inserting (w.element R execute) (w.added R) array := by
  obtain ⟨T, hT, helement⟩ : ∃ T, Name T ∧ ∀ data,
      w.element R execute data = executeValues R (w.added R data) ∧
        BuildsInsert T (w.added R data) := h.element
  intro data hdata db
  obtain ⟨hrun, hbuilds⟩ := helement data
  rw [hrun]
  refine ⟨?_, fun done db' => executeValues_inserts hT hbuilds (hvalues data hdata)⟩
  rintro ⟨b, hb⟩
  rw [hb]
  exact executeValues_ok b db

section Loop

variable {α : Type} {f : α → Action Bool} {xs : List α}
  {built : α → Except Fault (Option (String × List Obj))} (hf : Inserting f built xs)
include hf

/-- Statements that fit are served. -/
theorem Inserting.served (h : ∀ x ∈ xs, FitsTable (built x) db) : Served f xs db := by
  induction xs generalizing db with
  | nil => exact .nil db
  | cons x xs ih =>
      have hx := h x List.mem_cons_self
      obtain ⟨hruns, hfits⟩ := hf x List.mem_cons_self db
      obtain ⟨done, db', hrun⟩ := hruns hx.built
      obtain ⟨hadds, hdone⟩ := hfits done db' hrun
      rw [hdone.mpr hx] at hrun
      exact .cons hrun (ih (fun y hy => hf y (List.mem_cons_of_mem _ hy)) fun y hy =>
        (FitsTable.adds hadds (built y)).mpr (h y (List.mem_cons_of_mem _ hy)))

/-- **A loop of inserts** adds rows.  All succeed when all fit, and when nothing has changed in the
end, no insert alone changes anything. -/
theorem Inserting.mapAll {outcomes : List Bool} {db' : Db}
    (hrun : Action.mapAll f xs db = (.ok outcomes, db')) :
    AddsRows db db' ∧ (outcomes.all id = true → ∀ x ∈ xs, FitsTable (built x) db) ∧
      (db' = db → ∀ x ∈ xs, ∃ done, f x db = (.ok done, db)) := by
  induction xs generalizing db outcomes with
  | nil =>
      cases hrun
      exact ⟨.refl _, fun _ x hx => absurd hx List.not_mem_nil,
        fun _ x hx => absurd hx List.not_mem_nil⟩
  | cons x xs ih =>
      rcases hx : f x db with ⟨e | done, db₁⟩
      · have herror : Action.mapAll f (x :: xs) db = (.error e, db₁) := Action.bind_error hx
        rw [herror] at hrun
        cases hrun
      · have hrest : Action.mapAll f (x :: xs) db =
            (Action.mapAll f xs >>= fun ys => pure (done :: ys)) db₁ := Action.bind_ok hx
        rw [hrest] at hrun
        rcases hxs : Action.mapAll f xs db₁ with ⟨e | rest, db₂⟩
        · rw [Action.bind_error hxs] at hrun
          cases hrun
        · rw [Action.bind_ok hxs] at hrun
          cases hrun
          obtain ⟨hadds, hdone⟩ := (hf x List.mem_cons_self db).2 done db₁ hx
          obtain ⟨hadds', hall, hsame⟩ := ih (fun y hy => hf y (List.mem_cons_of_mem _ hy)) hxs
          refine ⟨hadds.trans hadds', fun htrue y hy => ?_, fun hback y hy => ?_⟩
          · rw [List.all_cons, Bool.and_eq_true] at htrue
            rcases List.mem_cons.mp hy with rfl | hy
            · exact hdone.mp htrue.1
            · exact (FitsTable.adds hadds (built y)).mp (hall htrue.2 y hy)
          · obtain rfl : db₁ = db := hadds.antisymm (hback ▸ hadds')
            rcases List.mem_cons.mp hy with rfl | hy
            · exact ⟨done, hx⟩
            · exact hsame hback y hy

end Loop

/-- What such a block does first creates a table at most. -/
theorem BatchWrite.Adds.start (h : w.Adds R) (array : List w.Element) (db : Db) :
    ∃ db₁, w.start R array db = (.ok (), db₁) ∧
      (db₁ = db ∨ ∃ n, db n = none ∧ (db₁ n).isSome) := by
  have hcreate : ∀ cls T, Name T → ∃ db₁, createTableIfNotExists R cls T db = (.ok (), db₁) ∧
      (db₁ = db ∨ ∃ n, db n = none ∧ (db₁ n).isSome) := by
    intro cls T hT
    refine ⟨created R cls T db, create_run R cls T db, ?_⟩
    obtain ⟨o, ho⟩ := created_eq hT R cls
    rw [ho]
    split
    · exact .inl rfl
    · rename_i hfree
      cases o with
      | none => exact .inl rfl
      | some tbl =>
          have hnone := Option.not_isSome_iff_eq_none.mp (not_or.mp hfree).2
          exact .inr ⟨fold T, hnone, by simp⟩
  cases w with
  | insertTable tableClass replace => exact ⟨db, rfl, .inl rfl⟩
  | insertTableName tableName replace =>
      cases array with
      | nil => exact ⟨db, rfl, .inl rfl⟩
      | cons first rest =>
          cases replace with
          | true => exact h.elim
          | false => exact hcreate first.cls tableName h
  | insertColumns tableName columns replace =>
      cases array with
      | nil => exact ⟨db, rfl, .inl rfl⟩
      | cons first rest =>
          cases replace with
          | true => exact h.elim
          | false => exact hcreate first.cls tableName h.1
  | insertStrings | insertNumbers | upsert | updateTable | updateTableName => exact h.elim

/-! ### When a batch is all or nothing -/

/-- A table of books from before books had dictionaries. -/
def bookshelf : Db := fun n =>
  if n = "tb_books" then some ⟨[("_bookId", "VARCHAR"), ("_name", "VARCHAR")], ["_bookId"], []⟩
  else none

/-- A book with an identifier only. -/
def bareBook : Model := .ofIvars bookClass fun key =>
  if key = "_bookId" then some (.string "NSString" "8") else none

/-- An element that fails after a change. -/
theorem not_allOrNothing {array : List w.Element} {outcomes : List Bool}
    (hresults : (w.results R execute array db).1.toOption = some outcomes)
    (hfails : outcomes.all id = false) {n : String}
    (hchanged : (w.results R execute array db).2 n ≠ db n) :
    ¬ AllOrNothing R execute w array db := by
  intro h
  have hdb := h.2
  rw [run_results] at hdb
  rcases hrun : w.results R execute array db with ⟨e | outcomes', db'⟩
  · rw [hrun] at hresults
    cases hresults
  · rw [hrun] at hresults hchanged hdb
    obtain rfl := Option.some.inj hresults
    simp only [hfails] at hdb
    exact hchanged (congrFun hdb n)

end NBDataBase
