import NBDataBase.Orm.Batch
import NBDataBase.Orm.Transactions

/-!
# Orm — a batch and its elements

The inserts and updates of an array of models: an array of one takes the path of a single model,
a longer one the block in a transaction.

* `ArrayWrite`: the five forms.  `ArrayWrite.single`, `ArrayWrite.write`: what an array of one and
  any array do, from the source.
* `exec_isSome`: only `CREATE TABLE` changes which tables there are.
* `AllSucceed`: the block raises nothing, and every statement in it succeeds.
* `write_eq_singles`: an array of two or more models of a class leaves the database as arrays of
  one, in order.
-/

namespace NBDataBase
open Sql (Db Table Stmt Token fold lex prepare)

/-! ### The forms -/

/-- The batch inserts and updates of models. -/
inductive ArrayWrite where
  /-- `insertToDBWithDataArray:table:replace:`. -/
  | insertTable (tableClass : ModelClass) (replace : Bool)
  /-- `insertToDBWithDataArray:tableName:replace:`. -/
  | insertTableName (tableName : String) (replace : Bool)
  /-- `insertToDBWithDataArray:tableName:columns:replace:`. -/
  | insertColumns (tableName : String) (columns : Option Columns) (replace : Bool)
  /-- `updateWithDataArray:table:set:`. -/
  | updateTable (tableClass : ModelClass) (sets : Option Sets)
  /-- `updateWithDataArray:tableName:set:`. -/
  | updateTableName (tableName : String) (sets : Option Sets)

section

variable (R : Runtime)

def updateWithModelTableNameSetWhere (model : Model) (tableName : String) (sets : Option Sets)
    (condition : Option Where) : Action Bool := do
  if tableName.length = 0 then
    Action.build (assertNo R)
    return false
  executeBuilt R (createUpdateSQLWithModelAndTableName R model (some tableName) sets condition)

namespace ArrayWrite

/-- What an array of one does. -/
def single (data : Model) : ArrayWrite → Action Unit
  | insertTable tableClass replace => inDatabase do
      ignore (executeValues R (createInsertSQLWithModelAndBeginClass R data tableClass replace))
  | insertTableName tableName replace =>
      ignore (insertToDBWithModelTableNameReplace R data tableName replace)
  | insertColumns tableName columns replace => inDatabase do
      createTableIfNotExists R data.cls tableName
      ignore (executeValues R
        (createInsertSQLWithColumns R data (some tableName) columns replace))
  | updateTable tableClass sets =>
      ignore (updateWithModelTableSetWhere R data tableClass sets none)
  | updateTableName tableName sets =>
      ignore (updateWithModelTableNameSetWhere R data tableName sets none)

/-- The block of a longer array. -/
def block (execute : String → Action Bool) (array : List Model) :
    ArrayWrite → DbConnection → Except Fault Unit × DbConnection
  | insertTable tableClass replace =>
      (BatchWrite.insertTable tableClass replace).run R execute array
  | insertTableName tableName replace =>
      (BatchWrite.insertTableName tableName replace).run R execute array
  | insertColumns tableName columns replace =>
      (BatchWrite.insertColumns tableName columns replace).run R execute array
  | updateTable tableClass sets => (BatchWrite.updateTable tableClass sets).run R execute array
  | updateTableName tableName sets =>
      (BatchWrite.updateTableName tableName sets).run R execute array

/-- An action outside a transaction. -/
def onConnection (x : Action Unit) (conn : DbConnection) : Except Fault Unit × DbConnection :=
  ((x conn.db).1, { conn with db := (x conn.db).2 })

/-- The method, by how many models the array has. -/
def write (execute : String → Action Bool) (w : ArrayWrite) (array : List Model)
    (conn : DbConnection) : Except Fault Unit × DbConnection :=
  match array with
  | [] => (.ok (), conn)
  | [data] => onConnection (w.single R data) conn
  | _ => w.block R execute array conn

/-- The method at each element alone, in order. -/
def writeEach (execute : String → Action Bool) (w : ArrayWrite) :
    List Model → DbConnection → Except Fault Unit × DbConnection
  | [], conn => (.ok (), conn)
  | data :: rest, conn =>
      match w.write R execute [data] conn with
      | (.ok _, conn) => w.writeEach execute rest conn
      | (.error e, conn) => (.error e, conn)

/-- The statement built for an element of the block. -/
def built (data : Model) : ArrayWrite → Except Fault (Option (String × List Obj))
  | insertTable tableClass replace =>
      createInsertSQLWithModelAndBeginClass R data tableClass replace
  | insertTableName tableName replace => createInsertSQL R data (some tableName) replace
  | insertColumns tableName columns replace =>
      createInsertSQLWithColumns R data (some tableName) columns replace
  | updateTable tableClass sets =>
      createUpdateSQLWithModelAndTableClass R data tableClass sets none
  | updateTableName tableName sets =>
      createUpdateSQLWithModelAndTableName R data (some tableName) sets none

/-- The block, with the results that it does not look at. -/
def results (execute : String → Action Bool) (array : List Model) :
    ArrayWrite → Action (List Bool)
  | insertTable tableClass replace =>
      (BatchWrite.insertTable tableClass replace).results R execute array
  | insertTableName tableName replace =>
      (BatchWrite.insertTableName tableName replace).results R execute array
  | insertColumns tableName columns replace =>
      (BatchWrite.insertColumns tableName columns replace).results R execute array
  | updateTable tableClass sets =>
      (BatchWrite.updateTable tableClass sets).results R execute array
  | updateTableName tableName sets =>
      (BatchWrite.updateTableName tableName sets).results R execute array

end ArrayWrite

end

/-- The block raises nothing, and every statement that is built in it succeeds. -/
def AllSucceed (R : Runtime) (execute : String → Action Bool) (w : ArrayWrite)
    (array : List Model) (db : Db) : Prop :=
  ∃ outcomes db', w.results R execute array db = (.ok outcomes, db') ∧
    ∀ p ∈ array.zip outcomes, w.built R p.1 ≠ .ok none → p.2 = true

variable {R : Runtime} {execute : String → Action Bool} {w : ArrayWrite} {xs : List Model}
  {db db' : Db}

/-! ### Which tables there are -/

/-- Only `CREATE TABLE` changes which tables there are. -/
theorem exec_isSome {conv : Sql.Conversions} {st : Stmt} {vs : List Sql.Value}
    (h : Sql.exec conv db st vs = some db') (hst : ∀ t ds pk, st ≠ .create t ds pk) (n : String) :
    (db' n).isSome = (db n).isSome := by
  have honTable : ∀ t f, Sql.onTable db t f = some db' → (db' n).isSome = (db n).isSome := by
    intro t f h
    by_cases hn : n = fold t
    · obtain ⟨tbl', hf, rfl⟩ := Option.map_eq_some_iff.mp h
      obtain ⟨tbl, htbl, -⟩ := Option.bind_eq_some_iff.mp hf
      rw [hn, Function.update_self, htbl]
      rfl
    · rw [Sql.onTable_other h hn]
  cases st with
  | create t ds pk => exact absurd rfl (hst t ds pk)
  | select t as => cases h
  | addColumn t c type => exact honTable t _ h
  | insert replace t cs params => exact honTable t _ h
  | update t sets conds => exact honTable t _ h
  | delete t conds => exact honTable t _ h

/-- A text that starts with `insert` creates no table. -/
theorem prepare_insert_word {text : String} {st : Stmt}
    (h : prepare ("insert " ++ text) = some st) (t : String) (ds : List (String × String))
    (pk : List String) : st ≠ .create t ds pk := by
  have hlex : lex ("insert " ++ text) = .word "insert" :: lex text := by
    rw [Sql.lex_closed (by decide)]
    rfl
  have hk : fold "insert" = "insert" := by decide
  have hparse : Sql.parse (.word "insert" :: lex text) =
      Sql.parseInsert (.word "insert" :: lex text) := by
    rw [Sql.parse_first, hk]
    rfl
  rw [prepare, hlex, hparse] at h
  unfold Sql.parseInsert at h
  obtain ⟨ts, -, h⟩ := Option.bind_eq_some_iff.mp h
  obtain ⟨⟨replace, ts'⟩, -, h⟩ := Option.bind_eq_some_iff.mp h
  obtain ⟨ts'', -, h⟩ := Option.bind_eq_some_iff.mp h
  obtain ⟨⟨table, ts₃⟩, -, h⟩ := Option.bind_eq_some_iff.mp h
  obtain ⟨⟨columns, n⟩, -, h⟩ := Option.bind_eq_some_iff.mp h
  cases Option.some.inj h
  simp

/-- What SQLite reads in a text that starts with `update`. -/
theorem prepare_update_word (text : String) :
    prepare ("update " ++ text) = Sql.parseUpdate (.word "update" :: lex text) := by
  have hlex : lex ("update " ++ text) = .word "update" :: lex text := by
    rw [Sql.lex_closed (by decide)]
    rfl
  have hk : fold "update" = "update" := by decide
  rw [prepare, hlex, Sql.parse_first, hk]
  rfl

theorem prepare_update_update {text : String} {st : Stmt}
    (h : prepare ("update " ++ text) = some st) (t : String) (ds : List (String × String))
    (pk : List String) : st ≠ .create t ds pk := by
  rw [prepare_update_word] at h
  unfold Sql.parseUpdate at h
  obtain ⟨ts, -, h⟩ := Option.bind_eq_some_iff.mp h
  obtain ⟨⟨table, ts'⟩, -, h⟩ := Option.bind_eq_some_iff.mp h
  obtain ⟨⟨sets, conds⟩, -, h⟩ := Option.bind_eq_some_iff.mp h
  cases Option.some.inj h
  simp

theorem formatted_unnamed {tableName : Option String} (h : (tableName.getD "").length = 0) :
    formatted tableName = "" ∨ formatted tableName = "(null)" := by
  cases tableName with
  | none => exact .inr rfl
  | some T => exact .inl (String.length_eq_zero_iff.mp h)

/-- An update needs the name of its table. -/
theorem prepare_update_unnamed {tableName : Option String} (h : (tableName.getD "").length = 0)
    (text : String) : prepare ("update " ++ (formatted tableName ++ (" set " ++ text))) = none := by
  have hstart : lex (formatted tableName ++ (" set " ++ text)) = .word "set" :: lex text ∨
      ∃ ts, lex (formatted tableName ++ (" set " ++ text)) = .sym '(' :: ts := by
    have hset : lex (" set " ++ text) = .word "set" :: lex text := by
      rw [Sql.lex_closed (by decide)]
      rfl
    cases tableName with
    | none =>
        refine .inr ⟨.word "null" :: .sym ')' :: lex (" set " ++ text), ?_⟩
        rw [formatted, Option.getD_none, Sql.lex_closed (by decide)]
        rfl
    | some T =>
        have hT : T = "" := String.length_eq_zero_iff.mp h
        refine .inl ?_
        rw [hT, formatted, Option.getD_some, String.empty_append, hset]
  have hk : fold "update" = "update" := by decide
  have hset : ¬ Sql.Name "set" := by decide
  rw [prepare_update_word]
  rcases hstart with h | ⟨ts, h⟩
  · simp [h, Sql.parseUpdate, Sql.keyword, hk, Sql.name, hset]
  · simp [h, Sql.parseUpdate, Sql.keyword, hk, Sql.name]

/-! ### Actions that keep the tables -/

/-- The action neither makes nor removes a table. -/
def KeepsTables (x : Action Bool) : Prop :=
  ∀ db n, ((x db).2 n).isSome = (db n).isSome

/-- A text of an insert or of an update. -/
def Writes (sql : String) : Prop :=
  (∃ text, sql = "insert " ++ text) ∨ ∃ text, sql = "update " ++ text

/-- Only a `CREATE TABLE` makes a table. -/
theorem executeUpdate_keepsTables {sql : String} (h : Writes sql) (args : List Obj) :
    KeepsTables (executeUpdate R sql args) := by
  intro db n
  unfold executeUpdate
  cases hst : prepare sql with
  | none =>
      dsimp only
      have hstays : ∀ db', R.sqlite.update sql (args.map (bindObject R)) db = some db' →
          (db' n).isSome = (db n).isSome := by
        intro db' hrun
        obtain ⟨text, rfl⟩ | ⟨text, rfl⟩ := h
        · exact R.sqlite.stays (.inl rfl) text hrun n
        · exact R.sqlite.stays (.inr rfl) text hrun n
      split
      · exact hstays _ ‹_›
      · rfl
  | some st =>
      have hcreate : ∀ t ds pk, st ≠ .create t ds pk := by
        obtain ⟨text, rfl⟩ | ⟨text, rfl⟩ := h
        · exact prepare_insert_word hst
        · exact prepare_update_update hst
      dsimp only
      split
      · rfl
      · split
        · exact exec_isSome ‹_› hcreate n
        · rfl

/-- A statement that is executed, or none. -/
theorem executeBuilt_keepsTables {built : Except Fault (Option (String × List Obj))}
    (h : ∀ sql values, built = .ok (some (sql, values)) → Writes sql) :
    KeepsTables (executeBuilt R built) := by
  rcases built with e | (_ | ⟨sql, values⟩)
  · exact fun _ _ => rfl
  · exact fun _ _ => rfl
  · intro db n
    rw [executeBuilt_some rfl]
    exact executeUpdate_keepsTables (h sql values rfl) values db n

/-- A builder that hands out values with every statement. -/
theorem executeValues_eq {built : Except Fault (Option (String × List Obj))}
    (h : ∀ sql values, built = .ok (some (sql, values)) → values ≠ []) :
    executeValues R built = executeBuilt R built := by
  rcases built with e | (_ | ⟨sql, values⟩)
  · rfl
  · rfl
  · funext db
    have hlen : values.length > 0 := List.length_pos_iff.mpr (h sql values rfl)
    rw [executeBuilt_some rfl]
    show (if values.length > 0 then executeUpdate R sql values else pure false) db = _
    rw [if_pos hlen]

/-! ### The builders of the elements -/

/-- A list with a mark has a value. -/
theorem insertText_some {T sql : String} {replace : Bool} {s : InsertState} {values : List Obj}
    (hs : s.marks ≠ "" → s.values ≠ []) (h : insertText T replace s = some (sql, values)) :
    (∃ text, sql = "insert " ++ text) ∧ values ≠ [] := by
  unfold insertText at h
  split at h
  · cases h
  · obtain ⟨rfl, rfl⟩ := Prod.mk.inj (Option.some.inj h)
    exact ⟨⟨_, rfl⟩, hs ‹_›⟩

theorem InsertState.append_values (s : InsertState) (key : String) (value : Obj) :
    (s.append key value).marks ≠ "" → (s.append key value).values ≠ [] := by
  simp [InsertState.append]

theorem insertLoop_values {model : Model} {ps : List Property} {s : InsertState}
    (h : ps.foldlM (insertStep R model) {} = .ok s) : s.marks ≠ "" → s.values ≠ [] := by
  refine Loop.foldlM_invariant (f := insertStep R model)
    (I := fun s => s.marks ≠ "" → s.values ≠ []) (fun s p _ s' hs hstep => ?_) (by simp) h
  unfold insertStep at hstep
  split at hstep
  · obtain ⟨key, -, hstep⟩ := Loop.of_bind_ok hstep
    obtain ⟨value, -, hstep⟩ := Loop.of_bind_ok hstep
    cases value with
    | none => cases hstep; exact hs
    | some value => cases hstep; exact s.append_values key _
  · cases hstep; exact hs

theorem insertColumnLoop_values {model : Model} {cs : List String} {s : InsertState}
    (h : cs.foldlM (insertColumnStep model) {} = .ok s) : s.marks ≠ "" → s.values ≠ [] := by
  refine Loop.foldlM_invariant (f := insertColumnStep model)
    (I := fun s => s.marks ≠ "" → s.values ≠ []) (fun s c _ s' hs hstep => ?_) (by simp) h
  unfold insertColumnStep at hstep
  obtain ⟨value, -, hstep⟩ := Loop.of_bind_ok hstep
  cases value with
  | none => cases hstep; exact hs
  | some value => cases hstep; exact s.append_values c _

/-- The builders of inserts. -/
theorem createInsertSQLWithColumns_some {model : Model} {T : String} {columns : Option Columns}
    {replace : Bool} {sql : String} {values : List Obj}
    (h : createInsertSQLWithColumns R model (some T) columns replace = .ok (some (sql, values))) :
    (∃ text, sql = "insert " ++ text) ∧ values ≠ [] := by
  unfold createInsertSQLWithColumns at h
  dsimp only [Option.some_or] at h
  cases columns with
  | none =>
      obtain ⟨s, hs, h⟩ := Loop.of_bind_ok h
      exact insertText_some (insertLoop_values hs) (Except.ok.inj h)
  | some columns =>
      obtain ⟨cs, -, h⟩ := Loop.of_bind_ok h
      obtain ⟨s, hs, h⟩ := Loop.of_bind_ok h
      exact insertText_some (insertColumnLoop_values hs) (Except.ok.inj h)

theorem createInsertSQLWithModelAndBeginClass_some {model : Model} {beginClass : ModelClass}
    {replace : Bool} {sql : String} {values : List Obj}
    (h : createInsertSQLWithModelAndBeginClass R model beginClass replace =
      .ok (some (sql, values))) : (∃ text, sql = "insert " ++ text) ∧ values ≠ [] := by
  unfold createInsertSQLWithModelAndBeginClass at h
  split at h
  · cases h
  · obtain ⟨s, hs, h⟩ := Loop.of_bind_ok h
    exact insertText_some (insertLoop_values hs) (Except.ok.inj h)

/-- The condition of an update without `where`. -/
theorem extractWhereSql_none {sql : String} {model : Model} {r : Extracted}
    (h : extractWhereSql R sql none true (some model) = .ok r) :
    (∃ clause, r.sql = sql ++ clause) ∧ (r.error = true → R.asserts = false) := by
  have hassert : ∀ {x : Except Fault Extracted}, (assertNo R >>= fun _ => x) = .ok r →
      R.asserts = false ∧ x = .ok r := by
    intro x hx
    unfold assertNo at hx
    cases hR : R.asserts with
    | true => rw [hR] at hx; cases hx
    | false => rw [hR] at hx; exact ⟨rfl, hx⟩
  have h : (wherePrimaryKeySQLWithModel R model >>= fun w =>
      if w.1.length = 0 then assertNo R >>= fun _ => pure ⟨sql, [], true⟩
      else pure ⟨sql ++ w.1, w.2, false⟩) = .ok r := by
    rw [← h]
    show _ = (wherePrimaryKeySQLWithModel R model >>= fun w => _)
    congr 1
  obtain ⟨w, -, h⟩ := Loop.of_bind_ok h
  split at h
  · obtain ⟨hR, h⟩ := hassert h
    cases h
    exact ⟨⟨"", String.append_empty.symm⟩, fun _ => hR⟩
  · cases h
    exact ⟨⟨w.1, rfl⟩, fun h => by cases h⟩

/-- The builder of an update. -/
theorem createUpdateSQL_some {model : Model} {tableName : Option String} {sets : Option Sets}
    {sql : String} {values : List Obj}
    (h : createUpdateSQLWithModelAndTableName R model tableName sets none =
      .ok (some (sql, values))) :
    ∃ text, sql = "update " ++ (formatted tableName ++ (" set " ++ text)) := by
  unfold createUpdateSQLWithModelAndTableName at h
  obtain ⟨⟨key, updateValues⟩, -, h⟩ := Loop.of_bind_ok h
  obtain ⟨r, hr, h⟩ := Loop.of_bind_ok h
  obtain ⟨⟨clause, hclause⟩, -⟩ := extractWhereSql_none hr
  split at h
  · cases h
  · obtain ⟨rfl, -⟩ := Prod.mk.inj (Option.some.inj (Except.ok.inj h))
    rw [hclause, updateText]
    simp only [String.append_assoc]
    exact ⟨_, rfl⟩

/-- It returns no statement only where assertions are compiled out. -/
theorem createUpdateSQL_none {model : Model} {tableName : Option String} {sets : Option Sets}
    (h : createUpdateSQLWithModelAndTableName R model tableName sets none = .ok none) :
    R.asserts = false := by
  unfold createUpdateSQLWithModelAndTableName at h
  obtain ⟨⟨key, updateValues⟩, -, h⟩ := Loop.of_bind_ok h
  obtain ⟨r, hr, h⟩ := Loop.of_bind_ok h
  split at h
  · exact (extractWhereSql_none hr).2 ‹_›
  · cases h

theorem insert_keepsTables {built : Except Fault (Option (String × List Obj))}
    (h : ∀ sql values, built = .ok (some (sql, values)) →
      (∃ text, sql = "insert " ++ text) ∧ values ≠ []) : KeepsTables (executeValues R built) := by
  rw [executeValues_eq fun sql values hb => (h sql values hb).2]
  exact executeBuilt_keepsTables fun sql values hb => .inl (h sql values hb).1

theorem update_keepsTables {model : Model} {tableName : Option String} {sets : Option Sets} :
    KeepsTables (executeBuilt R (createUpdateSQLWithModelAndTableName R model tableName sets
      none)) := by
  refine executeBuilt_keepsTables fun sql values hb => ?_
  obtain ⟨text, rfl⟩ := createUpdateSQL_some hb
  exact .inr ⟨_, rfl⟩

/-- An update of a table without a name does nothing: it fails where assertions are compiled in,
and where they are not its block executes no statement that succeeds. -/
theorem unnamed_update {model : Model} {tableName : Option String} {sets : Option Sets}
    (hname : (tableName.getD "").length = 0) {o : Bool} {db db' : Db}
    (h : executeBuilt R (createUpdateSQLWithModelAndTableName R model tableName sets none) db =
      (.ok o, db'))
    (hok : createUpdateSQLWithModelAndTableName R model tableName sets none ≠ .ok none → o = true) :
    R.asserts = false ∧ db' = db := by
  rcases hb : createUpdateSQLWithModelAndTableName R model tableName sets none with
    e | (_ | ⟨sql, values⟩)
  · rw [executeBuilt_error hb] at h
    cases h
  · rw [executeBuilt_none hb] at h
    cases h
    exact ⟨createUpdateSQL_none hb, rfl⟩
  · obtain ⟨text, rfl⟩ := createUpdateSQL_some hb
    rw [executeBuilt_some hb, executeUpdate_refused (prepare_update_unnamed hname text)
      (.updateUnnamed (formatted_unnamed hname) text)] at h
    cases h
    rw [hb] at hok
    exact absurd (hok (by simp)) (by simp)

/-! ### One after another -/

/-- **The elements of a block one after another.**  `start` is what the block does first, and an
element alone does it again; it does nothing more while the tables stay. -/
theorem each_single (start : Db → Db)
    (built : Model → Except Fault (Option (String × List Obj))) (element : Model → Action Bool)
    {single : Model → Action Unit}
    (hstart : ∀ db db' : Db, (∀ n, (db' n).isSome = (start db n).isSome) → start db' = db')
    (hkeeps : ∀ x ∈ xs, KeepsTables (element x))
    (hsingle : ∀ x ∈ xs, ∀ db o db', element x (start db) = (.ok o, db') →
      (built x ≠ .ok none → o = true) → single x db = (.ok (), db'))
    (hne : xs ≠ []) {outcomes : List Bool}
    (hrun : Action.mapAll element xs (start db) = (.ok outcomes, db'))
    (hok : ∀ p ∈ xs.zip outcomes, built p.1 ≠ .ok none → p.2 = true) :
    Action.each single xs db = (.ok (), db') := by
  induction xs generalizing db outcomes with
  | nil => exact absurd rfl hne
  | cons x xs ih =>
      rcases hx : element x (start db) with ⟨e | o, db₁⟩
      · have herror : Action.mapAll element (x :: xs) (start db) = (.error e, db₁) :=
          Action.bind_error hx
        rw [herror] at hrun
        cases hrun
      · have hrest : Action.mapAll element (x :: xs) (start db) =
            (Action.mapAll element xs >>= fun os => pure (o :: os)) db₁ := Action.bind_ok hx
        rw [hrest] at hrun
        rcases hxs : Action.mapAll element xs db₁ with ⟨e | os, db₂⟩
        · rw [Action.bind_error hxs] at hrun
          cases hrun
        · rw [Action.bind_ok hxs] at hrun
          obtain ⟨hos, rfl⟩ := Prod.mk.inj hrun
          obtain rfl := (Except.ok.inj hos).symm
          have hone := hsingle x List.mem_cons_self db o db₁ hx
            (hok (x, o) (by simp))
          have hstep : Action.each single (x :: xs) db = Action.each single xs db₁ :=
            Action.bind_ok hone
          rw [hstep]
          by_cases hnil : xs = []
          · subst hnil
            cases hxs
            rfl
          · -- the tables have stayed, so the next element finds them made
            have htables : ∀ n, (db₁ n).isSome = (start db n).isSome := fun n => by
              have hk := hkeeps x List.mem_cons_self (start db) n
              rw [hx] at hk
              exact hk
            have hagain := hstart db db₁ htables
            rw [← hagain] at hxs
            exact ih (fun y hy => hkeeps y (List.mem_cons_of_mem _ hy))
              (fun y hy => hsingle y (List.mem_cons_of_mem _ hy)) hnil hxs
              fun p hp => hok p (List.mem_cons_of_mem _ hp)

theorem writeEach_eq (w : ArrayWrite) (xs : List Model) (db : Db) :
    w.writeEach R execute xs ⟨db, none⟩ =
      ((Action.each (fun data => w.single R data) xs db).1,
        ⟨(Action.each (fun data => w.single R data) xs db).2, none⟩) := by
  induction xs generalizing db with
  | nil => rfl
  | cons x xs ih =>
      have hwrite : w.write R execute [x] ⟨db, none⟩ =
          ((w.single R x db).1, ⟨(w.single R x db).2, none⟩) := rfl
      rw [ArrayWrite.writeEach, hwrite]
      rcases hx : w.single R x db with ⟨e | u, db₁⟩
      · have hall : Action.each (fun data => w.single R data) (x :: xs) db = (.error e, db₁) :=
          Action.bind_error hx
        rw [hall]
      · have hall : Action.each (fun data => w.single R data) (x :: xs) db =
            Action.each (fun data => w.single R data) xs db₁ := Action.bind_ok hx
        rw [hall]
        exact ih db₁

/-! ### The batch -/

/-- A block that raises nothing commits. -/
theorem run_done {b : BatchWrite} {array : List b.Element} {outcomes : List Bool}
    (h : b.results R execute array db = (.ok outcomes, db')) :
    b.run R execute array ⟨db, none⟩ = (.ok (), ⟨db', none⟩) := by
  rw [run_results, h]

theorem block_done {outcomes : List Bool}
    (hrun : w.results R execute xs db = (.ok outcomes, db')) :
    w.block R execute xs ⟨db, none⟩ = (.ok (), ⟨db', none⟩) := by
  cases w <;> exact run_done hrun

/-- A block that makes its table first. -/
theorem block_start {cls : ModelClass} {tableName : String} {element : Model → Action Bool}
    {outcomes : List Bool}
    (hrun : (createTableIfNotExists R cls tableName >>= fun _ => Action.mapAll element xs) db =
      (.ok outcomes, db')) :
    Action.mapAll element xs (created R cls tableName db) = (.ok outcomes, db') := by
  rw [← hrun, Action.bind_ok (create_run R cls tableName db)]

theorem ignore_ok {x : Action Bool} {o : Bool} (h : x db = (.ok o, db')) :
    ignore x db = (.ok (), db') := by
  rw [ignore_run, h]
  rfl

/-- An element of an update alone, when the update in the block raises nothing. -/
theorem update_single {model : Model} {tableName : Option String} {sets : Option Sets} {o : Bool}
    (h : executeBuilt R (createUpdateSQLWithModelAndTableName R model tableName sets none) db =
      (.ok o, db'))
    (hok : createUpdateSQLWithModelAndTableName R model tableName sets none ≠ .ok none → o = true) :
    ignore (if (tableName.getD "").length = 0 then do
        Action.build (assertNo R)
        return false
      else executeBuilt R (createUpdateSQLWithModelAndTableName R model tableName sets none)) db =
        (.ok (), db') := by
  by_cases hname : (tableName.getD "").length = 0
  · obtain ⟨hR, rfl⟩ := unnamed_update hname h hok
    have hassert : assertNo R = .ok () := by
      rw [assertNo, hR]
      rfl
    rw [if_pos hname, hassert]
    rfl
  · rw [if_neg hname]
    exact ignore_ok h

/-- **A batch is its elements one after another**: when nothing is raised and every statement
succeeds, an array of two or more models of a class leaves the database as arrays of one, in
order. -/
theorem write_eq_singles (R : Runtime) (execute : String → Action Bool) (w : ArrayWrite)
    (cls : ModelClass) (xs : List Model) (hcls : ∀ x ∈ xs, x.cls = cls) (hlen : 2 ≤ xs.length)
    (db : Db) (h : AllSucceed R execute w xs db) :
    ∃ db', w.write R execute xs ⟨db, none⟩ = (.ok (), ⟨db', none⟩) ∧
      w.writeEach R execute xs ⟨db, none⟩ = (.ok (), ⟨db', none⟩) := by
  obtain ⟨outcomes, db', hrun, hok⟩ := h
  obtain ⟨first, rest, rfl⟩ := List.exists_cons_of_ne_nil (l := xs) (by
    rintro rfl
    exact absurd hlen (by simp))
  have hfirst : first.cls = cls := hcls first List.mem_cons_self
  have hblock : w.write R execute (first :: rest) ⟨db, none⟩ =
      w.block R execute (first :: rest) ⟨db, none⟩ := by
    match rest, hlen with
    | _ :: _, _ => rfl
  refine ⟨db', hblock.trans (block_done hrun), ?_⟩
  suffices heach : Action.each (fun data => w.single R data) (first :: rest) db = (.ok (), db') by
    rw [writeEach_eq, heach]
  cases w with
  | insertTable tableClass replace =>
      let built := fun x => createInsertSQLWithModelAndBeginClass R x tableClass replace
      exact each_single id built (fun x => executeValues R (built x)) (fun _ _ _ => rfl)
        (fun x _ => insert_keepsTables fun _ _ => createInsertSQLWithModelAndBeginClass_some)
        (fun x _ db o db' hx _ => ignore_ok hx) (by simp) hrun hok
  | insertTableName tableName replace =>
      let built := fun x => createInsertSQL R x (some tableName) replace
      have helement : ∀ x : Model, executeValues R (built x) = executeBuilt R (built x) :=
        fun x => executeValues_eq fun _ _ h => (createInsertSQLWithColumns_some h).2
      refine each_single (created R first.cls tableName) built
        (fun x => executeValues R (built x)) (fun _ _ => created_again)
        (fun x _ => insert_keepsTables fun _ _ => createInsertSQLWithColumns_some)
        (fun x hx db o db' hrun _ => ?_) (by simp) (block_start hrun) hok
      rw [helement, hfirst] at hrun
      refine ignore_ok (o := o) ?_
      rw [insertToDBWithModelTableNameReplace, hcls x hx]
      exact (Action.bind_ok (create_run R cls tableName db)).trans hrun
  | insertColumns tableName columns replace =>
      let built := fun x => createInsertSQLWithColumns R x (some tableName) columns replace
      refine each_single (created R first.cls tableName) built
        (fun x => executeValues R (built x)) (fun _ _ => created_again)
        (fun x _ => insert_keepsTables fun _ _ => createInsertSQLWithColumns_some)
        (fun x hx db o db' hrun _ => ?_) (by simp) (block_start hrun) hok
      rw [hfirst] at hrun
      show (createTableIfNotExists R x.cls tableName >>= fun _ => _) db = _
      rw [hcls x hx]
      exact (Action.bind_ok (create_run R cls tableName db)).trans (ignore_ok hrun)
  | updateTable tableClass sets =>
      let built := fun x => createUpdateSQLWithModelAndTableClass R x tableClass sets none
      refine each_single id built (fun x => executeBuilt R (built x)) (fun _ _ _ => rfl)
        (fun x _ => update_keepsTables) (fun x _ db o db' hx hok => ?_) (by simp) hrun hok
      have h := update_single hx hok
      exact h
  | updateTableName tableName sets =>
      let built := fun x => createUpdateSQLWithModelAndTableName R x (some tableName) sets none
      refine each_single id built (fun x => executeBuilt R (built x)) (fun _ _ _ => rfl)
        (fun x _ => update_keepsTables) (fun x _ db o db' hx hok => ?_) (by simp) hrun hok
      have h := update_single hx hok
      exact h

/-- The same book twice, in a table that is made for it. -/
theorem book_twice_stored : ∃ db',
    (ArrayWrite.insertTableName "tb_shelf" true).write demoRuntime (fun _ => return false)
      [bareBook, bareBook] ⟨fun _ => none, none⟩ = (.ok (), ⟨db', none⟩) ∧
    (ArrayWrite.insertTableName "tb_shelf" true).writeEach demoRuntime (fun _ => return false)
      [bareBook, bareBook] ⟨fun _ => none, none⟩ = (.ok (), ⟨db', none⟩) := by
  have hresults : ((ArrayWrite.insertTableName "tb_shelf" true).results demoRuntime
      (fun _ => return false) [bareBook, bareBook] (fun _ => none)).1.toOption =
        some [true, true] := by decide +kernel
  refine write_eq_singles demoRuntime (fun _ => return false)
    (.insertTableName "tb_shelf" true) bookClass [bareBook, bareBook] ?_ (by decide)
    (fun _ => none) ?_
  · intro x hx
    have hx : x = bareBook := by simpa using hx
    rw [hx]
    rfl
  · rcases hrun : (ArrayWrite.insertTableName "tb_shelf" true).results demoRuntime
        (fun _ => return false) [bareBook, bareBook] (fun _ => none) with ⟨e | outcomes, db'⟩
    · rw [hrun] at hresults
      cases hresults
    · rw [hrun] at hresults
      obtain rfl := Option.some.inj hresults
      refine ⟨[true, true], db', hrun, fun p hp _ => ?_⟩
      have htrue := (List.of_mem_zip hp).2
      simpa using htrue

end NBDataBase
