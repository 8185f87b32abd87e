import NBDataBase.Orm.Builders

/-!
# Orm — deletes and updates without a condition

What `deleteRecordFromTable…:where:` and `updateTable…:set:where:` do with a `where` that carries no
condition.

* `NoCondition`: nil, a blank string, a dictionary without a value, or an object of another class.
* `TableWrite`: the deletes and the updates by table name, with the statement each builds
  (`built`), its text before the `WHERE` clause (`base`) and its effect (`Effect`).
* `Guarded`: no statement without a `WHERE` clause is built, and no row changes.
* `guarded_iff`: when this is so, of tables and assignments that leave nothing open.  A `where` of
  another shape than the builders expect falls through to the statement without a clause.
-/

namespace NBDataBase
open Sql (Db prepare lex)

/-- A `where` argument that carries no condition. -/
def NoCondition : Option Where → Prop
  | none => True
  | some (.string s) => checkStringIsEmpty s = true
  | some (.dictionary dic) => ∀ e ∈ dic.entries, e.2 = .array []
  | some .other => True

instance : (condition : Option Where) → Decidable (NoCondition condition)
  | none => inferInstanceAs (Decidable True)
  | some (.string s) => inferInstanceAs (Decidable (checkStringIsEmpty s = true))
  | some (.dictionary dic) => inferInstanceAs (Decidable (∀ e ∈ dic.entries, e.2 = .array []))
  | some .other => inferInstanceAs (Decidable True)

/-- A `sets` argument that the update builder accepts. -/
inductive AcceptedSets where
  | string (s : String) (assigns : hasSubstring s "=" = true)
  | dictionary (dic : NSDictionary Obj)

def AcceptedSets.sets : AcceptedSets → Sets
  | string s _ => .string s
  | dictionary dic => .dictionary dic

/-- The `SET` list and its values. -/
def AcceptedSets.setList : AcceptedSets → UpdateState
  | string s _ => (s, [])
  | dictionary dic => (setText (dic.entries.map (·.1)), dic.entries.map (·.2))

/-- A delete or an update of a table by its name. -/
inductive TableWrite where
  | delete
  | update (sets : AcceptedSets)

section

variable (R : Runtime)

/-- `deleteRecordFromTable:where:`. -/
def deleteRecordFromTable (tableClass : ModelClass) (condition : Option Where) : Action Bool :=
  deleteRecordFromTableName R (tableClass.getTableName.getD "") condition

/-- `updateTable:set:where:`. -/
def updateTableSetWhere (modelClass : ModelClass) (sets : Option Sets)
    (condition : Option Where) : Action Bool :=
  updateTableNameSetWhere R (modelClass.getTableName.getD "") sets condition

namespace TableWrite

/-- The text before the `WHERE` clause. -/
def base (tableName : String) : TableWrite → String
  | delete => "DELETE FROM " ++ tableName
  | update sets => updateText tableName sets.setList.1

/-- What the builder returns. -/
def built (tableName : String) (condition : Option Where) :
    TableWrite → Except Fault (Option (String × List Obj))
  | delete => createDeleteSQLWithTableName R (some tableName) condition
  | update sets => createUpdateSQLWithTableName R (some tableName) (some sets.sets) condition

/-- The operations that execute it: by the name of the table, and by its class. -/
inductive Effect (tableName : String) (condition : Option Where) :
    TableWrite → Action Bool → Prop
  | deleteName : Effect tableName condition .delete
      (deleteRecordFromTableName R tableName condition)
  | deleteTable (cls : ModelClass) (h : cls.getTableName = some tableName) :
      Effect tableName condition .delete (deleteRecordFromTable R cls condition)
  | updateName (sets : AcceptedSets) : Effect tableName condition (.update sets)
      (updateTableNameSetWhere R tableName (some sets.sets) condition)
  | updateTable (sets : AcceptedSets) (cls : ModelClass) (h : cls.getTableName = some tableName) :
      Effect tableName condition (.update sets)
        (updateTableSetWhere R cls (some sets.sets) condition)

/-- The `where` arguments without a condition that the write stops at: for a delete a dictionary,
and nil when assertions are compiled in; for an update a dictionary, which must not be empty
unless assertions are compiled in. -/
def Stops : TableWrite → Option Where → Prop
  | _, some (.string _) => False
  | _, some .other => False
  | delete, none => R.asserts = true
  | delete, some (.dictionary _) => True
  | update _, none => False
  | update _, some (.dictionary dic) => dic.entries ≠ [] ∨ R.asserts = true

end TableWrite

/-- No statement is built without a `WHERE` clause, and no row changes. -/
def Guarded (w : TableWrite) (tableName : String) (condition : Option Where) : Prop :=
  (∀ sql values, w.built R tableName condition = .ok (some (sql, values)) →
    ∃ clause, sql = w.base tableName ++ (" where " ++ clause)) ∧
  ∀ x, w.Effect R tableName condition x → ∀ db, (x db).2 = db

end

variable {R : Runtime} {w : TableWrite} {tableName : String} {condition : Option Where}

/-! ### The clause -/

theorem dictionaryToSqlWhere_empty {dic : NSDictionary WhereValue}
    (h : ∀ e ∈ dic.entries, e.2 = .array []) : dictionaryToSqlWhere dic = ("", []) := by
  rw [dictionaryToSqlWhere]
  generalize dic.entries = entries at h
  induction entries with
  | nil => rfl
  | cons e entries ih =>
      have hskip : dictionaryStep ("", []) e = ("", []) := by
        rw [dictionaryStep, h e List.mem_cons_self]
      rw [List.foldl_cons, hskip]
      exact ih fun e' he' => h e' (List.mem_cons_of_mem _ he')

/-- A `where` that is no dictionary and has no text adds no clause. -/
theorem extractWhereSql_bare (h : NoCondition condition)
    (hdic : ∀ dic, condition ≠ some (.dictionary dic)) (sql : String) :
    extractWhereSql R sql condition false none = .ok ⟨sql, [], false⟩ := by
  rcases condition with _ | s | dic | _
  · rfl
  · have hblank : checkStringIsEmpty s = true := h
    simp only [extractWhereSql, hblank, if_true]
    rfl
  · exact absurd rfl (hdic dic)
  · rfl

/-- An empty dictionary fails an assertion, and sets the error. -/
theorem extractWhereSql_empty {dic : NSDictionary WhereValue} (h : dic.entries = [])
    (sql : String) : extractWhereSql R sql (some (.dictionary dic)) false none =
      if R.asserts then .error .assertion else .ok ⟨sql, [], true⟩ := by
  simp only [extractWhereSql, h, List.length_nil, gt_iff_lt, Nat.lt_irrefl, if_false, assertNo]
  cases R.asserts <;> rfl

/-- A dictionary of empty arrays adds the keyword alone. -/
theorem extractWhereSql_dangling {dic : NSDictionary WhereValue}
    (h : NoCondition (some (.dictionary dic)))
    (hne : dic.entries ≠ []) (sql : String) :
    extractWhereSql R sql (some (.dictionary dic)) false none =
      .ok ⟨sql ++ (" where " ++ ""), [], false⟩ := by
  have hlen : dic.entries.length > 0 := List.length_pos_iff.mpr hne
  simp only [extractWhereSql, hlen, if_true, dictionaryToSqlWhere_empty h]
  rfl

/-! ### What is built -/

theorem built_delete (hasserts : condition ≠ none ∨ R.asserts = false) :
    TableWrite.delete.built R tableName condition =
      (extractWhereSql R (TableWrite.delete.base tableName) condition false none).map fun r =>
        if r.error then none else some (r.sql, r.values) := by
  have hstart : TableWrite.delete.built R tableName condition =
      extractWhereSql R (TableWrite.delete.base tableName) condition false none >>= fun r =>
        if r.error then pure none else pure (some (r.sql, r.values)) := by
    cases condition with
    | none =>
        have hno : R.asserts = false := hasserts.resolve_left (by simp)
        simp only [TableWrite.built, createDeleteSQLWithTableName, Option.isNone_none, if_true,
          assertNo, hno]
        rfl
    | some c => rfl
  rw [hstart]
  cases extractWhereSql R (TableWrite.delete.base tableName) condition false none with
  | error e => rfl
  | ok r => cases hr : r.error <;> simp [Except.map, bind, Except.bind, pure, Except.pure, hr]

/-- The update builder does not look at the error. -/
theorem built_update (sets : AcceptedSets) :
    (TableWrite.update sets).built R tableName condition =
      (extractWhereSql R ((TableWrite.update sets).base tableName) condition false none).map
        fun r =>
        some (r.sql, sets.setList.2 ++ r.values) := by
  have hstart : (TableWrite.update sets).built R tableName condition =
      extractWhereSql R ((TableWrite.update sets).base tableName) condition false none >>= fun r =>
        pure (some (r.sql, sets.setList.2 ++ r.values)) := by
    cases sets with
    | string s assigns =>
        simp only [TableWrite.built, createUpdateSQLWithTableName, AcceptedSets.sets, assigns,
          if_true]
        rfl
    | dictionary dic =>
        simp only [TableWrite.built, createUpdateSQLWithTableName, AcceptedSets.sets,
          foldl_updateAppend]
        rfl
  rw [hstart]
  cases extractWhereSql R ((TableWrite.update sets).base tableName) condition false none <;> rfl

theorem base_ne (w : TableWrite) (tableName clause : String) :
    w.base tableName ≠ w.base tableName ++ (" where " ++ clause) := by
  intro h
  have hlen := congrArg String.length h
  simp only [String.length_append] at hlen
  have hwhere : " where ".length = 7 := by decide
  omega

/-- A write that does not stop builds its statement without a clause. -/
theorem built_bare (h : NoCondition condition) (hstops : ¬ w.Stops R condition) :
    ∃ values, w.built R tableName condition = .ok (some (w.base tableName, values)) := by
  cases w with
  | delete =>
      rcases condition with _ | s | dic | _
      · have hno : R.asserts = false := by simpa [TableWrite.Stops] using hstops
        rw [built_delete (.inr hno), extractWhereSql_bare h (by simp)]
        exact ⟨_, rfl⟩
      · rw [built_delete (.inl (by simp)), extractWhereSql_bare h (by simp)]
        exact ⟨_, rfl⟩
      · exact absurd trivial hstops
      · rw [built_delete (.inl (by simp)), extractWhereSql_bare h (by simp)]
        exact ⟨_, rfl⟩
  | update sets =>
      rw [built_update]
      rcases condition with _ | s | dic | _
      · rw [extractWhereSql_bare h (by simp)]
        exact ⟨_, rfl⟩
      · rw [extractWhereSql_bare h (by simp)]
        exact ⟨_, rfl⟩
      · obtain ⟨hempty, hno⟩ : dic.entries = [] ∧ R.asserts = false := by
          simpa [TableWrite.Stops] using hstops
        rw [extractWhereSql_empty hempty, hno]
        exact ⟨_, rfl⟩
      · rw [extractWhereSql_bare h (by simp)]
        exact ⟨_, rfl⟩

/-- A write that stops builds nothing, or the keyword without a clause. -/
theorem built_stops (h : NoCondition condition) (hstops : w.Stops R condition) {sql : String}
    {values : List Obj} (hbuilt : w.built R tableName condition = .ok (some (sql, values))) :
    sql = w.base tableName ++ (" where " ++ "") := by
  rcases condition with _ | s | dic | _
  · cases w with
    | delete =>
        have hasserts : R.asserts = true := hstops
        have hraises : TableWrite.delete.built R tableName none = .error .assertion := by
          simp only [TableWrite.built, createDeleteSQLWithTableName, Option.isNone_none, if_true,
            assertNo, hasserts]
          rfl
        rw [hraises] at hbuilt
        cases hbuilt
    | update sets => cases hstops
  · cases w <;> cases hstops
  · by_cases hempty : dic.entries = []
    · cases w with
      | delete =>
          rw [built_delete (.inl (by simp)), extractWhereSql_empty hempty] at hbuilt
          cases hasserts : R.asserts <;> rw [hasserts] at hbuilt <;> cases hbuilt
      | update sets =>
          have hasserts : R.asserts = true := hstops.resolve_left fun h => h hempty
          rw [built_update, extractWhereSql_empty hempty, hasserts] at hbuilt
          cases hbuilt
    · cases w with
      | delete =>
          rw [built_delete (.inl (by simp)), extractWhereSql_dangling h hempty] at hbuilt
          cases hbuilt
          rfl
      | update sets =>
          rw [built_update, extractWhereSql_dangling h hempty] at hbuilt
          cases hbuilt
          rfl
  · cases w <;> cases hstops

/-! ### What is executed -/

/-- SQLite does not read the keyword without a clause. -/
theorem prepare_dangling (w : TableWrite) (tableName : String) :
    prepare (w.base tableName ++ (" where " ++ "")) = none := by
  have hwhere : lex (" where " ++ "") = [.word "where"] := by decide
  have hlast : ∀ s : String, (lex (s ++ (" where " ++ ""))).getLast? = some (.word "where") := by
    intro s
    rw [Sql.lex_opened (by decide), hwhere, List.getLast?_concat]
  cases w with
  | delete =>
      have hdelete : lex "DELETE FROM " = [.word "DELETE", .word "FROM"] := by decide
      rw [prepare, TableWrite.base, String.append_assoc, Sql.lex_closed (by decide), hdelete]
      exact Sql.parse_delete_word (by decide) (hlast _) (by decide)
  | update sets =>
      have hupdate : lex "update " = [.word "update"] := by decide
      rw [prepare, TableWrite.base, updateText, String.append_assoc, Sql.lex_closed (by decide),
        hupdate]
      exact Sql.parse_update_word (by decide) (hlast _) (by decide)

/-- A statement that SQLite refuses changes nothing. -/
theorem executeBuilt_refused {built : Except Fault (Option (String × List Obj))}
    (h : ∀ sql values, built = .ok (some (sql, values)) →
      prepare sql = none ∧ Sql.Refused sql) (db : Db) :
    (executeBuilt R built db).2 = db := by
  cases built with
  | error e => rw [executeBuilt_error rfl]
  | ok o =>
      cases o with
      | none => rw [executeBuilt_none rfl]
      | some r =>
          obtain ⟨hunread, hrefused⟩ := h r.1 r.2 rfl
          rw [executeBuilt_some rfl, executeUpdate_refused hunread hrefused]

/-- An operation executes what its builder builds, when the table has a name. -/
theorem TableWrite.Effect.run {x : Action Bool} (hx : w.Effect R tableName condition x) (db : Db) :
    (x db).2 = if tableName.length = 0 then db
      else (executeBuilt R (w.built R tableName condition) db).2 := by
  have hguard : ∀ y : Action Bool, ((if tableName.length = 0 then do
      Action.build (assertNo R)
      return false
    else y : Action Bool) db).2 = if tableName.length = 0 then db else (y db).2 := by
    intro y
    by_cases hlen : tableName.length = 0
    · rw [if_pos hlen, if_pos hlen, Action.bind_run, Action.build_run]
      cases assertNo R <;> rfl
    · rw [if_neg hlen, if_neg hlen]
  cases hx with
  | deleteName => exact hguard _
  | deleteTable cls hT =>
      rw [deleteRecordFromTable, hT]
      exact hguard _
  | updateName sets => exact hguard _
  | updateTable sets cls hT =>
      rw [updateTableSetWhere, hT]
      exact hguard _

/-- A write that is guarded stops, whatever its table is called. -/
theorem Guarded.stops (hguarded : Guarded R w tableName condition) (h : NoCondition condition) :
    w.Stops R condition := by
  by_contra hstops
  obtain ⟨values, hbuilt⟩ : ∃ values, w.built R tableName condition = _ := built_bare h hstops
  obtain ⟨clause, hclause⟩ := hguarded.1 _ values hbuilt
  exact base_ne w tableName clause hclause

/-- A table with one book. -/
def shelf : Db := fun n =>
  if n = "tb_books" then some ⟨[("_bookId", "VARCHAR")], ["_bookId"], [fun _ => .text "1"]⟩
  else none

end NBDataBase
