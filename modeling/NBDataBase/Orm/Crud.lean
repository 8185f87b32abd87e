import NBDataBase.Orm.Store
import NBDataBase.Orm.Where

/-!
# Orm — reads and writes of one table

Any sequence of saves, upserts and deletes of models, deletes and updates under conditions, erasures
and queries, against what the table holds: a map from keys to rows, and rows without a key.

* `TableCall`: the methods.  `TableCall.run`: what one does; `TableCall.step` and
  `TableCall.Answers`: what it means for the contents, and what it may answer.
* `tableCall_run`: one call follows its meaning.
* `runTable_follows`: so does a run of calls, which leaves the other tables.
-/

namespace NBDataBase
open Sql (fold Name Db Table Row Value)
open Keyed (Contents contents Distinct)

variable {R : Runtime} {T : String} {cls : ModelClass} {tbl : Table} {db : Db}
  {dic : NSDictionary WhereValue}

/-! ### The methods -/

/-- The methods about the rows of a table. -/
inductive TableCall where
  /-- A method of a model about its own row. -/
  | model (call : RowCall) (model : Model)
  /-- `deleteRecordFromTableName:where:`. -/
  | deleteRecordFromTableName (dic : NSDictionary WhereValue)
  /-- `updateTableName:set:where:`. -/
  | updateTableNameSetWhere (sets : NSDictionary Obj) (dic : NSDictionary WhereValue)
  /-- `eraseTableName:`. -/
  | eraseTableName
  /-- The rows that a query reads. -/
  | query (dic : NSDictionary WhereValue)

inductive Answer where
  | done (b : Bool)
  | rows (rs : List Row)

/-- What an update sets in a row for which its condition holds. -/
def setRow (R : Runtime) (tbl : Table) (sets : NSDictionary Obj) (dic : NSDictionary WhereValue)
    (r : Row) : Row :=
  if DictionaryHolds R tbl r dic then
    Sql.assign R.conv tbl (sets.entries.map (·.1)) (sets.entries.map fun e => bindObject R e.2) r
  else r

/-- The columns of a `set` dictionary are those of the table outside the key. -/
structure SetsFields (sets : NSDictionary Obj) (tbl : Table) : Prop where
  ne : sets.entries ≠ []
  names : ∀ e ∈ sets.entries, Name e.1
  has : ∀ e ∈ sets.entries, tbl.has e.1 = true
  free : ∀ e ∈ sets.entries, ∀ p ∈ tbl.primaryKey, fold e.1 ≠ fold p

namespace TableCall

def run (R : Runtime) (T : String) : TableCall → Action Answer
  | model call m => do return .done (← call.run R m)
  | deleteRecordFromTableName dic => do
      return .done (← NBDataBase.deleteRecordFromTableName R T (some (.dictionary dic)))
  | updateTableNameSetWhere sets dic => do
      return .done (← NBDataBase.updateTableNameSetWhere R T (some (.dictionary sets))
        (some (.dictionary dic)))
  | eraseTableName => do return .done (← NBDataBase.eraseTableName R T)
  | query dic => do return .rows (← queryBaseWithParams R (dictionaryQuery T dic))

/-- What the method leaves. -/
def step (R : Runtime) (tbl : Table) :
    TableCall → Contents (List Value) Row → Contents (List Value) Row
  | model call m, x => x.call (callOf R tbl (call, m))
  | deleteRecordFromTableName dic, x => x.keep fun r => !DictionaryHolds R tbl r dic
  | updateTableNameSetWhere sets dic, x => x.change (setRow R tbl sets dic)
  | eraseTableName, x => x.keep fun _ => false
  | query _, x => x

/-- What the method answers.  A query answers the rows that hold, in some order. -/
def Answers (R : Runtime) (tbl : Table) : TableCall → Contents (List Value) Row → Answer → Prop
  | model call m, x, .done b => b = (callOf R tbl (call, m)).answer x.store
  | query dic, x, .rows rs => Distinct tbl.keyOf rs ∧
      contents tbl.keyOf rs = x.keep fun r => DictionaryHolds R tbl r dic
  | model _ _, _, .rows _ => False
  | query _, _, .done _ => False
  | _, _, answer => answer = .done true

/-- A condition that says something, about columns of the table. -/
def Condition (tbl : Table) (dic : NSDictionary WhereValue) : Prop := Speaks dic ∧ KeysOf dic tbl

def Allowed (R : Runtime) (cls : ModelClass) (T : String) (tbl : Table) : TableCall → Prop
  | model call m => call.Allowed R cls m
  | deleteRecordFromTableName dic => Condition tbl dic
  | updateTableNameSetWhere sets dic => Condition tbl dic ∧ SetsFields sets tbl ∧
      sets.entries.length + (boundValues dic).length ≤ Sql.maxVariables
  | eraseTableName => True
  | query dic => Condition tbl dic ∧ checkStringIsEmpty T = false

end TableCall

/-- Calls one after another, with their answers. -/
def runTable (R : Runtime) (T : String) (calls : List TableCall) : Action (List Answer) :=
  Action.mapAll (TableCall.run R T) calls

/-- The answers and the contents at the end, from those at the start. -/
inductive Follows (R : Runtime) (tbl : Table) :
    List TableCall → Contents (List Value) Row → List Answer → Contents (List Value) Row → Prop
  | nil (x : Contents (List Value) Row) : Follows R tbl [] x [] x
  | cons {c : TableCall} {cs : List TableCall} {x y : Contents (List Value) Row} {a : Answer}
      {as : List Answer} (ha : c.Answers R tbl x a)
        (hrest : Follows R tbl cs (c.step R tbl x) as y) :
      Follows R tbl (c :: cs) x (a :: as) y

/-! ### Updates under a condition -/

/-- An update sets no key. -/
theorem SetsFields.keyOf {sets : NSDictionary Obj} (h : SetsFields sets tbl) (r : Row) :
    tbl.keyOf (setRow R tbl sets dic r) = tbl.keyOf r := by
  refine Table.keyOf_congr fun c hc => ?_
  rw [setRow]
  split
  · refine Sql.assign_other (fun s hs => ?_) r
    obtain ⟨e, he, rfl⟩ := List.mem_map.mp hs
    exact h.free e he c hc
  · rfl

/-- **An update under a dictionary** sets the columns of the rows for which it holds. -/
theorem updateTableName_run (hT : Name T) (hdb : db (fold T) = some tbl) (hu : tbl.Unique)
    (h : Speaks dic) (hkeys : KeysOf dic tbl) {sets : NSDictionary Obj}
    (hsets : SetsFields sets tbl) :
    updateTableNameSetWhere R T (some (.dictionary sets)) (some (.dictionary dic)) db =
      (.ok true, Function.update db (fold T) (some { tbl with
        rows := tbl.rows.map (setRow R tbl sets dic) })) := by
  have hbuilt : createUpdateSQLWithTableName R (some T) (some (.dictionary sets))
      (some (.dictionary dic)) = .ok (some (updateText T (setText (sets.entries.map (·.1))) ++
        (" where " ++ (dictionaryToSqlWhere dic).1),
          sets.entries.map (·.2) ++ (dictionaryToSqlWhere dic).2)) := by
    simp only [createUpdateSQLWithTableName, foldl_updateAppend]
    show (extractWhereSql R _ (some (.dictionary dic)) false none >>= _) = _
    rw [extractWhereSql_dictionary h.entries]
    rfl
  have hnames : ∀ s ∈ sets.entries.map (·.1), Name s := List.forall_mem_map.mpr hsets.names
  have hhas : ∀ s ∈ sets.entries.map (·.1), tbl.has s = true := List.forall_mem_map.mpr hsets.has
  have hfree : ∀ s ∈ sets.entries.map (·.1), ∀ p ∈ tbl.primaryKey, fold s ≠ fold p :=
    List.forall_mem_map.mpr hsets.free
  rw [updateTableNameSetWhere, if_neg (Name.length hT), executeBuilt_some hbuilt]
  refine executeUpdate_done (prepare_update hT (by simpa using hsets.ne) hnames
    (hkeys.isClause h)) ?_ (Sql.onTable_of_some hdb ?_)
  · simp only [Sql.Stmt.params, dictionary_params, List.length_append, List.length_map, le_refl]
  · have hvalues : (sets.entries.map (·.2)).map (bindObject R) =
        sets.entries.map fun e => bindObject R e.2 := List.map_map
    rw [List.map_append, List.take_left' (by simp), List.drop_left' (by simp), hvalues,
      Sql.updateRows_of_keys hu hhas (hkeys.has _) hfree]
    simp only [satisfies_dictionary]
    rfl

/-- An erasure removes every row. -/
theorem eraseTableName_run (hT : Name T) (hdb : db (fold T) = some tbl) :
    eraseTableName R T db = (.ok true, Function.update db (fold T) (some { tbl with
      rows := tbl.rows.filter fun _ => false })) := by
  have hnone : IsClause "" [] := ⟨by decide, by decide, by simp⟩
  have hvalues : (([] : List Sql.Atom).map Sql.Atom.params).sum = ([] : List Obj).length := rfl
  have hrun := executeUpdate_delete (R := R) hT hdb hnone hvalues (by simp [Sql.bind])
  rw [eraseTableName, if_neg (Name.length hT)]
  rw [String.append_empty] at hrun
  exact hrun

/-! ### Runs -/

/-- A call on the database answers and leaves what it means. -/
def FollowsMeaning (R : Runtime) (T : String) (tbl : Table) (db : Db) (c : TableCall) : Prop :=
  ∃ answer rows, c.run R T db =
      (.ok answer, Function.update db (fold T) (some { tbl with rows := rows })) ∧
    c.Answers R tbl (contents tbl.keyOf tbl.rows) answer ∧
    contents tbl.keyOf rows = c.step R tbl (contents tbl.keyOf tbl.rows) ∧
    Distinct tbl.keyOf rows

/-- **A call follows its meaning.** -/
theorem tableCall_run (h : Keyable cls T) (htbl : TableOf cls tbl) {c : TableCall}
    (hc : c.Allowed R cls T tbl) (hdb : db (fold T) = some tbl) : FollowsMeaning R T tbl db c := by
  have hdistinct : Distinct tbl.keyOf tbl.rows := (Table.unique_iff tbl).mp htbl.unique
  have hT := h.valid.name
  cases c with
  | model call m =>
      have hfits := hc.fits h htbl
      refine ⟨.done ((callOf R tbl (call, m)).answer tbl.store), _,
        Action.bind_ok (call_run h htbl hc hdb), rfl, Keyed.contents_onRows hfits tbl.rows,
        Keyed.distinct_onRows hfits hdistinct⟩
  | deleteRecordFromTableName dic =>
      obtain ⟨hspeaks, hkeys⟩ := hc
      exact ⟨.done true, _, Action.bind_ok (delete_dictionary hT hdb hspeaks hkeys), rfl,
        Keyed.contents_filter hdistinct _, hdistinct.filter _⟩
  | updateTableNameSetWhere sets dic =>
      obtain ⟨⟨hspeaks, hkeys⟩, hsets, -⟩ := hc
      exact ⟨.done true, _,
        Action.bind_ok (updateTableName_run hT hdb htbl.unique hspeaks hkeys hsets), rfl,
        Keyed.contents_map hsets.keyOf tbl.rows, hdistinct.map hsets.keyOf⟩
  | eraseTableName =>
      exact ⟨.done true, _, Action.bind_ok (eraseTableName_run hT hdb), rfl,
        Keyed.contents_filter hdistinct _, hdistinct.filter _⟩
  | query dic =>
      obtain ⟨⟨hspeaks, hkeys⟩, hblank⟩ := hc
      have hsame : Function.update db (fold T) (some { tbl with rows := tbl.rows }) = db := by
        rw [show ({ tbl with rows := tbl.rows } : Table) = tbl from rfl, ← hdb,
          Function.update_eq_self]
      refine ⟨.rows (tbl.rows.filter (DictionaryHolds R tbl · dic)), tbl.rows, ?_,
        ⟨hdistinct.filter _, Keyed.contents_filter hdistinct _⟩, rfl, hdistinct⟩
      rw [hsame]
      exact Action.bind_ok (query_dictionary hT hblank hdb hspeaks hkeys)

/-- Other rows in the table mean the same. -/
theorem TableCall.Allowed.withRows {c : TableCall} (hc : c.Allowed R cls T tbl)
    (rows : List Row) : c.Allowed R cls T { tbl with rows := rows } := by
  cases c with
  | updateTableNameSetWhere sets dic =>
      obtain ⟨hcondition, hsets, hvalues⟩ := hc
      exact ⟨hcondition, ⟨hsets.ne, hsets.names, hsets.has, hsets.free⟩, hvalues⟩
  | _ => exact hc

theorem Follows.withRows {calls : List TableCall} {x y : Contents (List Value) Row}
    {answers : List Answer} {rows : List Row}
    (h : Follows R { tbl with rows := rows } calls x answers y) :
    Follows R tbl calls x answers y := by
  induction h with
  | nil x => exact .nil x
  | @cons c cs x y a as ha _ ih =>
      have hstep : c.step R { tbl with rows := rows } x = c.step R tbl x := by cases c <;> rfl
      have hanswers : c.Answers R { tbl with rows := rows } x a = c.Answers R tbl x a := by
        cases c <;> cases a <;> rfl
      exact .cons (hanswers ▸ ha) (hstep ▸ ih)

/-- **A run of calls follows their meaning**: the answers and the contents are those of the map and
the rows without a key, no two rows have one key, and the other tables stay. -/
theorem runTable_follows (h : Keyable cls T) {calls : List TableCall} (htbl : TableOf cls tbl)
    (hcalls : ∀ c ∈ calls, c.Allowed R cls T tbl) (hdb : db (fold T) = some tbl) :
    ∃ answers rows, runTable R T calls db =
        (.ok answers, Function.update db (fold T) (some { tbl with rows := rows })) ∧
      Follows R tbl calls (contents tbl.keyOf tbl.rows) answers (contents tbl.keyOf rows) ∧
      Distinct tbl.keyOf rows := by
  induction calls generalizing tbl db with
  | nil =>
      refine ⟨[], tbl.rows, ?_, .nil _, (Table.unique_iff tbl).mp htbl.unique⟩
      rw [show ({ tbl with rows := tbl.rows } : Table) = tbl from rfl, ← hdb,
        Function.update_eq_self]
      rfl
  | cons c calls ih =>
      obtain ⟨answer, rows, hrun, hanswer, hstep, hdistinct⟩ :=
        tableCall_run h htbl (hcalls c List.mem_cons_self) hdb
      obtain ⟨answers, rows', hruns, hfollows, hdistinct'⟩ := ih (htbl.withRows hdistinct)
        (fun d hd => (hcalls d (List.mem_cons_of_mem _ hd)).withRows rows)
        (Function.update_self (fold T) _ db)
      refine ⟨answer :: answers, rows', ?_, .cons hanswer ?_, hdistinct'⟩
      · rw [runTable, Action.mapAll, Action.bind_ok hrun]
        rw [runTable] at hruns
        rw [Action.bind_ok hruns, Function.update_idem]
        rfl
      · rw [← hstep]
        exact hfollows.withRows

/-! ### The demo's users -/

/-- The users with some keys. -/
def withUids (uids : List String) : NSDictionary WhereValue where
  entries := [("_uid", .array (uids.map (.string "NSString")))]
  nodup := List.nodup_singleton _

def nameSet (name : String) : NSDictionary Obj where
  entries := [("_name", .string "NSString" name)]
  nodup := List.nodup_singleton "_name"

/-- Two users are saved and renamed, one is deleted, and the others are looked for. -/
def usersRun : List TableCall :=
  [.model .saveToDBUseUpdate (reader "1" (some "Ann")), .model .saveToDB (reader "2" none),
    .updateTableNameSetWhere (nameSet "Bob") (withUids ["1", "2"]),
    .deleteRecordFromTableName (withUids ["1"]), .query (withUids ["1", "2"]),
    .model .isExistsFromDB (reader "1" none), .eraseTableName]

theorem withUids_values (uids : List String) :
    (boundValues (withUids uids)).length = uids.length := by
  simp [boundValues, withUids]

theorem withUids_condition {uids : List String} (h : uids ≠ [])
    (hvalues : uids.length ≤ Sql.maxVariables) :
    TableCall.Condition noUsers (withUids uids) := by
  refine ⟨⟨⟨_, List.mem_singleton.mpr rfl, ?_⟩, ?_⟩, ?_⟩
  · simpa using h
  · rwa [withUids_values]
  · have hcolumn : Name "_uid" ∧ noUsers.has "_uid" = true := by decide +kernel
    intro e he
    rw [List.mem_singleton.mp he]
    exact hcolumn

theorem nameSet_fields (name : String) : SetsFields (nameSet name) noUsers := by
  have hcolumn : Name "_name" ∧ noUsers.has "_name" = true ∧
      ∀ p ∈ noUsers.primaryKey, fold "_name" ≠ fold p := by decide +kernel
  exact ⟨by simp [nameSet], by simpa [nameSet] using hcolumn.1,
    by simpa [nameSet] using hcolumn.2.1, by simpa [nameSet] using hcolumn.2.2⟩

theorem users_follow : ∃ answers rows, runTable demoRuntime "tb_users" usersRun
      (tableDb "tb_users" noUsers) = (.ok answers,
        Function.update (tableDb "tb_users" noUsers) (fold "tb_users")
          (some { noUsers with rows := rows })) ∧
    Follows demoRuntime noUsers usersRun (contents noUsers.keyOf noUsers.rows) answers
      (contents noUsers.keyOf rows) ∧
    Distinct noUsers.keyOf rows := by
  refine runTable_follows userClass_keyable (created_tableOf userClass_valid) ?_ (tableDb_self _ _)
  have hblank : checkStringIsEmpty "tb_users" = false := by decide +kernel
  intro c hc
  simp only [usersRun, List.mem_cons, List.not_mem_nil, or_false] at hc
  rcases hc with rfl | rfl | rfl | rfl | rfl | rfl | rfl
  · exact reader_allowed _ _ _
  · exact reader_allowed _ _ _
  · exact ⟨withUids_condition (by simp) (by decide), nameSet_fields _, by decide⟩
  · exact withUids_condition (by simp) (by decide)
  · exact ⟨withUids_condition (by simp) (by decide), hblank⟩
  · exact reader_allowed _ _ _
  · trivial

end NBDataBase
