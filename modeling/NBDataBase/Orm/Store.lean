import NBDataBase.Orm.Api
import NBDataBase.Sql.Store

/-!
# Orm — the table of a class as a store of its models

`saveToDB`, `saveToDBUseReplace`, `saveToDBUseUpdate`, `deleteToDB` and `isExistsFromDB`, in any
order, against the map from keys to rows that they mean.

* `RowCall`: the methods.  `RowCall.run`: what one does; `RowCall.command`: what it means.
* `RowCall.Allowed`: the models whose rows the methods address.
* `call_run`: one call is its command.  `runCalls_run`: a run of calls is a run of commands, with
  the same answers, and leaves everything else.
* `runCalls_perm`: in whatever order, the rows are the same when each key sees the same calls.
* `isExists_after`: a model is there as the last save or delete of its key decides.
-/

namespace NBDataBase
open Sql (fold Name Db Table Row Value Affinity)

variable {R : Runtime} {T : String} {cls : ModelClass} {m : Model} {tbl : Table} {db : Db}

/-! ### The methods -/

/-- The methods of a model about its own row. -/
inductive RowCall where
  | saveToDB | saveToDBUseReplace | saveToDBUseUpdate | deleteToDB | isExistsFromDB
  deriving DecidableEq, Repr

/-- The class has a table, its models have a key in it, and SQLite takes all their values. -/
structure Keyable (cls : ModelClass) (T : String) : Prop where
  valid : cls.Valid T
  values : (properties cls.chain).length ≤ Sql.maxVariables
  keys : getPrimaryKeys cls.chain ≠ []
  keysBacked : KeysBacked cls.chain
  allBacked : AllBacked cls.chain (properties cls.chain)

namespace RowCall

def run (R : Runtime) (m : Model) : RowCall → Action Bool
  | saveToDB => NBDataBase.saveToDB R m
  | saveToDBUseReplace => NBDataBase.saveToDBUseReplace R m
  | saveToDBUseUpdate => NBDataBase.saveToDBUseUpdate R m
  | deleteToDB => NBDataBase.deleteToDB R m
  | isExistsFromDB => NBDataBase.isExistsFromDB R m

/-- What the method means for the row of the model. -/
def command (R : Runtime) (tbl : Table) (m : Model) : RowCall → Keyed.Command Row
  | saveToDB => .insert (storedRow R tbl m)
  | saveToDBUseReplace => .replace (storedRow R tbl m)
  | saveToDBUseUpdate => .merge (updatedRow R tbl m) (storedRow R tbl m)
  | deleteToDB => .erase
  | isExistsFromDB => .find

end RowCall

/-- A model of the class with a key that is bound as it is stored, and not as NULL. -/
structure Rowed (R : Runtime) (cls : ModelClass) (m : Model) : Prop where
  cls : m.cls = cls
  keysPlain : KeysPlain m
  keysStored : ¬ SomeKeyNull R m
  storable : Storable m

/-- Besides, an update has something to set. -/
structure RowCall.Allowed (R : Runtime) (cls : ModelClass) (c : RowCall) (m : Model) : Prop
    extends Rowed R cls m where
  fields : c = .saveToDBUseUpdate → updateBindings m (properties m.cls.chain) ≠ []

/-! ### Blocks -/

/-- What a method does on the serial queue at one time. -/
inductive RowBlock where
  | isExists | insert | replace | update | delete
  deriving DecidableEq, Repr

namespace RowBlock

def act (R : Runtime) (m : Model) : RowBlock → Action Bool
  | isExists => isExistsWithModel R m
  | insert => insertToDBWithModelReplace R m false
  | replace => insertToDBWithModelReplace R m true
  | update => executeBuilt R (createUpdateSQL R m none none)
  | delete => deleteRecordWithModel R m

def command (R : Runtime) (tbl : Table) (m : Model) : RowBlock → Keyed.Command Row
  | isExists => .find
  | insert => .insert (storedRow R tbl m)
  | replace => .replace (storedRow R tbl m)
  | update => .modify (updatedRow R tbl m)
  | delete => .erase

structure Allowed (R : Runtime) (cls : ModelClass) (b : RowBlock) (m : Model) : Prop
    extends Rowed R cls m where
  fields : b = update → updateBindings m (properties m.cls.chain) ≠ []

end RowBlock

/-- The key of the row of a model. -/
def rowKey (R : Runtime) (tbl : Table) (m : Model) : List Value :=
  (tbl.keyOf (storedRow R tbl m)).getD []

/-! ### One block -/

/-- An `INSERT OR REPLACE` of a model puts its row in the place of the rows with its key. -/
theorem replace_run (h : m.cls.Valid T) (hA : AllBacked m.cls.chain (properties m.cls.chain))
    (hdb : db (fold T) = some tbl) (htbl : TableOf m.cls tbl) (hst : Storable m)
    (hne : insertBindings R m (properties m.cls.chain) ≠ []) :
    insertToDBWithModelReplace R m true db =
      (.ok true, Function.update db (fold T) (some { tbl with
        rows := tbl.rows.filter (fun r => !HasKey R tbl m r) ++ [storedRow R tbl m] })) := by
  have hcolumn : ∀ e ∈ insertBindings R m (properties m.cls.chain), Name e.1 ∧ tbl.has e.1 := by
    intro e he
    obtain ⟨d, hd, hde⟩ := hst.insertBindings he
    exact hde ▸ ⟨stored_names h d hd, htbl.has d hd⟩
  have hown : Option.or none m.cls.getTableName = some T := h.table
  obtain ⟨sql, hsql, hprep⟩ := prepare_insert h.name true hne fun e he => (hcolumn e he).1
  have hbuilt := createInsertSQL_run (R := R) true hown hA
  rw [hsql] at hbuilt
  rw [insertToDBWithModelReplace, executeBuilt_some hbuilt]
  refine executeUpdate_done hprep (by simp [Sql.Stmt.params]) (Sql.onTable_of_some hdb ?_)
  have hall : (((insertBindings R m (properties m.cls.chain)).map (·.1)).all tbl.has) = true := by
    rw [List.all_eq_true]
    intro c hc
    obtain ⟨e, he, rfl⟩ := List.mem_map.mp hc
    exact (hcolumn e he).2
  have hrow : Sql.newRow R.conv tbl ((insertBindings R m (properties m.cls.chain)).map (·.1))
      (((insertBindings R m (properties m.cls.chain)).map (·.2)).map (bindObject R)) =
      storedRow R tbl m := by
    rw [storedRow, rowOf, List.map_map]
    rfl
  simp only [Sql.insertRow, hall, hrow, if_true]
  rfl

theorem KeysPlain.values (h : KeysPlain m) : ∀ p ∈ keyProperties m, m.value p.column ≠ none := by
  intro p hp
  obtain ⟨⟨v, hv⟩, -⟩ := h p hp
  rw [hv]
  exact Option.some_ne_none v

theorem any_keyOf (tbl : Table) (k : List Value) :
    tbl.rows.any (fun r => decide (tbl.keyOf r = some k)) = (tbl.store k).isSome := by
  rw [Bool.eq_iff_iff, Table.store, Keyed.view_isSome, List.any_eq_true]
  simp

section One

variable (h : Keyable cls T) (htbl : TableOf cls tbl)
include h htbl

namespace Rowed

variable (hm : Rowed R cls m)
include hm

/-- The row of the model has a key. -/
theorem key : tbl.keyOf (storedRow R tbl m) = some (rowKey R tbl m) := by
  obtain rfl := hm.cls
  have hself : HasKey R tbl m (storedRow R tbl m) = true :=
    hasKey_of_stored h.valid htbl h.keys hm.keysStored hm.keysPlain.values fun _ _ => rfl
  obtain ⟨k, hk, -⟩ := (Table.sameKey_iff tbl _ _).mp hself
  rw [rowKey, hk, Option.getD_some]

/-- The rows with the key of the model. -/
theorem hasKey_eq : HasKey R tbl m = fun r => decide (tbl.keyOf r = some (rowKey R tbl m)) :=
  funext fun r => Table.sameKey_of_keyOf (hm.key h htbl) r

theorem addressed_eq :
    Addressed R tbl m = fun r => decide (tbl.keyOf r = some (rowKey R tbl m)) := by
  obtain rfl := hm.cls
  funext r
  rw [hm.keysPlain.addressed_eq h.valid htbl, ← NBDataBase.hasKey_eq htbl h.keys r,
    hm.hasKey_eq h htbl]

/-- The update keeps the key. -/
theorem updated_key {r : Row} (hr : tbl.keyOf r = some (rowKey R tbl m)) :
    tbl.keyOf (updatedRow R tbl m r) = some (rowKey R tbl m) := by
  obtain rfl := hm.cls
  have hsame := hasKey_updatedRow (R := R) h.valid hm.storable htbl r
  rw [hm.hasKey_eq h htbl] at hsame
  simpa [hr] using hsame

end Rowed

/-- What a block puts at the key has it. -/
theorem RowBlock.Allowed.fits {b : RowBlock} (hb : b.Allowed R cls m) :
    (b.command R tbl m).Fits tbl.keyOf (rowKey R tbl m) := by
  cases b with
  | isExists => trivial
  | insert => exact hb.key h htbl
  | replace => exact hb.key h htbl
  | update => exact fun r => hb.updated_key h htbl
  | delete => trivial

theorem RowCall.Allowed.fits {c : RowCall} (hc : c.Allowed R cls m) :
    (c.command R tbl m).Fits tbl.keyOf (rowKey R tbl m) := by
  cases c with
  | saveToDB => exact hc.key h htbl
  | saveToDBUseReplace => exact hc.key h htbl
  | saveToDBUseUpdate => exact ⟨hc.key h htbl, fun r => hc.updated_key h htbl⟩
  | deleteToDB => trivial
  | isExistsFromDB => trivial

/-- **A block is its command**, on the rows of the table. -/
theorem block_run {b : RowBlock} (hb : b.Allowed R cls m) (hdb : db (fold T) = some tbl) :
    b.act R m db = (.ok ((b.command R tbl m).answer (tbl.store (rowKey R tbl m))),
      Function.update db (fold T) (some { tbl with
        rows := (b.command R tbl m).onRows tbl.keyOf (rowKey R tbl m) tbl.rows })) := by
  have hhas := hb.hasKey_eq h htbl
  have hadd := hb.addressed_eq h htbl
  have hany := any_keyOf tbl (rowKey R tbl m)
  obtain rfl := hb.cls
  have hvalues := hb.keysPlain.values
  have hk := keyBindings_of_values hvalues h.keys
  have hne := insertBindings_of_values (R := R) hvalues h.valid h.keys
  cases b with
  | isExists =>
      have hexists := isExists_run (R := R) h.valid hdb h.keysBacked htbl hk
      rw [hadd, hany] at hexists
      have hsame : Function.update db (fold T) (some tbl) = db := by
        rw [← hdb, Function.update_eq_self]
      simpa [RowBlock.act, RowBlock.command, Keyed.Command.onRows, Keyed.Command.answer,
        hsame] using hexists
  | insert =>
      have hinsert := insert_run (R := R) h.valid h.allBacked hdb htbl hb.storable hne
      rw [hhas, hany] at hinsert
      exact hinsert
  | replace =>
      have hreplace := replace_run (R := R) h.valid h.allBacked hdb htbl hb.storable hne
      rw [hhas] at hreplace
      simpa [RowBlock.act, RowBlock.command, Keyed.Command.onRows,
        Keyed.Command.answer] using hreplace
  | update =>
      have hupdate := update_done (R := R) h.valid h.keysBacked h.allBacked hk htbl hdb
        hb.storable (hb.fields rfl)
      rw [hadd] at hupdate
      simpa [RowBlock.act, RowBlock.command, Keyed.Command.onRows,
        Keyed.Command.answer] using hupdate
  | delete =>
      have hdelete := delete_run (R := R) h.valid hdb h.keysBacked htbl hk
      rw [hadd] at hdelete
      simpa [RowBlock.act, RowBlock.command, Keyed.Command.onRows,
        Keyed.Command.answer] using hdelete

/-- The existence check leaves the database. -/
theorem exists_run (hm : Rowed R cls m) (hdb : db (fold T) = some tbl) :
    isExistsWithModel R m db = (.ok (tbl.store (rowKey R tbl m)).isSome, db) := by
  have hrun := block_run (b := .isExists) h htbl ⟨hm, fun hb => by cases hb⟩ hdb
  have hsame : Function.update db (fold T) (some { tbl with rows := tbl.rows }) = db := by
    rw [show ({ tbl with rows := tbl.rows } : Table) = tbl from rfl, ← hdb,
      Function.update_eq_self]
  exact hrun.trans (congrArg _ hsame)

/-- **A call is its command**, on the rows of the table. -/
theorem call_run {c : RowCall} (hc : c.Allowed R cls m) (hdb : db (fold T) = some tbl) :
    c.run R m db = (.ok ((c.command R tbl m).answer (tbl.store (rowKey R tbl m))),
      Function.update db (fold T) (some { tbl with
        rows := (c.command R tbl m).onRows tbl.keyOf (rowKey R tbl m) tbl.rows })) := by
  have hblock : ∀ b : RowBlock, b ≠ .update → b.Allowed R cls m := fun b hb =>
    ⟨hc.toRowed, fun h => absurd h hb⟩
  cases c with
  | saveToDB => exact block_run h htbl (hblock .insert (by decide)) hdb
  | saveToDBUseReplace => exact block_run h htbl (hblock .replace (by decide)) hdb
  | deleteToDB => exact block_run h htbl (hblock .delete (by decide)) hdb
  | isExistsFromDB => exact block_run h htbl (hblock .isExists (by decide)) hdb
  | saveToDBUseUpdate =>
      show insertToDBWithModelUpdate R m true db = _
      have hexists := exists_run h htbl hc.toRowed hdb
      cases hthere : (tbl.store (rowKey R tbl m)).isSome with
      | false =>
          have hview : (Keyed.view tbl.keyOf tbl.rows (rowKey R tbl m)).isSome = false := hthere
          have hinsert := block_run h htbl (hblock .insert (by decide)) hdb
          rw [hthere] at hexists
          rw [upsert_insert hexists]
          simpa [RowBlock.act, RowBlock.command, RowCall.command, Keyed.Command.onRows,
            Keyed.Command.answer, hview] using hinsert
      | true =>
          have hview : (Keyed.view tbl.keyOf tbl.rows (rowKey R tbl m)).isSome = true := hthere
          have hupdate := block_run (b := .update) h htbl ⟨hc.toRowed, fun _ => hc.fields rfl⟩ hdb
          rw [hthere] at hexists
          rw [upsert_update hexists]
          simpa [RowBlock.act, RowBlock.command, RowCall.command, Keyed.Command.onRows,
            Keyed.Command.answer, hview] using hupdate

end One

/-! ### The demo's users -/

/-- A user with a key, and with a name or without. -/
def reader (uid : String) (name : Option String) : Model := .ofIvars userClass fun key =>
  if key = "_uid" then some (.string "NSString" uid)
  else if key = "_name" then name.map (.string "NSString")
  else some (.number (.double (some (.finite 20))))

theorem userClass_keyable : Keyable userClass "tb_users" where
  valid := userClass_valid
  values := by decide +kernel
  keys := by decide +kernel
  keysBacked := by decide +kernel
  allBacked := by decide +kernel

theorem reader_uid (uid : String) (name : Option String) :
    (reader uid name).value (⟨"_pk_uid", "@\"NSString\"", "uid"⟩ : Property).column =
      some (.string "NSString" uid) := by
  have hcol : (⟨"_pk_uid", "@\"NSString\"", "uid"⟩ : Property).column = "_uid" := by
    decide +kernel
  have hkey : ∀ values : String → Option Obj,
      (Model.ofIvars userClass values).value "_uid" = values "_uid" := fun _ => rfl
  rw [hcol, reader, hkey, if_pos rfl]

theorem reader_plain (uid : String) (name : Option String) {p : Property}
    (hp : p ∈ properties userClass.chain) : ¬ Archived (reader uid name) p := by
  have hblob : ∀ p ∈ properties userClass.chain, p.columnType ≠ some "BLOB" := by decide +kernel
  rintro ⟨v, -, hb, -⟩
  exact hblob p hp hb

theorem reader_allowed (c : RowCall) (uid : String) (name : Option String) :
    c.Allowed demoRuntime userClass (reader uid name) where
  cls := rfl
  keysPlain := by
    intro p hp
    refine ⟨⟨.string "NSString" uid, ?_⟩, reader_plain uid name (mem_keyProperties.mp hp).1⟩
    obtain rfl := user_keys none p hp
    exact reader_uid uid name
  keysStored := by
    rintro ⟨p, hp, -, v, hv, hnull⟩
    obtain rfl := user_keys none p hp
    rw [reader_uid] at hv
    obtain rfl := Option.some.inj hv
    cases hnull
  storable := by
    have hall : ∀ p ∈ properties userClass.chain, p.isStored = true := by decide +kernel
    exact fun p hp _ _ => hall p hp
  fields := by
    intro _
    have hage : ⟨"age", "d", "age"⟩ ∈ properties userClass.chain := by decide +kernel
    have hvalue : (reader uid name).value (⟨"age", "d", "age"⟩ : Property).column =
        some (.number (.double (some (.finite 20)))) := by
      have hcol : (⟨"age", "d", "age"⟩ : Property).column = "_age" := by decide +kernel
      have hkey : ∀ values : String → Option Obj,
          (Model.ofIvars userClass values).value "_age" = values "_age" := fun _ => rfl
      rw [hcol, reader, hkey, if_neg (by decide), if_neg (by decide)]
    have hmem : ((⟨"age", "d", "age"⟩ : Property).column,
        Obj.number (.double (some (.finite 20)))) ∈
          updateBindings (reader uid name) (properties (reader uid name).cls.chain) :=
      mem_updateBindings.mpr ⟨⟨_, hage, by decide +kernel, by decide +kernel, rfl⟩, hvalue⟩
    exact List.ne_nil_of_mem hmem

/-! ### Runs of calls -/

/-- Calls one after another, with their answers. -/
def runCalls (R : Runtime) (calls : List (RowCall × Model)) : Action (List Bool) :=
  Action.mapAll (fun c => c.1.run R c.2) calls

/-- What a call means. -/
def callOf (R : Runtime) (tbl : Table) (c : RowCall × Model) : Keyed.Call (List Value) Row :=
  ⟨rowKey R tbl c.2, c.1.command R tbl c.2⟩

/-- Other rows in the table mean the same. -/
theorem callOf_rows (rows : List Row) :
    callOf R { tbl with rows := rows } = callOf R tbl := rfl

/-- The table with other rows. -/
theorem TableOf.withRows (h : TableOf cls tbl) {rows : List Row}
    (hrows : Keyed.Distinct tbl.keyOf rows) : TableOf cls { tbl with rows := rows } where
  has := h.has
  affinity := h.affinity
  primaryKey := h.primaryKey
  unique := (Table.unique_iff _).mpr hrows

/-- The calls leave the rows of what they mean, and answer as it does. -/
structure Refines (R : Runtime) (tbl : Table) (calls : List (RowCall × Model))
    (answers : List Bool) (rows : List Row) : Prop where
  answers : answers = (Keyed.trace (calls.map (callOf R tbl)) tbl.store).map (·.2)
  store : Table.store { tbl with rows := rows } =
    Keyed.run (calls.map (callOf R tbl)) tbl.store
  keyless : Table.keyless { tbl with rows := rows } = tbl.keyless
  distinct : Keyed.Distinct tbl.keyOf rows

/-- **A run of calls is a run of what they mean** on the map that the table is. -/
theorem runCalls_run (h : Keyable cls T) {calls : List (RowCall × Model)}
    (hcalls : ∀ c ∈ calls, c.1.Allowed R cls c.2) (htbl : TableOf cls tbl)
    (hdb : db (fold T) = some tbl) : ∃ answers rows, Refines R tbl calls answers rows ∧
      runCalls R calls db =
        (.ok answers, Function.update db (fold T) (some { tbl with rows := rows })) := by
  induction calls generalizing tbl db with
  | nil =>
      refine ⟨[], tbl.rows, ⟨rfl, rfl, rfl, (Table.unique_iff tbl).mp htbl.unique⟩, ?_⟩
      rw [show ({ tbl with rows := tbl.rows } : Table) = tbl from rfl, ← hdb,
        Function.update_eq_self]
      rfl
  | cons c calls ih =>
      have hc := hcalls c List.mem_cons_self
      have hfits := hc.fits h htbl
      have hdistinct := Keyed.distinct_onRows hfits ((Table.unique_iff tbl).mp htbl.unique)
      have hrun := call_run h htbl hc hdb
      obtain ⟨answers, rows, hrest, hruns⟩ := ih
        (fun d hd => hcalls d (List.mem_cons_of_mem _ hd)) (htbl.withRows hdistinct)
        (Function.update_self (fold T) _ db)
      have hview := Keyed.view_onRows hfits tbl.rows
      have hstore : Table.store { tbl with
          rows := (c.1.command R tbl c.2).onRows tbl.keyOf (rowKey R tbl c.2) tbl.rows } =
          (callOf R tbl c).step tbl.store := hview
      refine ⟨(callOf R tbl c).answer tbl.store :: answers, rows,
        ⟨?_, ?_, ?_, hrest.distinct⟩, ?_⟩
      · rw [hrest.answers, hstore, callOf_rows]
        rfl
      · exact hrest.store.trans (by rw [hstore, callOf_rows]; rfl)
      · exact hrest.keyless.trans (Keyed.keyless_onRows hfits tbl.rows)
      · rw [runCalls, Action.mapAll, Action.bind_ok hrun]
        rw [runCalls] at hruns
        rw [Action.bind_ok hruns, Function.update_idem]
        rfl

/-- The empty table of the users. -/
def noUsers : Table := createdTable userClass

/-- A user who is saved and deleted, and one who is saved. -/
def userCalls : List (RowCall × Model) :=
  [(.saveToDBUseUpdate, reader "1" (some "Ann")), (.saveToDB, reader "2" none),
    (.deleteToDB, reader "1" none), (.isExistsFromDB, reader "1" (some "Bob"))]

example : (runCalls demoRuntime userCalls (tableDb "tb_users" noUsers)).1.toOption =
    some [true, true, true, false] := by decide +kernel

/-! ### Orders of calls -/

/-- The calls about the rows with a key. -/
def callsAt (R : Runtime) (tbl : Table) (k : List Value) (calls : List (RowCall × Model)) :
    List (RowCall × Model) := calls.filter fun c => rowKey R tbl c.2 = k

/-- The answers to them. -/
def answersAt (R : Runtime) (tbl : Table) (k : List Value) (calls : List (RowCall × Model))
    (answers : List Bool) : List Bool :=
  ((calls.zip answers).filter fun e => rowKey R tbl e.1.2 = k).map (·.2)

theorem ofKey_calls (k : List Value) (calls : List (RowCall × Model)) :
    Keyed.ofKey k (calls.map (callOf R tbl)) = (callsAt R tbl k calls).map (callOf R tbl) := by
  rw [Keyed.ofKey, List.filter_map, callsAt]
  rfl

theorem Refines.answersAt_eq {calls : List (RowCall × Model)} {answers : List Bool}
    {rows : List Row} (h : Refines R tbl calls answers rows) (k : List Value) :
    answersAt R tbl k calls answers =
      ((Keyed.trace (calls.map (callOf R tbl)) tbl.store).filter fun e => e.1.key = k).map
        (·.2) := by
  rw [← Keyed.zip_trace, ← h.answers, List.zip_map_left, List.filter_map, List.map_map]
  rfl

/-- **The order of calls of different keys** does not matter: the rows are the same up to order,
and every call is answered the same. -/
theorem runCalls_perm (h : Keyable cls T) {calls calls' : List (RowCall × Model)}
    (hcalls : ∀ c ∈ calls, c.1.Allowed R cls c.2) (htbl : TableOf cls tbl)
    (hdb : db (fold T) = some tbl) (hsame : ∀ k, callsAt R tbl k calls = callsAt R tbl k calls') :
    ∃ answers answers' rows rows',
      runCalls R calls db =
        (.ok answers, Function.update db (fold T) (some { tbl with rows := rows })) ∧
      runCalls R calls' db =
        (.ok answers', Function.update db (fold T) (some { tbl with rows := rows' })) ∧
      rows.Perm rows' ∧
      ∀ k, answersAt R tbl k calls answers = answersAt R tbl k calls' answers' := by
  have hcalls' : ∀ c ∈ calls', c.1.Allowed R cls c.2 := by
    intro c hc
    have hmem : c ∈ callsAt R tbl (rowKey R tbl c.2) calls' :=
      List.mem_filter.mpr ⟨hc, by simp⟩
    rw [← hsame] at hmem
    exact hcalls c (List.mem_filter.mp hmem).1
  have hkeys : ∀ k, Keyed.ofKey k (calls.map (callOf R tbl)) =
      Keyed.ofKey k (calls'.map (callOf R tbl)) := by
    intro k
    rw [ofKey_calls, ofKey_calls, hsame]
  obtain ⟨answers, rows, href, hrun⟩ := runCalls_run h hcalls htbl hdb
  obtain ⟨answers', rows', href', hrun'⟩ := runCalls_run h hcalls' htbl hdb
  refine ⟨answers, answers', rows, rows', hrun, hrun', ?_, fun k => ?_⟩
  · refine Keyed.perm_of_view href.distinct href'.distinct ?_
      (href.keyless.trans href'.keyless.symm)
    exact href.store.trans ((Keyed.run_congr hkeys _).trans href'.store.symm)
  · rw [href.answersAt_eq, href'.answersAt_eq, Keyed.trace_congr hkeys]

/-- Neighbours of different keys change places. -/
theorem callsAt_swap {c d : RowCall × Model} (h : rowKey R tbl c.2 ≠ rowKey R tbl d.2)
    (k : List Value) : callsAt R tbl k [c, d] = callsAt R tbl k [d, c] := by
  by_cases hc : rowKey R tbl c.2 = k
  · have hd : rowKey R tbl d.2 ≠ k := fun hd => h (hc.trans hd.symm)
    simp [callsAt, hc, hd]
  · by_cases hd : rowKey R tbl d.2 = k <;> simp [callsAt, hc, hd]

theorem users_in_any_order : ∃ answers answers' rows rows',
    runCalls demoRuntime [(.saveToDBUseReplace, reader "1" (some "Ann")),
      (.saveToDBUseUpdate, reader "2" none)] (tableDb "tb_users" noUsers) =
        (.ok answers, Function.update (tableDb "tb_users" noUsers) (fold "tb_users")
          (some { noUsers with rows := rows })) ∧
    runCalls demoRuntime [(.saveToDBUseUpdate, reader "2" none),
      (.saveToDBUseReplace, reader "1" (some "Ann"))] (tableDb "tb_users" noUsers) =
        (.ok answers', Function.update (tableDb "tb_users" noUsers) (fold "tb_users")
          (some { noUsers with rows := rows' })) ∧
    rows.Perm rows' ∧
    ∀ k, answersAt demoRuntime noUsers k [(.saveToDBUseReplace, reader "1" (some "Ann")),
        (.saveToDBUseUpdate, reader "2" none)] answers =
      answersAt demoRuntime noUsers k [(.saveToDBUseUpdate, reader "2" none),
        (.saveToDBUseReplace, reader "1" (some "Ann"))] answers' :=
  runCalls_perm userClass_keyable (by simp [reader_allowed])
    (created_tableOf userClass_valid) (tableDb_self _ _) (callsAt_swap (by decide +kernel))

/-! ### What is there -/

/-- Whether the row of the model is there after the method, if the method decides it. -/
def RowCall.leaves : RowCall → Option Bool
  | saveToDB | saveToDBUseReplace | saveToDBUseUpdate => some true
  | deleteToDB => some false
  | isExistsFromDB => none

theorem leaves_command (tbl : Table) (m : Model) (c : RowCall) :
    (c.command R tbl m).leaves = c.leaves := by
  cases c <;> rfl

/-- **A model is there** as the last save or delete of its key decides; before any, as the table
has it. -/
theorem isExists_after (h : Keyable cls T) {calls : List (RowCall × Model)}
    (hcalls : ∀ c ∈ calls, c.1.Allowed R cls c.2)
    (hm : RowCall.isExistsFromDB.Allowed R cls m) (htbl : TableOf cls tbl)
    (hdb : db (fold T) = some tbl) :
    ((runCalls R calls >>= fun _ => isExistsFromDB R m) db).1 =
      .ok ((((callsAt R tbl (rowKey R tbl m) calls).filterMap fun c => c.1.leaves).getLast?).getD
        (tbl.rows.any (HasKey R tbl m))) := by
  obtain ⟨answers, rows, href, hrun⟩ := runCalls_run h hcalls htbl hdb
  have hcall := call_run h (htbl.withRows href.distinct) hm (Function.update_self (fold T) _ db)
  have hanswer : (runCalls R calls >>= fun _ => isExistsFromDB R m) db =
      RowCall.isExistsFromDB.run R m (Function.update db (fold T)
        (some { tbl with rows := rows })) := Action.bind_ok hrun
  rw [hanswer, hcall]
  have hstore : Table.store { tbl with rows := rows } (rowKey R { tbl with rows := rows } m) =
      Keyed.run (calls.map (callOf R tbl)) tbl.store (rowKey R tbl m) :=
    congrFun href.store (rowKey R tbl m)
  have hbefore := any_keyOf tbl (rowKey R tbl m)
  rw [← hm.hasKey_eq h htbl] at hbefore
  show Except.ok (Table.store { tbl with rows := rows }
    (rowKey R { tbl with rows := rows } m)).isSome = _
  have hleaves : (fun c : Keyed.Call (List Value) Row => c.command.leaves) ∘ callOf R tbl =
      fun c => c.1.leaves := by
    funext c
    exact leaves_command tbl c.2 c.1
  rw [hstore, Keyed.present_run, Keyed.present, ofKey_calls, List.filterMap_map, hbefore, hleaves]

theorem saved_user_there :
    ((runCalls demoRuntime [(.saveToDB, reader "1" (some "Ann")),
        (.isExistsFromDB, reader "1" none)] >>= fun _ =>
      isExistsFromDB demoRuntime (reader "1" none)) (tableDb "tb_users" noUsers)).1 =
      .ok ((((callsAt demoRuntime noUsers (rowKey demoRuntime noUsers (reader "1" none))
        [(.saveToDB, reader "1" (some "Ann")), (.isExistsFromDB, reader "1" none)]).filterMap
          fun c => c.1.leaves).getLast?).getD
        (noUsers.rows.any (HasKey demoRuntime noUsers (reader "1" none)))) :=
  isExists_after userClass_keyable (by simp [reader_allowed]) (reader_allowed _ _ _)
    (created_tableOf userClass_valid) (tableDb_self _ _)

/-! ### Merged fields -/

/-- What a model has for a column, as the column stores it. -/
def cellOf (R : Runtime) (tbl : Table) (p : Property) (m : Model) : Option Value :=
  (m.value p.column).map fun v => (tbl.affinity p.column).apply R.conv (bindObject R v)

/-- The cell of a row that may be there. -/
def cellAt (c : String) (o : Option Row) : Value := o.elim .null fun r => r c

/-- An upsert leaves in a column what the model has for it, or else what was there. -/
theorem cellAt_upsert {p : Property} (h : cls.Valid T)
    (hm : RowCall.saveToDBUseUpdate.Allowed R cls m) (hp : p ∈ fieldProperties m)
    (ha : ¬ Archived m p) (o : Option Row) :
    cellAt (fold p.column) ((RowCall.saveToDBUseUpdate.command R tbl m).after o) =
      (cellOf R tbl p m).getD (cellAt (fold p.column) o) := by
  obtain rfl := hm.cls
  cases hv : m.value p.column with
  | none =>
      cases o with
      | none =>
          have hstored : storedRow R tbl m (fold p.column) = .null := by
            rw [stored_field h hp, hv]
            rfl
          simpa [cellOf, hv, cellAt, RowCall.command, Keyed.Command.after] using hstored
      | some r =>
          have hkept : updatedRow R tbl m r (fold p.column) = r (fold p.column) :=
            updatedRow_nil h hm.storable hp hv r
          simpa [cellOf, hv, cellAt, RowCall.command, Keyed.Command.after] using hkept
  | some v =>
      cases o with
      | none =>
          have hstored : storedRow R tbl m (fold p.column) =
              (tbl.affinity p.column).apply R.conv (bindObject R v) := by
            rw [stored_field h hp, hv, Option.map_some, Option.getD_some,
              encode_of_not_archived hv ha]
          simpa [cellOf, hv, cellAt, RowCall.command, Keyed.Command.after] using hstored
      | some r =>
          have hset : updatedRow R tbl m r (fold p.column) =
              (tbl.affinity p.column).apply R.conv (bindObject R v) :=
            updatedRow_value h hm.storable hp hv r
          simpa [cellOf, hv, cellAt, RowCall.command, Keyed.Command.after] using hset

/-- A stored property outside the key, which no model of the calls has archived. -/
structure PlainField (cls : ModelClass) (calls : List (RowCall × Model)) (p : Property) :
    Prop where
  mem : p ∈ properties cls.chain
  stored : p.isStored = true
  free : isPrimaryKey p.name = false
  plain : ∀ c ∈ calls, ¬ Archived c.2 p

/-- Upserts leave in a column what the last of them that has something for it has. -/
theorem cellAt_upserts {p : Property} (h : cls.Valid T) {calls : List (RowCall × Model)}
    (hcalls : ∀ c ∈ calls, c.1.Allowed R cls c.2) (hp : PlainField cls calls p)
    (hupserts : ∀ c ∈ calls, c.1 = .saveToDBUseUpdate) (o : Option Row) :
    cellAt (fold p.column) ((calls.map (callOf R tbl)).foldl (fun o c => c.command.after o) o) =
      ((calls.filterMap fun c => cellOf R tbl p c.2).getLast?).getD (cellAt (fold p.column) o) := by
  induction calls using List.reverseRecOn with
  | nil => rfl
  | append_singleton calls c ih =>
      obtain ⟨call, m⟩ := c
      obtain rfl : call = .saveToDBUseUpdate := hupserts (call, m) (by simp)
      have hm := hcalls (.saveToDBUseUpdate, m) (by simp)
      have hfield : p ∈ fieldProperties m := mem_fieldProperties.mpr
        ⟨by rw [hm.cls]; exact hp.mem, hp.stored, hp.free⟩
      have hlast : cellAt (fold p.column) (_ : Option Row) = (cellOf R tbl p m).getD _ :=
        cellAt_upsert h hm hfield (hp.plain _ (by simp))
          ((calls.map (callOf R tbl)).foldl (fun o c => c.command.after o) o)
      rw [ih (fun c hc => hcalls c (List.mem_append_left _ hc))
        ⟨hp.mem, hp.stored, hp.free, fun c hc => hp.plain c (List.mem_append_left _ hc)⟩
        fun c hc => hupserts c (List.mem_append_left _ hc)] at hlast
      rw [List.map_append, List.foldl_append, List.filterMap_append]
      refine hlast.trans ?_
      cases hcell : cellOf R tbl p m with
      | none => simp [hcell]
      | some v => simp [hcell]

/-- **Upserts of a key merge its fields**: the row has in each column what the last model that was
not nil there had, and where all were nil, what it had before. -/
theorem upserts_merge {p : Property} (h : Keyable cls T) {calls : List (RowCall × Model)}
    (hcalls : ∀ c ∈ calls, c.1.Allowed R cls c.2) (htbl : TableOf cls tbl)
    (hdb : db (fold T) = some tbl) {k : List Value}
    (hupserts : ∀ c ∈ callsAt R tbl k calls, c.1 = .saveToDBUseUpdate)
    (hsome : callsAt R tbl k calls ≠ []) (hp : PlainField cls (callsAt R tbl k calls) p) :
    ∃ answers rows r, runCalls R calls db =
        (.ok answers, Function.update db (fold T) (some { tbl with rows := rows })) ∧
      r ∈ rows ∧ tbl.keyOf r = some k ∧ r (fold p.column) =
        (((callsAt R tbl k calls).filterMap fun c => cellOf R tbl p c.2).getLast?).getD
          (cellAt (fold p.column) (tbl.rows.find? fun r => tbl.keyOf r = some k)) := by
  obtain ⟨answers, rows, href, hrun⟩ := runCalls_run h hcalls htbl hdb
  have hlocal : Keyed.view tbl.keyOf rows k =
      ((callsAt R tbl k calls).map (callOf R tbl)).foldl (fun o c => c.command.after o)
        (tbl.store k) := by
    rw [← ofKey_calls, ← Keyed.run_local]
    exact congrFun href.store k
  have hallowed : ∀ c ∈ callsAt R tbl k calls, c.1.Allowed R cls c.2 := fun c hc =>
    hcalls c (List.mem_filter.mp hc).1
  have hcell : cellAt (fold p.column) (((callsAt R tbl k calls).map (callOf R tbl)).foldl
      (fun o c => c.command.after o) (tbl.store k)) = _ :=
    cellAt_upserts h.valid hallowed hp hupserts (tbl.store k)
  rw [← hlocal] at hcell
  -- the last upsert leaves a row
  have hthere : (Keyed.view tbl.keyOf rows k).isSome = true := by
    obtain ⟨init, c, hinit⟩ := List.eq_nil_or_concat (callsAt R tbl k calls) |>.resolve_left hsome
    have hlast : c.1 = .saveToDBUseUpdate := hupserts c (by simp [hinit])
    rw [hlocal, hinit, List.concat_eq_append, List.map_append, List.foldl_append]
    simp [callOf, hlast, RowCall.command, Keyed.Command.after]
  obtain ⟨r, hr⟩ := Option.isSome_iff_exists.mp hthere
  have hkey : tbl.keyOf r = some k := by simpa using List.find?_some hr
  refine ⟨answers, rows, r, hrun, List.mem_of_find?_eq_some hr, hkey, ?_⟩
  rw [hr] at hcell
  exact hcell

/-- A user is saved with a name, and again without. -/
def annCalls : List (RowCall × Model) :=
  [(.saveToDBUseUpdate, reader "1" (some "Ann")), (.saveToDBUseUpdate, reader "1" none)]

/-- A user who is saved without a name keeps the name. -/
theorem named_user_merges : ∃ answers rows r,
    runCalls demoRuntime annCalls (tableDb "tb_users" noUsers) =
        (.ok answers, Function.update (tableDb "tb_users" noUsers) (fold "tb_users")
          (some { noUsers with rows := rows })) ∧
      r ∈ rows ∧ noUsers.keyOf r = some [.text "1"] ∧ r (fold "_name") = .text "Ann" := by
  have hall : callsAt demoRuntime noUsers [.text "1"] annCalls = annCalls := by
    have hann : rowKey demoRuntime noUsers (reader "1" (some "Ann")) = [.text "1"] := by
      decide +kernel
    have hnone : rowKey demoRuntime noUsers (reader "1" none) = [.text "1"] := by decide +kernel
    simp [annCalls, callsAt, hann, hnone]
  have hallowed : ∀ c ∈ annCalls, c.1.Allowed demoRuntime userClass c.2 := by
    simp [annCalls, reader_allowed]
  have htbl : TableOf userClass noUsers := created_tableOf userClass_valid
  have hname : PlainField userClass annCalls ⟨"name", "@\"NSString\"", "name"⟩ := by
    refine ⟨by decide +kernel, by decide +kernel, by decide +kernel, ?_⟩
    have hmem : ⟨"name", "@\"NSString\"", "name"⟩ ∈ properties userClass.chain := by
      decide +kernel
    simpa [annCalls] using ⟨reader_plain _ _ hmem, reader_plain _ _ hmem⟩
  obtain ⟨answers, rows, r, hrun, hmem, hkey, hcell⟩ := upserts_merge userClass_keyable hallowed
    htbl (tableDb_self "tb_users" noUsers) (by rw [hall]; simp [annCalls])
    (by rw [hall]; simp [annCalls]) (by rwa [hall])
  refine ⟨answers, rows, r, hrun, hmem, hkey, ?_⟩
  have hcolumn : (⟨"name", "@\"NSString\"", "name"⟩ : Property).column = "_name" := by
    decide +kernel
  rw [hcolumn, hall] at hcell
  rw [hcell]
  decide +kernel

end NBDataBase
