import NBDataBase.Lib.Serial
import NBDataBase.Orm.Upsert

/-!
# Orm — upserts at the same time

Clients that each call `insertToDBWithModel:update:` with YES on a model of one class, over one
table.  The existence check is one block on the serial queue, and the `UPDATE` or the `INSERT`
is another; the blocks of the calls are interleaved in any order.

* `upsert`: the call as a program of two blocks; `upsert_alone`: uninterrupted it is
  `insertToDBWithModel:update:`.
* `LosesNoUpdate`: what a run owes its clients.  Its table and results are those of the calls one
  after another, and the row of a model whose call returned YES has held all its values.
* `Undisturbed`: the condition on the state that a write meets.  The existence check, made
  again, would be answered as it was; and an update sets no archived value.
* `undisturbed_loses_no_update`: a run whose writes are undisturbed loses no update.

A write that is not undisturbed is an `INSERT OR IGNORE` of a row that has come to exist, which
returns YES and writes nothing: `update_lost`.
-/

namespace NBDataBase
open Interleave
open Prog (perform)
open Sql (fold Db Table Row)

/-! ### The call as two blocks -/

/-- A block of an upsert. -/
inductive UpsertBlock where
  | isExists (model : Model)
  | update (model : Model)
  | insert (model : Model)

/-- The blocks on the database. -/
def UpsertBlock.act (R : Runtime) : Meaning UpsertBlock (Except Fault Bool) Unit Db
  | .isExists model, _, db => (isExistsWithModel R model db).swap
  | .update model, _, db => (executeBuilt R (createUpdateSQL R model none none) db).swap
  | .insert model, _, db => (insertToDBWithModelReplace R model false db).swap

/-- The block that the answer of the check leads to; an exception passes. -/
def upsertWrite (model : Model) : Except Fault Bool → UpsertBlock ⊕ Except Fault Bool
  | .ok isExists => .inl (if isExists then .update model else .insert model)
  | .error e => .inr (.error e)

/-- `insertToDBWithModel:update:` with YES. -/
def upsert (model : Model) : Prog UpsertBlock (Except Fault Bool) (Except Fault Bool) :=
  checkThen (.isExists model) (upsertWrite model)

/-- Uninterrupted, the blocks are the operation. -/
theorem upsert_alone (R : Runtime) (model : Model) (db : Db) :
    alone (UpsertBlock.act R) (upsert model) db =
      (insertToDBWithModelUpdate R model true db).swap := by
  rw [upsert_run]
  cases hcheck : isExistsWithModel R model db with
  | mk answer db' =>
      cases answer with
      | error e =>
          rw [Action.bind_error hcheck]
          simp [alone, upsert, checkThen, UpsertBlock.act, hcheck, upsertWrite]
      | ok isExists =>
          rw [Action.bind_ok hcheck]
          cases isExists <;>
            simp [alone, upsert, checkThen, perform, UpsertBlock.act, hcheck, upsertWrite,
              Prod.swap]

/-! ### What a run owes its clients -/

section Owed

variable {ι : Type} [DecidableEq ι] (R : Runtime) (T : String) (models : ι → Model) (db : Db)

/-- The clients before a run. -/
def clients : Config ι UpsertBlock (Except Fault Bool) (Except Fault Bool) Db where
  threads i := upsert (models i)
  state := db

/-- The row with the key of the model holds what an insert stores for each value it has. -/
def HoldsModel (m : Model) (db : Db) : Prop :=
  ∃ tbl r, db (fold T) = some tbl ∧ tbl.rows.filter (HasKey R tbl m) = [r] ∧
    ∀ p ∈ fieldProperties m, m.value p.column ≠ none →
      r (fold p.column) = storedRow R tbl m (fold p.column)

structure LosesNoUpdate (schedule : List (ι × Unit)) : Prop where
  /-- The table and the results are those of the calls one after another. -/
  serial : Serializable (UpsertBlock.act R) (clients models db)
    (run (UpsertBlock.act R) (clients models db) schedule)
  /-- The row of a model whose call returned YES has held all its values. -/
  moment : ∀ i, (run (UpsertBlock.act R) (clients models db) schedule).threads i =
      .ret (.ok true) →
    ∃ before, before <+: schedule ∧
      HoldsModel R T (models i) (run (UpsertBlock.act R) (clients models db) before).state

end Owed

/-- The condition on the database that a block meets: a write finds the existence check answered
as it was, and an update sets no archived value. -/
def Undisturbed (R : Runtime) (db : Db) : UpsertBlock → Prop
  | .isExists _ => True
  | .update m => (isExistsWithModel R m db).1 = .ok true ∧
      ∀ p ∈ fieldProperties m, ¬ Archived m p
  | .insert m => (isExistsWithModel R m db).1 = .ok false

instance (m : Model) (p : Property) : Decidable (Archived m p) :=
  match hv : m.value p.column with
  | none => isFalse fun ⟨_, hw, _⟩ => by rw [hv] at hw; cases hw
  | some v => decidable_of_iff (p.columnType = some "BLOB" ∧ v.isData = false)
      ⟨fun h => ⟨v, hv, h⟩, fun ⟨_, hw, h⟩ => by rw [hv] at hw; cases hw; exact h⟩

instance (R : Runtime) (db : Db) : (block : UpsertBlock) → Decidable (Undisturbed R db block)
  | .isExists _ => inferInstanceAs (Decidable True)
  | .update _ => inferInstanceAs (Decidable (_ ∧ _))
  | .insert _ => inferInstanceAs (Decidable (_ = _))

/-- The condition on a model: its keys are compared as they are stored, and every property that
has a value has a column. -/
structure Upsertable (R : Runtime) (m : Model) : Prop where
  keysPlain : KeysPlain m
  keysStored : ¬ SomeKeyNull R m
  storable : Storable m

/-! ### One write -/

section Writes

variable {R : Runtime} {T : String} {m : Model} {cls : ModelClass} {tbl : Table} {db db' : Db}
  {r : Row} {answer : Except Fault Bool}

theorem executeQuery_reads (R : Runtime) (sql : String) (args : List Obj) (db : Db) :
    ∃ rows, executeQuery R sql args db = (.ok rows, db) := by
  unfold executeQuery
  split
  · exact ⟨_, rfl⟩
  · split
    · exact ⟨[], rfl⟩
    · exact ⟨_, rfl⟩

/-- The check leaves the database. -/
theorem isExists_reads (R : Runtime) (m : Model) (db : Db) :
    isExistsWithModel R m db = ((isExistsWithModel R m db).1, db) := by
  unfold isExistsWithModel
  cases hselect : createSelectSQLWithPrimaryKey R m none with
  | error e => rw [hasRow_error rfl]
  | ok o =>
      cases o with
      | none => rfl
      | some q =>
          obtain ⟨rows, hrows⟩ := executeQuery_reads R q.1 q.2 db
          rw [hasRow_some rfl hrows]

/-- A table with a row added whose key is free is one of the class. -/
theorem TableOf.append (htbl : TableOf cls tbl)
    (hfree : tbl.rows.any (tbl.sameKey r) = false) :
    TableOf cls { tbl with rows := tbl.rows ++ [r] } where
  has := htbl.has
  affinity := htbl.affinity
  primaryKey := htbl.primaryKey
  unique := by
    refine List.pairwise_append.mpr ⟨htbl.unique, List.pairwise_singleton _ _, ?_⟩
    intro x hx y hy
    obtain rfl := List.mem_singleton.mp hy
    have hxr := List.any_eq_false.mp hfree x hx
    rw [Bool.not_eq_true, Table.sameKey_comm] at hxr
    exact hxr

/-- A table with its rows changed outside the key is one of the class. -/
theorem TableOf.map (htbl : TableOf cls tbl) {f : Row → Row}
    (hf : ∀ r, ∀ c ∈ tbl.primaryKey, f r (fold c) = r (fold c)) :
    TableOf cls { tbl with rows := tbl.rows.map f } where
  has := htbl.has
  affinity := htbl.affinity
  primaryKey := htbl.primaryKey
  unique := by
    refine List.pairwise_map.mpr (htbl.unique.imp fun {x y} hxy => ?_)
    have hx : ∀ z, tbl.sameKey (f x) z = tbl.sameKey x z := Table.sameKey_congr (hf x)
    have hy : ∀ z, tbl.sameKey (f y) z = tbl.sameKey y z := Table.sameKey_congr (hf y)
    show tbl.sameKey (f x) (f y) = false
    rw [hx, Table.sameKey_comm, hy, Table.sameKey_comm, hxy]

variable (T) in
/-- The table of the class is there. -/
def HasTable (cls : ModelClass) (db : Db) : Prop :=
  ∃ tbl, db (fold T) = some tbl ∧ TableOf cls tbl

/-- Rows that hold a model, in the database. -/
theorem holds_of_rows {rows : List Row} (hr : rows.filter (HasKey R tbl m) = [r])
    (hfields : ∀ p ∈ fieldProperties m, m.value p.column ≠ none →
      r (fold p.column) = storedRow R tbl m (fold p.column)) :
    HoldsModel R T m (Function.update db (fold T) (some { tbl with rows := rows })) :=
  ⟨{ tbl with rows := rows }, r, Function.update_self _ _ _, hr, hfields⟩

section

variable (h : m.cls.Valid T) (hpk : getPrimaryKeys m.cls.chain ≠ []) (hm : Upsertable R m)
  (hdb : db (fold T) = some tbl) (htbl : TableOf m.cls tbl)
include h hpk hm hdb htbl

/-- A check that was answered says whether some row has the key of the model. -/
theorem check_answer {isExists : Bool} (hcheck : (isExistsWithModel R m db).1 = .ok isExists) :
    KeysBacked m.cls.chain ∧ isExists = tbl.rows.any (HasKey R tbl m) := by
  have hkeys : ∀ p ∈ keyProperties m, m.value p.column ≠ none := fun p hp => by
    obtain ⟨v, hv⟩ := (hm.keysPlain p hp).1
    simp [hv]
  by_cases hK : KeysBacked m.cls.chain
  · rw [isExists_run h hdb hK htbl (keyBindings_of_values hkeys hpk)] at hcheck
    refine ⟨hK, ?_⟩
    rw [← Except.ok.inj hcheck]
    congr 1
    exact funext fun r => (hm.keysPlain.addressed_eq h htbl).trans (hasKey_eq htbl hpk r).symm
  · have hraises : isExistsWithModel R m db = (.error .invalidArgument, db) := by
      rw [isExistsWithModel, createSelectSQLWithPrimaryKey, h.table,
        hasRow_error (createSelectSQL_error hK)]
    rw [hraises] at hcheck
    cases hcheck

/-- An undisturbed insert adds the row of the model, or raises. -/
theorem insert_undisturbed (hcheck : (isExistsWithModel R m db).1 = .ok false) :
    HasTable T m.cls (insertToDBWithModelReplace R m false db).2 ∧
      ((insertToDBWithModelReplace R m false db).1 = .ok true →
        HoldsModel R T m (insertToDBWithModelReplace R m false db).2) := by
  obtain ⟨-, hfree⟩ := check_answer h hpk hm hdb htbl hcheck
  have hkeys : ∀ p ∈ keyProperties m, m.value p.column ≠ none := fun p hp => by
    obtain ⟨v, hv⟩ := (hm.keysPlain p hp).1
    simp [hv]
  by_cases hA : AllBacked m.cls.chain (properties m.cls.chain)
  · rw [insert_run h hA hdb htbl hm.storable (insertBindings_of_values hkeys h hpk), ← hfree,
      if_neg Bool.false_ne_true]
    have hself : HasKey R tbl m (storedRow R tbl m) = true :=
      hasKey_of_stored h htbl hpk hm.keysStored hkeys fun _ _ => rfl
    obtain ⟨r, hr, hfields, -⟩ := StoresModel.appended hself hfree.symm
    exact ⟨⟨_, Function.update_self _ _ _, htbl.append hfree.symm⟩,
      fun _ => holds_of_rows hr fun p hp _ => hfields p hp⟩
  · have hown : Option.or none m.cls.getTableName = some T := h.table
    rw [insertToDBWithModelReplace,
      executeBuilt_error (createInsertSQL_error (R := R) false hown hA)]
    exact ⟨⟨tbl, hdb, htbl⟩, fun hc => by cases hc⟩

/-- An undisturbed update changes the row of the model to its values, or raises, or has nothing
to set and returns NO. -/
theorem update_undisturbed (hcheck : (isExistsWithModel R m db).1 = .ok true)
    (hplain : ∀ p ∈ fieldProperties m, ¬ Archived m p) :
    HasTable T m.cls (executeBuilt R (createUpdateSQL R m none none) db).2 ∧
      ((executeBuilt R (createUpdateSQL R m none none) db).1 = .ok true →
        HoldsModel R T m (executeBuilt R (createUpdateSQL R m none none) db).2) := by
  obtain ⟨hK, hsome⟩ := check_answer h hpk hm hdb htbl hcheck
  have hkeys : ∀ p ∈ keyProperties m, m.value p.column ≠ none := fun p hp => by
    obtain ⟨v, hv⟩ := (hm.keysPlain p hp).1
    simp [hv]
  have hk := keyBindings_of_values hkeys hpk
  by_cases hA : AllBacked m.cls.chain (properties m.cls.chain)
  · by_cases hnil : updateBindings m (properties m.cls.chain) = []
    · rw [update_nothing h hK hA hk hnil]
      exact ⟨⟨tbl, hdb, htbl⟩, fun hc => by cases hc⟩
    · have hsame : Addressed R tbl m = HasKey R tbl m := funext fun r =>
        (hm.keysPlain.addressed_eq h htbl).trans (hasKey_eq htbl hpk r).symm
      rw [update_done h hK hA hk htbl hdb hm.storable hnil, hsame]
      refine ⟨⟨_, Function.update_self _ _ _, htbl.map fun r c hc => ?_⟩, fun _ => ?_⟩
      · rw [htbl.primaryKey] at hc
        obtain ⟨q, hq, hkey, rfl⟩ := mem_getPrimaryKeys.mp hc
        split
        · exact updatedRow_key h hm.storable (mem_keyProperties.mpr ⟨hq, hkey⟩) r
        · rfl
      · obtain ⟨r, hr⟩ := filter_changed (hasKey_unique htbl hpk) hsome.symm
          (hasKey_updatedRow h hm.storable htbl)
        refine holds_of_rows hr fun p hp hv => ?_
        obtain ⟨v, hv⟩ := Option.ne_none_iff_exists'.mp hv
        exact updatedRow_plain h hm.storable hp hv (hplain p hp) r
  · rw [createUpdateSQL, createUpdateSQLWithModelAndTableClass,
      executeBuilt_error (createUpdateSQL_error (R := R) hA _ none)]
    exact ⟨⟨tbl, hdb, htbl⟩, fun hc => by cases hc⟩

end

end Writes

/-! ### Runs -/

section Runs

variable {ι : Type} [DecidableEq ι] {R : Runtime} {T : String} {models : ι → Model}
  {cls : ModelClass}
  {db : Db} {schedule : List (ι × Unit)}

theorem act_isExists (m : Model) (s : Db) : (UpsertBlock.act R (.isExists m) () s).1 = s := by
  show (isExistsWithModel R m s).2 = s
  rw [isExists_reads]

theorem act_isExists_answer (m : Model) (s : Db) :
    (UpsertBlock.act R (.isExists m) () s).2 = (isExistsWithModel R m s).1 := rfl

omit [DecidableEq ι] in
/-- A block that a client performs is its check or one of its writes. -/
theorem block_of_client
    {p : Performed ι UpsertBlock (Except Fault Bool) (Except Fault Bool) Unit Db}
    (hstands : Stands (fun i => .isExists (models i)) (fun i => upsertWrite (models i)) p.before)
    {next : Except Fault Bool → Prog UpsertBlock (Except Fault Bool) (Except Fault Bool)}
    (hnext : p.before.threads p.thread = .call p.op next) :
    (p.op = .isExists (models p.thread) ∧ ∀ answer, next answer ≠ .ret (.ok true)) ∨
      (next = .ret ∧ (p.op = .update (models p.thread) ∨ p.op = .insert (models p.thread))) := by
  rcases hstands p.thread with hfirst | ⟨answer, o, ho, hsecond⟩ | ⟨a, hret⟩
  · rw [hnext] at hfirst
    obtain ⟨hop, hdecides⟩ := Prog.call.inj hfirst
    refine Or.inl ⟨hop, fun answer hanswer => ?_⟩
    rw [hdecides] at hanswer
    rcases answer with e | isExists
    · cases hanswer
    · cases isExists <;> cases hanswer
  · rw [hnext] at hsecond
    obtain ⟨hop, hret⟩ := Prog.call.inj hsecond
    refine Or.inr ⟨hret, ?_⟩
    rw [hop]
    rcases answer with e | isExists
    · cases ho
    · obtain rfl := Sum.inl.inj ho
      cases isExists
      · exact Or.inr rfl
      · exact Or.inl rfl
  · rw [hnext] at hret
    cases hret

/-- Where the clients of an undisturbed run stand, and that it is serializable. -/
theorem undisturbed_serial (hrun : ∀ p ∈ performed (UpsertBlock.act R) (clients models db) schedule,
    Undisturbed R p.before.state p.op) :
    Stands (fun i => .isExists (models i)) (fun i => upsertWrite (models i))
        (run (UpsertBlock.act R) (clients models db) schedule) ∧
      Serializable (UpsertBlock.act R) (clients models db)
        (run (UpsertBlock.act R) (clients models db) schedule) := by
  refine serializable_of_valid (fun i s => act_isExists (models i) s) (fun i answer hw => ?_)
    (fun i => rfl) fun p hp hstands => ?_
  · rcases answer with e | isExists
    · cases hw
    · cases isExists <;> cases hw
  · obtain ⟨next, hnext⟩ := performed_thread hp
    have hcond := hrun p hp
    unfold StillValid
    rw [act_isExists_answer]
    rcases block_of_client hstands hnext with ⟨hop, -⟩ | ⟨-, hop | hop⟩
    · exact Or.inl hop
    · rw [hop] at hcond ⊢
      rw [hcond.1]
      exact Or.inr rfl
    · rw [hop] at hcond ⊢
      rw [hcond]
      exact Or.inr rfl

variable (h : cls.Valid T) (hpk : getPrimaryKeys cls.chain ≠ []) (hcls : ∀ i, (models i).cls = cls)
  (hmodels : ∀ i, Upsertable R (models i)) (htable : HasTable T cls db)
include h hpk hcls hmodels htable

omit [DecidableEq ι] htable in
/-- The step lemma: an undisturbed block keeps the table of the class, and one with which the
client returns YES leaves its model held. -/
theorem block_undisturbed {i : ι} {o : UpsertBlock} {s : Db}
    {next : Except Fault Bool → Prog UpsertBlock (Except Fault Bool) (Except Fault Bool)}
    (htab : HasTable T cls s)
    (hblock : (o = .isExists (models i) ∧ ∀ answer, next answer ≠ .ret (.ok true)) ∨
      (next = .ret ∧ (o = .update (models i) ∨ o = .insert (models i))))
    (hcond : Undisturbed R s o) :
    HasTable T cls (UpsertBlock.act R o () s).1 ∧
      (next (UpsertBlock.act R o () s).2 = .ret (.ok true) →
        HoldsModel R T (models i) (UpsertBlock.act R o () s).1) := by
  obtain ⟨tbl, hdb, htbl⟩ := htab
  rw [← hcls i] at h hpk htbl ⊢
  rcases hblock with ⟨rfl, hnot⟩ | ⟨rfl, rfl | rfl⟩
  · rw [act_isExists]
    exact ⟨⟨tbl, hdb, htbl⟩, fun hret => absurd hret (hnot _)⟩
  · obtain ⟨htab, hholds⟩ := update_undisturbed h hpk (hmodels i) hdb htbl hcond.1 hcond.2
    exact ⟨htab, fun hret => hholds (Prog.ret.inj hret)⟩
  · obtain ⟨htab, hholds⟩ := insert_undisturbed h hpk (hmodels i) hdb htbl hcond
    exact ⟨htab, fun hret => hholds (Prog.ret.inj hret)⟩

/-- The run lemma: the table of the class stays there, and a model whose call has returned YES
has been held. -/
theorem undisturbed_moment (hrun : ∀ p ∈ performed (UpsertBlock.act R) (clients models db) schedule,
    Undisturbed R p.before.state p.op) :
    HasTable T cls (run (UpsertBlock.act R) (clients models db) schedule).state ∧
      ∀ i, (run (UpsertBlock.act R) (clients models db) schedule).threads i = .ret (.ok true) →
        ∃ before, before <+: schedule ∧
          HoldsModel R T (models i) (run (UpsertBlock.act R) (clients models db) before).state := by
  induction schedule using List.reverseRecOn with
  | nil => exact ⟨htable, fun i hi => by cases hi⟩
  | append_singleton before x ih =>
      obtain ⟨i, ⟨⟩⟩ := x
      rw [performed_append] at hrun
      have hbefore : ∀ p ∈ performed (UpsertBlock.act R) (clients models db) before,
          Undisturbed R p.before.state p.op := fun p hp => hrun p (List.mem_append_left _ hp)
      obtain ⟨htab, hheld⟩ := ih hbefore
      obtain ⟨hstands, -⟩ := undisturbed_serial hbefore
      -- The clients that had returned before keep their moments.
      have hold : ∀ j, (run (UpsertBlock.act R) (clients models db) before).threads j =
          .ret (.ok true) → ∃ b, b <+: before ++ [(i, ())] ∧
            HoldsModel R T (models j) (run (UpsertBlock.act R) (clients models db) b).state := by
        intro j hj
        obtain ⟨b, hb, hholds⟩ := hheld j hj
        exact ⟨b, hb.trans (List.prefix_append _ _), hholds⟩
      rw [run_snoc]
      cases hi : (run (UpsertBlock.act R) (clients models db) before).threads i with
      | ret a =>
          rw [step_ret hi]
          exact ⟨htab, hold⟩
      | call o next =>
          have hcond : Undisturbed R (run (UpsertBlock.act R) (clients models db) before).state o :=
            hrun ⟨i, o, (), run (UpsertBlock.act R) (clients models db) before⟩
              (List.mem_append_right _ (by rw [performed_call hi]; exact List.mem_cons_self))
          have hblock := block_of_client (p := ⟨i, o, (), _⟩) hstands hi
          obtain ⟨htab', hholds⟩ := block_undisturbed h hpk hcls hmodels htab hblock hcond
          refine ⟨by rw [step_call hi]; exact htab', fun j hj => ?_⟩
          rw [step_call hi] at hj
          by_cases hji : j = i
          · subst hji
            simp only [Function.update_self] at hj
            refine ⟨before ++ [(j, ())], List.prefix_refl _, ?_⟩
            rw [run_snoc, step_call hi]
            exact hholds hj
          · simp only [Function.update_of_ne hji] at hj
            exact hold j hj

/-- **Upserts that are not disturbed lose no update.** -/
theorem undisturbed_loses_no_update
    (hrun : ∀ p ∈ performed (UpsertBlock.act R) (clients models db) schedule,
      Undisturbed R p.before.state p.op) :
    LosesNoUpdate R T models db schedule where
  serial := (undisturbed_serial hrun).2
  moment := (undisturbed_moment h hpk hcls hmodels htable hrun).2

end Runs

/-! ### Two users with one key -/

/-- A client that has no name for the user, and one that has. -/
def userOf (named : Bool) : Model := user (if named then some "Ann" else none)

theorem userOf_upsertable (named : Bool) : Upsertable demoRuntime (userOf named) where
  keysPlain := user_keysPlain _
  keysStored := by
    rintro ⟨p, hp, -, v, hv, hnull⟩
    obtain rfl := user_keys _ p hp
    have huid : (userOf named).value (⟨"_pk_uid", "@\"NSString\"", "uid"⟩ : Property).column =
        some (.string "NSString" "1") := by cases named <;> decide +kernel
    rw [huid] at hv
    obtain rfl := Option.some.inj hv
    cases hnull
  storable := by
    have hall : ∀ p ∈ properties userClass.chain, p.isStored = true := by decide +kernel
    exact fun p hp _ _ => hall p hp

/-- The database with an empty table of users. -/
def emptyUsers : Db := tableDb "tb_users" (createdTable userClass)

/-- The table with a row of the user. -/
def oneUser : Table :=
  { createdTable userClass with rows := [fun c => if c = "_uid" then .text "1" else .null] }

theorem oneUser_tableOf : TableOf userClass oneUser where
  has := (created_tableOf userClass_valid).has
  affinity := (created_tableOf userClass_valid).affinity
  primaryKey := rfl
  unique := List.pairwise_singleton _ _

/-- Both checks before both updates of a row that is there. -/
theorem users_interleaved : LosesNoUpdate demoRuntime "tb_users" userOf (tableDb "tb_users" oneUser)
    [(false, ()), (true, ()), (true, ()), (false, ())] :=
  undisturbed_loses_no_update userClass_valid (by decide +kernel) (fun _ => rfl) userOf_upsertable
    ⟨_, tableDb_self _ _, oneUser_tableOf⟩ (by decide +kernel)

/-- Both checks before both inserts: both calls return YES, and the name is in no row, as it is
after either order of the calls. -/
theorem update_lost : ¬ LosesNoUpdate demoRuntime "tb_users" userOf emptyUsers
    [(false, ()), (true, ()), (false, ()), (true, ())] := by
  let names (db : Db) := (db "tb_users").map fun tbl => tbl.rows.map (· "_name")
  intro h
  obtain ⟨order, hnodup, hmem, hstate, -⟩ := h.serial
  have hlost : names (run (UpsertBlock.act demoRuntime) (clients userOf emptyUsers)
      [(false, ()), (true, ()), (false, ()), (true, ())]).state = some [.null] := by
    decide +kernel
  have hserial : ∀ order ∈ [false, true].permutations', names (serial
      (UpsertBlock.act demoRuntime) (clients userOf emptyUsers).threads
      (clients userOf emptyUsers).state order).1 = some [.text "Ann"] := by
    decide +kernel
  have hreturned : ∀ i : Bool, i ∈ order := by
    intro i
    have hret : ∀ i, ((run (UpsertBlock.act demoRuntime) (clients userOf emptyUsers)
        [(false, ()), (true, ()), (false, ()), (true, ())]).threads i).result =
          some (.ok true) := by decide +kernel
    exact (hmem i).mpr ⟨_, Prog.ret_of_result (hret i)⟩
  -- Both calls have returned: the order is one of two.
  have hperm : order.Perm [false, true] :=
    (List.perm_ext_iff_of_nodup hnodup (by decide)).mpr fun i =>
      ⟨fun _ => by cases i <;> simp, fun _ => hreturned i⟩
  have hfound := hserial order (List.mem_permutations'.mpr hperm)
  rw [hstate, hlost] at hfound
  cases hfound

end NBDataBase
