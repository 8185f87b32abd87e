import NBDataBase.Lib.Owned
import NBDataBase.Orm.Store

/-!
# Orm — clients with keys of their own

Clients that save, delete and look for models of one class at the same time.  Each is a program:
its next call may depend on the answers it got.  A call is one block on the serial queue, or two for
`saveToDBUseUpdate`, and the blocks of the clients are interleaved in any order.  No two clients
have a key in common.

* `RowCall.blocks`: the blocks of a call.  `blocks_alone`: uninterrupted they are the call.
* `block_local`: a block depends on the row of its key, and changes no other.
* `clients_undisturbed`: a client gets the answers, and leaves the rows, that it would alone.
* `clients_in_any_order`: the rows are those of the clients one after another, in any order.

Where two clients share a key, an `INSERT OR IGNORE` may find the row of the other, and a save is
lost.
-/

namespace NBDataBase
open Interleave
open Prog (perform)
open Sql (fold Db Table Row Value)

variable {R : Runtime} {T : String} {cls : ModelClass} {m : Model} {tbl : Table} {db db' : Db}

/-! ### Calls as blocks -/

/-- The blocks on the database. -/
def RowBlock.meaning (R : Runtime) : Meaning (RowBlock × Model) (Except Fault Bool) Unit Db :=
  fun o _ db => (o.1.act R o.2 db).swap

/-- The calls on the database. -/
def RowCall.meaning (R : Runtime) : Meaning (RowCall × Model) (Except Fault Bool) Unit Db :=
  fun o _ db => (o.1.run R o.2 db).swap

/-- The block of an upsert that the answer of its check leads to; an exception passes. -/
def RowBlock.write (m : Model) :
    Except Fault Bool → (RowBlock × Model) ⊕ Except Fault Bool
  | .ok found => .inl (if found then (.update, m) else (.insert, m))
  | .error e => .inr (.error e)

/-- The blocks of a call. -/
def RowCall.blocks (o : RowCall × Model) :
    Prog (RowBlock × Model) (Except Fault Bool) (Except Fault Bool) :=
  match o.1 with
  | saveToDB => perform (.insert, o.2)
  | saveToDBUseReplace => perform (.replace, o.2)
  | saveToDBUseUpdate => checkThen (.isExists, o.2) (RowBlock.write o.2)
  | deleteToDB => perform (.delete, o.2)
  | isExistsFromDB => perform (.isExists, o.2)

/-- Uninterrupted, the blocks are the call. -/
theorem blocks_alone (R : Runtime) (o : RowCall × Model) (db : Db) :
    alone (RowBlock.meaning R) (RowCall.blocks o) db = RowCall.meaning R o () db := by
  obtain ⟨c, m⟩ := o
  cases c with
  | saveToDB => rfl
  | saveToDBUseReplace => rfl
  | deleteToDB => rfl
  | isExistsFromDB => rfl
  | saveToDBUseUpdate =>
      show _ = (insertToDBWithModelUpdate R m true db).swap
      rw [upsert_run]
      cases hcheck : isExistsWithModel R m db with
      | mk answer db' =>
          cases answer with
          | error e =>
              rw [Action.bind_error hcheck]
              simp [alone, RowCall.blocks, checkThen, RowBlock.meaning, RowBlock.act, hcheck,
                RowBlock.write]
          | ok found =>
              rw [Action.bind_ok hcheck]
              cases found <;>
                simp [alone, RowCall.blocks, checkThen, perform, RowBlock.meaning, RowBlock.act,
                  hcheck, RowBlock.write, Prod.swap]

/-! ### One row -/

/-- The row of a key. -/
def rowAt (T : String) (k : List Value) (db : Db) : Option Row :=
  (db (fold T)).bind fun tbl => tbl.store k

/-- The database with other rows in the table: no two of one key, and the same without a key. -/
def Holding (T : String) (tbl : Table) (db db' : Db) : Prop :=
  ∃ rows, db' = Function.update db (fold T) (some { tbl with rows := rows }) ∧
    Keyed.Distinct tbl.keyOf rows ∧ Keyed.keyless tbl.keyOf rows = tbl.keyless

theorem Holding.start (htbl : TableOf cls tbl) (hdb : db (fold T) = some tbl) :
    Holding T tbl db db := by
  refine ⟨tbl.rows, ?_, (Table.unique_iff tbl).mp htbl.unique, rfl⟩
  rw [show ({ tbl with rows := tbl.rows } : Table) = tbl from rfl, ← hdb, Function.update_eq_self]

theorem rowAt_update (rows : List Row) (k : List Value) :
    rowAt T k (Function.update db (fold T) (some { tbl with rows := rows })) =
      Keyed.view tbl.keyOf rows k := by
  rw [rowAt, Function.update_self]
  rfl

section Blocks

variable (h : Keyable cls T) (htbl : TableOf cls tbl)
include h htbl

/-- A block, where the table holds other rows. -/
theorem block_held {b : RowBlock} (hb : b.Allowed R cls m) {rows : List Row}
    (hrows : Keyed.Distinct tbl.keyOf rows) :
    RowBlock.meaning R (b, m) ()
        (Function.update db (fold T) (some { tbl with rows := rows })) =
      (Function.update db (fold T) (some { tbl with
          rows := (b.command R tbl m).onRows tbl.keyOf (rowKey R tbl m) rows }),
        .ok ((b.command R tbl m).answer (Keyed.view tbl.keyOf rows (rowKey R tbl m)))) := by
  have hrun := block_run h (htbl.withRows hrows) hb
    (Function.update_self (fold T) (some { tbl with rows := rows }) db)
  rw [Function.update_idem] at hrun
  exact congrArg Prod.swap hrun

/-- **A block is about one row**, that of its key. -/
theorem block_local {b : RowBlock} (hb : b.Allowed R cls m) {P : List Value → Prop}
    (hP : P (rowKey R tbl m)) :
    Local (RowBlock.meaning R) (Holding T tbl db) (rowAt T) P (b, m) where
  keeps := by
    rintro _ ⟨rows, rfl, hrows, hkeyless⟩
    have hfits := hb.fits h htbl
    rw [block_held h htbl hb hrows]
    exact ⟨_, rfl, Keyed.distinct_onRows hfits hrows,
      (Keyed.keyless_onRows hfits rows).trans hkeyless⟩
  frame := by
    rintro _ ⟨rows, rfl, hrows, -⟩ k hk
    have hne : k ≠ rowKey R tbl m := fun e => hk (e ▸ hP)
    rw [block_held h htbl hb hrows, rowAt_update, rowAt_update,
      Keyed.view_onRows (hb.fits h htbl), Function.update_of_ne hne]
  agree := by
    rintro _ _ ⟨rows, rfl, hrows, -⟩ ⟨rows', rfl, hrows', -⟩ hagree
    have hview : ∀ k, P k → Keyed.view tbl.keyOf rows k = Keyed.view tbl.keyOf rows' k := by
      intro k hk
      have hsame := hagree k hk
      rwa [rowAt_update, rowAt_update] at hsame
    rw [block_held h htbl hb hrows, block_held h htbl hb hrows', hview _ hP]
    refine ⟨rfl, fun k hk => ?_⟩
    rw [rowAt_update, rowAt_update, Keyed.view_onRows (hb.fits h htbl),
      Keyed.view_onRows (hb.fits h htbl), hview _ hP]
    by_cases hkey : k = rowKey R tbl m
    · rw [hkey, Function.update_self, Function.update_self]
    · rw [Function.update_of_ne hkey, Function.update_of_ne hkey, hview k hk]

/-- The blocks of a call are about its row. -/
theorem blocks_local {o : RowCall × Model} (ho : o.1.Allowed R cls o.2) {P : List Value → Prop}
    (hP : P (rowKey R tbl o.2)) :
    (RowCall.blocks o).All (Local (RowBlock.meaning R) (Holding T tbl db) (rowAt T) P) := by
  obtain ⟨c, m⟩ := o
  have hblock : ∀ b : RowBlock, b ≠ .update →
      Local (RowBlock.meaning R) (Holding T tbl db) (rowAt T) P (b, m) := fun b hb =>
    block_local h htbl ⟨ho.toRowed, fun e => absurd e hb⟩ hP
  cases c with
  | saveToDB => exact ⟨hblock .insert (by decide), fun _ => trivial⟩
  | saveToDBUseReplace => exact ⟨hblock .replace (by decide), fun _ => trivial⟩
  | deleteToDB => exact ⟨hblock .delete (by decide), fun _ => trivial⟩
  | isExistsFromDB => exact ⟨hblock .isExists (by decide), fun _ => trivial⟩
  | saveToDBUseUpdate =>
      refine ⟨hblock .isExists (by decide), fun answer => ?_⟩
      cases answer with
      | error e => trivial
      | ok found =>
          cases found with
          | false => exact ⟨hblock .insert (by decide), fun _ => trivial⟩
          | true =>
              exact ⟨block_local h htbl ⟨ho.toRowed, fun _ => ho.fields rfl⟩ hP,
                fun _ => trivial⟩

end Blocks

/-! ### Clients -/

section Clients

variable {ι α : Type} (R) (cls) (tbl)

/-- Clients that call on models of the class with keys of their own. -/
structure Separate (mine : ι → List Value → Prop)
    (programs : ι → Prog (RowCall × Model) (Except Fault Bool) α) : Prop where
  calls : ∀ i, (programs i).All fun o => o.1.Allowed R cls o.2 ∧ mine i (rowKey R tbl o.2)
  disjoint : ∀ i j k, mine i k → mine j k → i = j

/-- The clients before a run, with the blocks of their calls. -/
def clientsOf (programs : ι → Prog (RowCall × Model) (Except Fault Bool) α) (db : Db) :
    Config ι (RowBlock × Model) (Except Fault Bool) α Db where
  threads i := (programs i).expand RowCall.blocks
  state := db

variable {R cls tbl} {mine : ι → List Value → Prop}
  {programs : ι → Prog (RowCall × Model) (Except Fault Bool) α}

/-- Each client keeps to the rows of its keys. -/
theorem Separate.owned (hs : Separate R cls tbl mine programs) (h : Keyable cls T)
    (htbl : TableOf cls tbl) (hdb : db (fold T) = some tbl) :
    Owned (RowBlock.meaning R) (Holding T tbl db) (rowAt T) mine (clientsOf programs db) where
  threads i := (hs.calls i).expand fun _ ho => blocks_local h htbl ho.1 ho.2
  state := Holding.start htbl hdb

end Clients

/-! ### Two users -/

/-- A client that deletes its user when it is there, and else saves it. -/
def toggle (uid : String) : Prog (RowCall × Model) (Except Fault Bool) (Except Fault Bool) :=
  perform (.isExistsFromDB, reader uid none) >>= fun answer =>
    match answer with
    | .ok true => perform (.deleteToDB, reader uid none)
    | _ => perform (.saveToDBUseUpdate, reader uid (some "Ann"))

def toggles (second : Bool) : Prog (RowCall × Model) (Except Fault Bool) (Except Fault Bool) :=
  toggle (if second then "2" else "1")

/-- The key of the user of a client. -/
def userKey (second : Bool) (k : List Value) : Prop := k = [.text (if second then "2" else "1")]

/-- Both look, the second saves, and the first saves. -/
def toggleSchedule : List (Bool × Unit) :=
  [(false, ()), (true, ()), (true, ()), (true, ()), (false, ()), (false, ())]

theorem toggles_separate : Separate demoRuntime userClass noUsers userKey toggles where
  calls := by
    intro second
    have hkey : ∀ name : Option String, name ∈ [none, some "Ann"] →
        rowKey demoRuntime noUsers (reader (if second then "2" else "1") name) =
          [.text (if second then "2" else "1")] := by
      cases second <;> decide +kernel
    refine ⟨⟨reader_allowed _ _ _, hkey none (by simp)⟩, fun answer => ?_⟩
    cases answer with
    | error e => exact ⟨⟨reader_allowed _ _ _, hkey _ (by simp)⟩, fun _ => trivial⟩
    | ok found =>
        cases found with
        | false => exact ⟨⟨reader_allowed _ _ _, hkey _ (by simp)⟩, fun _ => trivial⟩
        | true => exact ⟨⟨reader_allowed _ _ _, hkey _ (by simp)⟩, fun _ => trivial⟩
  disjoint := by
    rintro i j k hi hj
    rw [userKey, hi] at hj
    cases i <;> cases j <;> simp_all

theorem toggles_return (i : Bool) :
    ∃ a, (run (RowBlock.meaning demoRuntime) (clientsOf toggles (tableDb "tb_users" noUsers))
      toggleSchedule).threads i = .ret a := by
  have hsome : ((run (RowBlock.meaning demoRuntime)
      (clientsOf toggles (tableDb "tb_users" noUsers)) toggleSchedule).threads i).result.isSome =
        true := by
    cases i <;> decide +kernel
  obtain ⟨a, ha⟩ := Option.isSome_iff_exists.mp hsome
  exact ⟨a, Prog.ret_of_result ha⟩

/-! ### Any schedule -/

section

variable {ι α : Type} [DecidableEq ι] {mine : ι → List Value → Prop}
  {programs : ι → Prog (RowCall × Model) (Except Fault Bool) α}

/-- **Clients with keys of their own do not disturb each other.**  Whatever the schedule, a client
that has returned was answered as it would have been alone, and the rows of its keys are as it
would have left them.  A row of no client's key stays, and so do the rows without a key and the
other tables. -/
theorem clients_undisturbed (h : Keyable cls T) (htbl : TableOf cls tbl)
    (hdb : db (fold T) = some tbl) (hs : Separate R cls tbl mine programs)
    (schedule : List (ι × Unit)) :
    (∀ i a, (run (RowBlock.meaning R) (clientsOf programs db) schedule).threads i = .ret a →
      a = (alone (RowCall.meaning R) (programs i) db).2 ∧
      ∀ k, mine i k →
        rowAt T k (run (RowBlock.meaning R) (clientsOf programs db) schedule).state =
          rowAt T k (alone (RowCall.meaning R) (programs i) db).1) ∧
    (∀ k, (∀ i, ¬ mine i k) →
      rowAt T k (run (RowBlock.meaning R) (clientsOf programs db) schedule).state =
        rowAt T k db) ∧
    Holding T tbl db (run (RowBlock.meaning R) (clientsOf programs db) schedule).state := by
  have howned := hs.owned h htbl hdb
  refine ⟨fun i a hi => ?_, fun k hk => run_unowned howned schedule hk,
    (howned.run schedule).state⟩
  have hreturned := run_returned hs.disjoint howned hi
  rwa [clientsOf, alone_expand (blocks_alone R)] at hreturned

theorem toggles_undisturbed :
    (∀ i a, (run (RowBlock.meaning demoRuntime) (clientsOf toggles (tableDb "tb_users" noUsers))
        toggleSchedule).threads i = .ret a →
      a = (alone (RowCall.meaning demoRuntime) (toggles i) (tableDb "tb_users" noUsers)).2 ∧
      ∀ k, userKey i k →
        rowAt "tb_users" k (run (RowBlock.meaning demoRuntime)
            (clientsOf toggles (tableDb "tb_users" noUsers)) toggleSchedule).state =
          rowAt "tb_users" k
            (alone (RowCall.meaning demoRuntime) (toggles i) (tableDb "tb_users" noUsers)).1) ∧
    (∀ k, (∀ i, ¬ userKey i k) →
      rowAt "tb_users" k (run (RowBlock.meaning demoRuntime)
          (clientsOf toggles (tableDb "tb_users" noUsers)) toggleSchedule).state =
        rowAt "tb_users" k (tableDb "tb_users" noUsers)) ∧
    Holding "tb_users" noUsers (tableDb "tb_users" noUsers) (run (RowBlock.meaning demoRuntime)
      (clientsOf toggles (tableDb "tb_users" noUsers)) toggleSchedule).state :=
  clients_undisturbed userClass_keyable (created_tableOf userClass_valid) (tableDb_self _ _)
    toggles_separate toggleSchedule

/-- **Any order of the clients** leaves the same rows: when all have returned, the rows are, up to
their order, those that the clients leave one after another, and each was answered the same. -/
theorem clients_in_any_order (h : Keyable cls T) (htbl : TableOf cls tbl)
    (hdb : db (fold T) = some tbl) (hs : Separate R cls tbl mine programs)
    {schedule : List (ι × Unit)}
    (hreturned : ∀ i, ∃ a,
      (run (RowBlock.meaning R) (clientsOf programs db) schedule).threads i = .ret a)
    {order : List ι} (hnodup : order.Nodup) (hall : ∀ i, i ∈ order) :
    ∃ rows rows',
      (run (RowBlock.meaning R) (clientsOf programs db) schedule).state =
        Function.update db (fold T) (some { tbl with rows := rows }) ∧
      (serial (RowCall.meaning R) programs db order).1 =
        Function.update db (fold T) (some { tbl with rows := rows' }) ∧
      rows.Perm rows' ∧
      ∀ y ∈ (serial (RowCall.meaning R) programs db order).2,
        (run (RowBlock.meaning R) (clientsOf programs db) schedule).threads y.1 = .ret y.2 := by
  have howned := hs.owned h htbl hdb
  have hserial := run_serial hs.disjoint howned hreturned hnodup hall
  have hserialHolds := (serial_outcome hs.disjoint howned hnodup).1
  have hsame : serial (RowBlock.meaning R) (clientsOf programs db).threads db order =
      serial (RowCall.meaning R) programs db order :=
    serial_congr (fun i s => alone_expand (blocks_alone R) (programs i) s) db order
  rw [show (clientsOf programs db).state = db from rfl, hsame] at hserial hserialHolds
  obtain ⟨rows, hrows, hdistinct, hkeyless⟩ := (howned.run schedule).state
  obtain ⟨rows', hrows', hdistinct', hkeyless'⟩ := hserialHolds
  refine ⟨rows, rows', hrows, hrows', ?_, hserial.2⟩
  refine Keyed.perm_of_view hdistinct hdistinct' (funext fun k => ?_)
    (hkeyless.trans hkeyless'.symm)
  have hview := hserial.1 k
  rwa [hrows, hrows', rowAt_update, rowAt_update] at hview

end

theorem toggles_in_any_order : ∃ rows rows',
    (run (RowBlock.meaning demoRuntime) (clientsOf toggles (tableDb "tb_users" noUsers))
        toggleSchedule).state =
      Function.update (tableDb "tb_users" noUsers) (fold "tb_users")
        (some { noUsers with rows := rows }) ∧
    (serial (RowCall.meaning demoRuntime) toggles (tableDb "tb_users" noUsers) [true, false]).1 =
      Function.update (tableDb "tb_users" noUsers) (fold "tb_users")
        (some { noUsers with rows := rows' }) ∧
    rows.Perm rows' ∧
    ∀ y ∈ (serial (RowCall.meaning demoRuntime) toggles (tableDb "tb_users" noUsers)
        [true, false]).2,
      (run (RowBlock.meaning demoRuntime) (clientsOf toggles (tableDb "tb_users" noUsers))
        toggleSchedule).threads y.1 = .ret y.2 :=
  clients_in_any_order userClass_keyable (created_tableOf userClass_valid) (tableDb_self _ _)
    toggles_separate toggles_return (by decide) (by decide)

end NBDataBase
