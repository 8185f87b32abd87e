import NBDataBase.Sql.Value

/-!
# SQL — tables and execution

What the statements of the fragment do to a database of ordinary tables.  SQLite's compile-time
limits are not part of it; a result about texts that can have more parameters than SQLite takes
(`maxVariables`) asks for no more.  No column of a table is its `rowid`: none is declared
`INTEGER PRIMARY KEY`.

* `Table`: declared columns, primary key and rows.  A row gives each column, by its folded name,
  a value.  `Table.Unique`: no two rows have the same primary key.
* `exec`: the effect of a statement, or none when SQLite rejects it.  A rejected statement
  changes nothing.  `select`: the rows a query returns.
* `exec_…`: the effect of each statement on the one table it names; `onTable_other`: every other
  table is as it was.
* `updateRows_of_keys`: an `UPDATE` that sets no key column changes the rows it selects and no
  others.
* `Table.grow`: a table with columns appended.  `addColumn_eq`: `ALTER TABLE` grows it by one.
-/

namespace Sql

abbrev Row := String → Value

structure Table where
  columns : List (String × String)
  primaryKey : List String
  rows : List Row

/-- The tables, by folded name. -/
abbrev Db := String → Option Table

namespace Table

def has (tbl : Table) (c : String) : Bool := tbl.columns.any fun d => fold d.1 = fold c

/-- The affinity of a column. -/
def affinity (tbl : Table) (c : String) : Affinity :=
  match tbl.columns.find? fun d => fold d.1 = fold c with
  | some d => affinityOf d.2
  | none => .blob

/-- Two rows clash: there is a primary key, and they agree on it. -/
def sameKey (tbl : Table) (r r' : Row) : Bool :=
  !tbl.primaryKey.isEmpty && tbl.primaryKey.all fun c => (r (fold c)).equals (r' (fold c))

/-- The primary key constraint. -/
def Unique (tbl : Table) : Prop := tbl.rows.Pairwise fun r r' => tbl.sameKey r r' = false

theorem sameKey_comm (tbl : Table) (r r' : Row) : tbl.sameKey r r' = tbl.sameKey r' r := by
  simp only [sameKey, Value.equals_comm]

/-- A row clashes as the row it agrees with on the key does. -/
theorem sameKey_congr {tbl : Table} {r s : Row}
    (h : ∀ c ∈ tbl.primaryKey, r (fold c) = s (fold c)) (r' : Row) :
    tbl.sameKey r r' = tbl.sameKey s r' := by
  simp only [sameKey]
  congr 1
  rw [Bool.eq_iff_iff, List.all_eq_true, List.all_eq_true]
  exact forall₂_congr fun c hc => by rw [h c hc]

/-- Clashing rows clash with the same rows. -/
theorem sameKey_of_sameKey {tbl : Table} {r s : Row} (h : tbl.sameKey r s = true) (r' : Row) :
    tbl.sameKey r r' = tbl.sameKey s r' := by
  simp only [sameKey, Bool.and_eq_true] at h ⊢
  obtain ⟨-, h⟩ := h
  rw [List.all_eq_true] at h
  congr 1
  rw [Bool.eq_iff_iff, List.all_eq_true, List.all_eq_true]
  refine forall₂_congr fun c hc => ⟨fun hr => ?_, fun hs => Value.equals_trans (h c hc) hs⟩
  rw [Value.equals_comm]
  exact Value.equals_trans (Value.equals_comm _ _ ▸ hr) (h c hc)

end Table

/-! ### Conditions -/

/-- A conjunct with its values. -/
abbrev Bound := String × List Value

/-- The conjuncts take their values from the left. -/
def bind : List Atom → List Value → List Bound
  | [], _ => []
  | a :: as, vs => (a.column, vs.take a.params) :: bind as (vs.drop a.params)

/-- The conjuncts are about the columns that the clause names. -/
theorem bind_column {as : List Atom} {vs : List Value} {b : Bound} (h : b ∈ bind as vs) :
    ∃ a ∈ as, a.column = b.1 := by
  induction as generalizing vs with
  | nil => cases h
  | cons a as ih =>
      rcases List.mem_cons.mp h with rfl | h
      · exact ⟨a, List.mem_cons_self, rfl⟩
      · obtain ⟨a', ha, hb⟩ := ih h
        exact ⟨a', List.mem_cons_of_mem _ ha, hb⟩

section

variable (conv : Conversions)

/-- A row satisfies every conjunct: its column equals one of the values. -/
def satisfies (tbl : Table) (conds : List Bound) (r : Row) : Bool :=
  conds.all fun b => b.2.any fun v =>
    (r (fold b.1)).equals ((tbl.affinity b.1).ofComparison.apply conv v)

/-! ### Effects on one table -/

/-- The row an `INSERT` makes.  The first of two columns of one name counts, and a column that is
not named is NULL. -/
def newRow (tbl : Table) (cs : List String) (vs : List Value) : Row := fun c =>
  match (cs.zip vs).find? fun p => fold p.1 = c with
  | some p => (tbl.affinity p.1).apply conv p.2
  | none => .null

def insertRow (replace : Bool) (cs : List String) (vs : List Value) (tbl : Table) :
    Option Table :=
  if cs.all tbl.has then
    let row := newRow conv tbl cs vs
    if replace then
      some { tbl with rows := tbl.rows.filter (fun r => !tbl.sameKey row r) ++ [row] }
    else if tbl.rows.any (tbl.sameKey row) then some tbl
    else some { tbl with rows := tbl.rows ++ [row] }
  else none

/-- The assignments of an `UPDATE`, from the left. -/
def assign (tbl : Table) (ss : List String) (vs : List Value) (r : Row) : Row :=
  (ss.zip vs).foldl
    (fun r p => Function.update r (fold p.1) ((tbl.affinity p.1).apply conv p.2)) r

/-- The rows `todo` are updated one after another; a clash undoes the statement. -/
def updateFrom (tbl : Table) (P : Row → Bool) (f : Row → Row) :
    List Row → List Row → Option (List Row)
  | done, [] => some done
  | done, r :: todo =>
      if P r then
        if (done ++ todo).any (tbl.sameKey (f r)) then none
        else updateFrom tbl P f (done ++ [f r]) todo
      else updateFrom tbl P f (done ++ [r]) todo

def updateRows (ss : List String) (vs : List Value) (conds : List Bound) (tbl : Table) :
    Option Table :=
  if ss.all tbl.has ∧ conds.all (fun b => tbl.has b.1) then
    (updateFrom tbl (satisfies conv tbl conds) (assign conv tbl ss vs) [] tbl.rows).map
      fun rows => { tbl with rows := rows }
  else none

def deleteRows (conds : List Bound) (tbl : Table) : Option Table :=
  if conds.all (fun b => tbl.has b.1) then
    some { tbl with rows := tbl.rows.filter fun r => !satisfies conv tbl conds r }
  else none

def selectRows (conds : List Bound) (tbl : Table) : Option (List Row) :=
  if conds.all (fun b => tbl.has b.1) then some (tbl.rows.filter (satisfies conv tbl conds))
  else none

/-- The new column is NULL in the rows that are there. -/
def addColumn (c type : String) (tbl : Table) : Option Table :=
  if tbl.has c then none
  else some { tbl with
    columns := tbl.columns ++ [(c, type)]
    rows := tbl.rows.map fun r => Function.update r (fold c) .null }

/-! ### Execution -/

/-- How many parameters SQLite takes: `SQLITE_MAX_VARIABLE_NUMBER`. -/
def maxVariables : ℕ := 999

namespace Stmt

/-- The parameters of a statement. -/
def params : Stmt → ℕ
  | .insert _ _ _ n => n
  | .update _ ss as => ss.length + (as.map Atom.params).sum
  | .delete _ as => (as.map Atom.params).sum
  | .select _ as => (as.map Atom.params).sum
  | _ => 0

def table : Stmt → String
  | .create t _ _ => t
  | .addColumn t _ _ => t
  | .insert _ t _ _ => t
  | .update t _ _ => t
  | .delete t _ => t
  | .select t _ => t

end Stmt

/-- Change the table called `t`. -/
def onTable (db : Db) (t : String) (f : Table → Option Table) : Option Db :=
  ((db (fold t)).bind f).map fun tbl => Function.update db (fold t) (some tbl)

/-- What SQLite asks of a `CREATE TABLE`: a free name, columns distinct ignoring case, and a
primary key of columns. -/
def Creatable (t : String) (ds : List (String × String)) (pk : List String) : Prop :=
  ¬ "sqlite_".toList <+: (fold t).toList ∧ (ds.map fun d => fold d.1).Nodup ∧
    ∀ p ∈ pk, fold p ∈ ds.map fun d => fold d.1

instance (t : String) (ds : List (String × String)) (pk : List String) :
    Decidable (Creatable t ds pk) := by unfold Creatable; infer_instance

/-- The effect of a statement that is no query. -/
def exec (db : Db) : Stmt → List Value → Option Db
  | .create t ds pk, _ =>
      if (db (fold t)).isSome then some db
      else if Creatable t ds pk then some (Function.update db (fold t) (some ⟨ds, pk, []⟩))
      else none
  | .addColumn t c type, _ => onTable db t (addColumn c type)
  | .insert replace t cs _, vs => onTable db t (insertRow conv replace cs vs)
  | .update t ss as, vs => onTable db t
      (updateRows conv ss (vs.take ss.length) (bind as (vs.drop ss.length)))
  | .delete t as, vs => onTable db t (deleteRows conv (bind as vs))
  | .select _ _, _ => none

/-- The rows of a query. -/
def select (db : Db) : Stmt → List Value → Option (List Row)
  | .select t as, vs => (db (fold t)).bind (selectRows conv (bind as vs))
  | _, _ => none

end

/-! ### Frames -/

variable {conv : Conversions} {db db' : Db}

theorem onTable_other {t : String} {f : Table → Option Table} (h : onTable db t f = some db')
    {n : String} (hn : n ≠ fold t) : db' n = db n := by
  unfold onTable at h
  obtain ⟨tbl, -, rfl⟩ := Option.map_eq_some_iff.mp h
  exact Function.update_of_ne hn _ _

theorem onTable_of_some {t : String} {f : Table → Option Table} {tbl tbl' : Table}
    (ht : db (fold t) = some tbl) (hf : f tbl = some tbl') :
    onTable db t f = some (Function.update db (fold t) (some tbl')) := by
  simp [onTable, ht, hf]

theorem onTable_of_none {t : String} {f : Table → Option Table} {tbl : Table}
    (ht : db (fold t) = some tbl) (hf : f tbl = none) : onTable db t f = none := by
  simp [onTable, ht, hf]

/-! ### What an update changes -/

/-- An update that ends has changed the rows it selects, each on its own. -/
theorem updateFrom_eq {tbl : Table} {P : Row → Bool} {f : Row → Row} {done todo rows : List Row}
    (h : updateFrom tbl P f done todo = some rows) :
    rows = done ++ todo.map fun r => if P r then f r else r := by
  induction todo generalizing done with
  | nil =>
      simp only [updateFrom, Option.some.injEq] at h
      simp [h]
  | cons r todo ih =>
      unfold updateFrom at h
      split at h
      · split at h
        · cases h
        · rw [ih h]
          simp [*]
      · rw [ih h]
        simp [*]

theorem updateRows_eq {tbl tbl' : Table} {ss : List String} {vs : List Value} {conds : List Bound}
    (h : updateRows conv ss vs conds tbl = some tbl') :
    tbl' = { tbl with
      rows := tbl.rows.map fun r =>
        if satisfies conv tbl conds r then assign conv tbl ss vs r else r } := by
  unfold updateRows at h
  split at h
  · obtain ⟨rows, hrows, rfl⟩ := Option.map_eq_some_iff.mp h
    rw [updateFrom_eq hrows]
    rfl
  · cases h

/-- Rows that clash as the rows they replace do are all updated. -/
theorem updateFrom_of_sameKey {tbl : Table} {P : Row → Bool} {f : Row → Row}
    (hf : ∀ r, P r = true → ∀ r', tbl.sameKey (f r) r' = tbl.sameKey r r') (done todo : List Row)
    (h : (done ++ todo).Pairwise fun r r' => tbl.sameKey r r' = false) :
    updateFrom tbl P f done todo = some (done ++ todo.map fun r => if P r then f r else r) := by
  induction todo generalizing done with
  | nil => simp [updateFrom]
  | cons r todo ih =>
      obtain ⟨-, h₂, h₃⟩ := List.pairwise_append.mp h
      have hrun : ∀ s, (∀ r', tbl.sameKey s r' = tbl.sameKey r r') →
          (done ++ [s] ++ todo).Pairwise fun r r' => tbl.sameKey r r' = false := by
        intro s hs
        have hs' : ∀ r', tbl.sameKey r' s = tbl.sameKey r' r := fun r' => by
          rw [tbl.sameKey_comm, hs, tbl.sameKey_comm]
        simp only [List.append_assoc, List.singleton_append, List.pairwise_append,
          List.pairwise_cons, List.mem_cons] at h ⊢
        refine ⟨h.1, ⟨fun x hx => (hs x).trans (h.2.1.1 x hx), h.2.1.2⟩, ?_⟩
        rintro x hx y (rfl | hy)
        · exact (hs' x).trans (h.2.2 x hx r (.inl rfl))
        · exact h.2.2 x hx y (.inr hy)
      by_cases hP : P r = true
      · have hkey := hf r hP
        have hfree : (done ++ todo).any (tbl.sameKey (f r)) = false := by
          rw [List.any_eq_false]
          intro x hx
          rw [hkey]
          rcases List.mem_append.mp hx with hx | hx
          · rw [tbl.sameKey_comm, h₃ x hx r List.mem_cons_self]; simp
          · rw [(List.pairwise_cons.mp h₂).1 x hx]; simp
        simp [updateFrom, hP, hfree, ih (done ++ [f r]) (hrun (f r) hkey)]
      · simp [updateFrom, hP, ih (done ++ [r]) (hrun r fun _ => rfl)]

/-- An assignment leaves the columns it does not name. -/
theorem assign_other {tbl : Table} {ss : List String} {vs : List Value} {c : String}
    (h : ∀ s ∈ ss, fold s ≠ c) (r : Row) : assign conv tbl ss vs r c = r c := by
  induction ss generalizing vs r with
  | nil => rfl
  | cons s ss ih =>
      cases vs with
      | nil => rfl
      | cons v vs =>
          simp only [assign, List.zip_cons_cons, List.foldl_cons] at ih ⊢
          rw [ih fun s hs => h s (List.mem_cons_of_mem _ hs),
            Function.update_of_ne (h s List.mem_cons_self).symm]

/-- A column that one assignment names gets its value. -/
theorem assign_mem {tbl : Table} {l : List (String × Value)} {c : String} {v : Value}
    (hmem : (c, v) ∈ l) (honly : ∀ e ∈ l, fold e.1 = fold c → e = (c, v)) (r : Row) :
    assign conv tbl (l.map (·.1)) (l.map (·.2)) r (fold c) = (tbl.affinity c).apply conv v := by
  have hzip : (l.map (·.1)).zip (l.map (·.2)) = l := by
    rw [List.zip_map']
    exact List.map_id _
  rw [assign, hzip]
  clear hzip
  induction l using List.reverseRecOn with
  | nil => cases hmem
  | append_singleton l e ih =>
      rw [List.foldl_append, List.foldl_cons, List.foldl_nil]
      by_cases hc : fold e.1 = fold c
      · -- the last assignment that names the column counts
        obtain rfl := honly e (by simp) hc
        rw [Function.update_self]
      · rw [Function.update_of_ne fun e' => hc e'.symm]
        refine ih ?_ fun x hx => honly x (List.mem_append_left _ hx)
        rcases List.mem_append.mp hmem with hmem | hmem
        · exact hmem
        · exact absurd (by rw [← List.mem_singleton.mp hmem]) hc

/-- An `UPDATE` that leaves the keys of the rows it selects changes these rows and no others. -/
theorem updateRows_of_sameKey {tbl : Table} {ss : List String} {vs : List Value}
    {conds : List Bound} (hu : tbl.Unique) (hs : ∀ s ∈ ss, tbl.has s = true)
    (hc : ∀ b ∈ conds, tbl.has b.1 = true)
    (hk : ∀ r, satisfies conv tbl conds r = true →
      ∀ r', tbl.sameKey (assign conv tbl ss vs r) r' = tbl.sameKey r r') :
    updateRows conv ss vs conds tbl = some { tbl with
      rows := tbl.rows.map fun r =>
        if satisfies conv tbl conds r then assign conv tbl ss vs r else r } := by
  rw [updateRows, if_pos ⟨List.all_eq_true.mpr hs, List.all_eq_true.mpr hc⟩,
    updateFrom_of_sameKey hk [] tbl.rows hu]
  rfl

/-- **An `UPDATE` that sets no key column** changes the rows it selects and no others. -/
theorem updateRows_of_keys {tbl : Table} {ss : List String} {vs : List Value}
    {conds : List Bound} (hu : tbl.Unique) (hs : ∀ s ∈ ss, tbl.has s = true)
    (hc : ∀ b ∈ conds, tbl.has b.1 = true)
    (hk : ∀ s ∈ ss, ∀ p ∈ tbl.primaryKey, fold s ≠ fold p) :
    updateRows conv ss vs conds tbl = some { tbl with
      rows := tbl.rows.map fun r =>
        if satisfies conv tbl conds r then assign conv tbl ss vs r else r } :=
  updateRows_of_sameKey hu hs hc fun r _ => Table.sameKey_congr fun c hc =>
    assign_other (fun s hs => hk s hs c hc) r

/-! ### Tables that grow -/

namespace Table

/-- A table with columns appended, which are NULL in its rows. -/
def grow (tbl : Table) (ds : List (String × String)) : Table where
  columns := tbl.columns ++ ds
  primaryKey := tbl.primaryKey
  rows := tbl.rows.map fun r c => if c ∈ ds.map (fun d => fold d.1) then .null else r c

theorem grow_nil (tbl : Table) : tbl.grow [] = tbl := by
  simp [grow]

theorem grow_grow (tbl : Table) (ds ds' : List (String × String)) :
    (tbl.grow ds).grow ds' = tbl.grow (ds ++ ds') := by
  simp only [grow, List.append_assoc, List.map_map, Table.mk.injEq, true_and]
  refine List.map_congr_left fun r _ => funext fun c => ?_
  simp only [Function.comp_apply, List.map_append, List.mem_append]
  by_cases hc : c ∈ ds'.map fun d => fold d.1
  · simp only [hc, or_true, if_true]
  · simp only [hc, or_false, if_false]

theorem has_iff {tbl : Table} {c : String} :
    tbl.has c = true ↔ fold c ∈ tbl.columns.map fun d => fold d.1 := by
  simp [has]

end Table

theorem addColumn_eq {tbl : Table} {c : String} (h : tbl.has c = false) (type : String) :
    addColumn c type tbl = some (tbl.grow [(c, type)]) := by
  have hrows : tbl.rows.map (fun r => Function.update r (fold c) .null) =
      (tbl.grow [(c, type)]).rows := by
    refine List.map_congr_left fun r _ => funext fun c' => ?_
    simp [Function.update_apply]
  rw [addColumn, if_neg (by simp [h]), hrows]
  rfl

end Sql
