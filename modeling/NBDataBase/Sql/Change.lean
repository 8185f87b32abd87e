import NBDataBase.Sql.Engine

/-!
# SQL — changes of a database

`DROP TABLE`, and what every change of a database keeps.

* `prepareDrop`, `dropTable`: a `DROP TABLE` and what it does.
* `Db.Sound`: every table has its columns once, keys that are columns, no two rows with one key,
  no value outside its columns, and in a column only what the affinity of the column stores.
* `Table.Extends`: the columns of a table are still there, in their places, and so is its key.
  `Table.Keeps`: besides, its rows are.  `Table.Grows`: besides, new rows stand behind the old ones.
* `Kind.Effect`: what a statement of a kind may do to its table.  `Kind.Does`: what it may do to a
  database.  `exec_does`, `dropTable_does`: the statements of the fragment do no more.
* `Does.sound`, `Does.extended`, `Does.keeps`, `Does.grows`: what the kinds keep.
-/

namespace Sql

/-! ### `DROP TABLE` -/

def parseDrop (ts : List Token) : Option String := do
  let ts ← keywords ["drop", "table"] ts
  match ← name ts with
  | (t, []) => return t
  | _ => none

/-- The table that a `DROP TABLE` names. -/
def prepareDrop (sql : String) : Option String := parseDrop (lex sql)

/-- A table that is not there cannot be dropped. -/
def dropTable (db : Db) (t : String) : Option Db :=
  if (db (fold t)).isSome then some (Function.update db (fold t) none) else none

theorem prepareDrop_table {t : String} (ht : Name t) : prepareDrop ("DROP TABLE " ++ t) =
    some t := by
  have hlex : lex ("DROP TABLE " ++ t) = [.word "DROP", .word "TABLE", .word t] := by
    rw [lex_closed (by decide), lex_word ht.word]
    rfl
  have hdrop : fold "DROP" = "drop" := by decide
  have htable : fold "TABLE" = "table" := by decide
  simp [prepareDrop, hlex, parseDrop, keywords, keyword, hdrop, htable, name_eq ht]

/-! ### Kinds -/

/-- The kinds of statements that change a database. -/
inductive Kind where
  | create | addColumn | insert (replace : Bool) | update | delete | drop
  deriving DecidableEq, Repr

def Stmt.kind : Stmt → Option Kind
  | create _ _ _ => some .create
  | addColumn _ _ _ => some .addColumn
  | insert replace _ _ _ => some (.insert replace)
  | update _ _ _ => some .update
  | delete _ _ => some .delete
  | select _ _ => none

variable {conv : Conversions} {db db' : Db} {tbl tbl' : Table}

/-! ### Values of an affinity -/

/-- A column of the affinity may hold the value: it stores no other one for it. -/
def Affinity.Holds (conv : Conversions) : Affinity → Value → Prop
  | .text, v => ∀ n, v ≠ .num n
  | .blob, _ => True
  | .real, v => (∀ n, v ≠ .num (.int n)) ∧ ∀ s, v = .text s → conv.ofText s = none
  | _, v => (∀ n, v = .num n → n.norm = n) ∧ ∀ s, v = .text s → conv.ofText s = none

theorem Affinity.holds_null (a : Affinity) : a.Holds conv .null := by
  cases a <;> simp [Holds]

theorem Number.norm_norm (n : Number) : n.norm.norm = n.norm := by
  rcases n with n | (q | b)
  · rfl
  · by_cases hq : q.den = 1 ∧ -2 ^ 63 < q.num ∧ q.num < 2 ^ 63 - 1
    · have hint : (Number.real (.finite q)).norm = .int (Int64.ofInt q.num) := if_pos hq
      rw [hint]
      rfl
    · have hsame : (Number.real (.finite q)).norm = .real (.finite q) := if_neg hq
      rw [hsame, hsame]
  · rfl

/-- What a numeric column stores. -/
theorem Affinity.applyNumeric_holds (v : Value) :
    Affinity.numeric.Holds conv (applyNumeric conv v) := by
  cases v with
  | num n =>
      refine ⟨fun k hk => ?_, fun s hs => (by cases hs)⟩
      cases hk
      exact n.norm_norm
  | text s =>
      cases hs : conv.ofText s with
      | none =>
          simp only [applyNumeric, hs]
          refine ⟨fun k hk => (by cases hk), fun s' hs' => ?_⟩
          cases hs'
          exact hs
      | some n =>
          simp only [applyNumeric, hs]
          refine ⟨fun k hk => ?_, fun s' hs' => (by cases hs')⟩
          cases hk
          exact n.norm_norm
  | null => exact Affinity.holds_null .numeric
  | blob b => exact ⟨fun k hk => (by cases hk), fun s hs => (by cases hs)⟩

/-- **A column holds** what it stores of a value. -/
theorem Affinity.apply_holds (a : Affinity) (v : Value) : a.Holds conv (a.apply conv v) := by
  cases a with
  | text => cases v <;> simp [Affinity.apply, Holds]
  | blob => trivial
  | numeric => exact applyNumeric_holds v
  | integer => exact applyNumeric_holds v
  | real =>
      obtain ⟨-, htext⟩ : Affinity.numeric.Holds conv (applyNumeric conv v) :=
        applyNumeric_holds v
      simp only [Affinity.apply, Holds]
      split
      · exact ⟨fun n hn => (by cases hn), fun s hs => (by cases hs)⟩
      · rename_i hint
        exact ⟨fun n hn => hint n hn, htext⟩

/-! ### Sound tables -/

/-- What SQLite owes a table. -/
structure Table.Sound (conv : Conversions) (tbl : Table) : Prop where
  distinct : (tbl.columns.map fun d => fold d.1).Nodup
  keyed : ∀ c ∈ tbl.primaryKey, tbl.has c = true
  unique : tbl.Unique
  absent : ∀ r ∈ tbl.rows, ∀ c, c ∉ tbl.columns.map (fun d => fold d.1) → r c = .null
  typed : ∀ r ∈ tbl.rows, ∀ d ∈ tbl.columns, (affinityOf d.2).Holds conv (r (fold d.1))

/-- Every table is sound. -/
def Db.Sound (conv : Conversions) (db : Db) : Prop := ∀ n tbl, db n = some tbl → tbl.Sound conv

namespace Table

/-- The affinity of a column, by any spelling of its name. -/
theorem affinity_of_mem (h : (tbl.columns.map fun d => fold d.1).Nodup) {d : String × String}
    (hd : d ∈ tbl.columns) {c : String} (hc : fold c = fold d.1) :
    tbl.affinity c = affinityOf d.2 := by
  have hfind : tbl.columns.find? (fun e => fold e.1 = fold c) = some d := by
    rw [hc]
    obtain ⟨y, hy⟩ := Option.isSome_iff_exists.mp
      (List.find?_isSome.mpr ⟨d, hd, by simp⟩ :
        (tbl.columns.find? fun e => decide (fold e.1 = fold d.1)).isSome)
    have hkey : fold y.1 = fold d.1 := by simpa using List.find?_some hy
    have hyd : y = d := List.inj_on_of_nodup_map h (List.mem_of_find?_eq_some hy) hd hkey
    rw [hy, hyd]
  simp only [affinity, hfind]

/-- A row that may stand in a table. -/
structure Fit (conv : Conversions) (tbl : Table) (r : Row) : Prop where
  absent : ∀ c, c ∉ tbl.columns.map (fun d => fold d.1) → r c = .null
  typed : ∀ d ∈ tbl.columns, (affinityOf d.2).Holds conv (r (fold d.1))

theorem Sound.fit (h : tbl.Sound conv) {r : Row} (hr : r ∈ tbl.rows) : tbl.Fit conv r :=
  ⟨h.absent r hr, h.typed r hr⟩

/-- Other rows that fit, no two of them with one key. -/
theorem Sound.withRows (h : tbl.Sound conv) {rows : List Row}
    (hunique : rows.Pairwise fun r r' => tbl.sameKey r r' = false)
    (hfit : ∀ r ∈ rows, tbl.Fit conv r) : ({ tbl with rows := rows } : Table).Sound conv where
  distinct := h.distinct
  keyed := h.keyed
  unique := hunique
  absent r hr := (hfit r hr).absent
  typed r hr := (hfit r hr).typed

end Table

/-- The row of an `INSERT` fits. -/
theorem newRow_fit (h : tbl.Sound conv) {cs : List String} (hcs : cs.all tbl.has = true)
    (vs : List Value) : tbl.Fit conv (newRow conv tbl cs vs) := by
  have hcell : ∀ c, newRow conv tbl cs vs c = .null ∨
      ∃ d ∈ tbl.columns, fold d.1 = c ∧ ∃ v, newRow conv tbl cs vs c =
        (affinityOf d.2).apply conv v := by
    intro c
    cases hfind : (cs.zip vs).find? fun p => fold p.1 = c with
    | none => exact .inl (by simp only [newRow, hfind])
    | some p =>
        have hp : p.1 ∈ cs := (List.of_mem_zip (List.mem_of_find?_eq_some hfind)).1
        obtain ⟨d, hd, hdp⟩ := List.any_eq_true.mp (List.all_eq_true.mp hcs p.1 hp)
        have hpc : fold p.1 = c := by simpa using List.find?_some hfind
        have hdp : fold d.1 = fold p.1 := of_decide_eq_true hdp
        refine .inr ⟨d, hd, hdp.trans hpc, p.2, ?_⟩
        simp only [newRow, hfind, Table.affinity_of_mem h.distinct hd hdp.symm]
  constructor
  · intro c hc
    rcases hcell c with hnull | ⟨d, hd, rfl, -⟩
    · exact hnull
    · exact absurd (List.mem_map_of_mem hd) hc
  · intro d hd
    rcases hcell (fold d.1) with hnull | ⟨e, he, hed, v, hv⟩
    · rw [hnull]
      exact Affinity.holds_null _
    · obtain rfl : e = d := List.inj_on_of_nodup_map h.distinct he hd hed
      rw [hv]
      exact Affinity.apply_holds _ v

/-- An assignment to columns keeps a row fit. -/
theorem assign_fit (h : tbl.Sound conv) {ss : List String} (hss : ss.all tbl.has = true)
    (vs : List Value) {r : Row} (hr : tbl.Fit conv r) : tbl.Fit conv (assign conv tbl ss vs r) := by
  induction ss generalizing vs r with
  | nil => exact hr
  | cons s ss ih =>
      cases vs with
      | nil => exact hr
      | cons v vs =>
          rw [List.all_cons, Bool.and_eq_true] at hss
          obtain ⟨d, hd, hds⟩ := List.any_eq_true.mp hss.1
          have hds : fold d.1 = fold s := of_decide_eq_true hds
          have haff := Table.affinity_of_mem h.distinct hd hds.symm
          refine ih hss.2 vs (r := Function.update r (fold s) ((tbl.affinity s).apply conv v))
            ⟨?_, ?_⟩
          · intro c hc
            by_cases hcs : c = fold s
            · exact absurd (hcs ▸ hds ▸ List.mem_map_of_mem hd) hc
            · rw [Function.update_of_ne hcs]
              exact hr.absent c hc
          · intro e he
            by_cases hes : fold e.1 = fold s
            · obtain rfl : e = d := List.inj_on_of_nodup_map h.distinct he hd (hes.trans hds.symm)
              rw [hes, Function.update_self, haff]
              exact Affinity.apply_holds _ v
            · rw [Function.update_of_ne hes]
              exact hr.typed e he

/-! ### The effects on one table -/

theorem insertRow_sound (h : tbl.Sound conv) {replace : Bool} {cs : List String} {vs : List Value}
    (hrun : insertRow conv replace cs vs tbl = some tbl') : tbl'.Sound conv := by
  obtain ⟨hcs, hrun⟩ := Option.ite_none_right_eq_some.mp hrun
  have hnew := newRow_fit h hcs vs
  have hfit : ∀ rows : List Row, (∀ r ∈ rows, r ∈ tbl.rows) →
      ∀ r ∈ rows ++ [newRow conv tbl cs vs], tbl.Fit conv r := by
    intro rows hrows r hr
    rcases List.mem_append.mp hr with hr | hr
    · exact h.fit (hrows r hr)
    · rw [List.mem_singleton.mp hr]
      exact hnew
  cases replace with
  | true =>
      obtain rfl := Option.some.inj hrun
      refine h.withRows (List.pairwise_append.mpr ⟨h.unique.filter _, List.pairwise_singleton _ _,
        ?_⟩) (hfit _ fun r hr => (List.mem_filter.mp hr).1)
      intro r hr r' hr'
      rw [List.mem_singleton.mp hr', tbl.sameKey_comm]
      simpa using (List.mem_filter.mp hr).2
  | false =>
      rw [if_neg (by simp)] at hrun
      split at hrun
      · obtain rfl := Option.some.inj hrun
        exact h
      · rename_i hfree
        obtain rfl := Option.some.inj hrun
        refine h.withRows (List.pairwise_append.mpr ⟨h.unique, List.pairwise_singleton _ _, ?_⟩)
          (hfit _ fun _ hr => hr)
        intro r hr r' hr'
        rw [List.mem_singleton.mp hr', tbl.sameKey_comm]
        by_contra hkey
        exact hfree (List.any_eq_true.mpr ⟨r, hr, by simpa using hkey⟩)

/-- Rows that are updated one after another without a clash have different keys. -/
theorem updateFrom_unique {P : Row → Bool} {f : Row → Row} {done todo rows : List Row}
    (h : (done ++ todo).Pairwise fun r r' => tbl.sameKey r r' = false)
    (hrun : updateFrom tbl P f done todo = some rows) :
    rows.Pairwise fun r r' => tbl.sameKey r r' = false := by
  induction todo generalizing done with
  | nil =>
      obtain rfl := Option.some.inj hrun
      simpa using h
  | cons r todo ih =>
      unfold updateFrom at hrun
      split at hrun
      · split at hrun
        · cases hrun
        · rename_i hfree
          refine ih ?_ hrun
          have hnew : ∀ x ∈ done ++ todo, tbl.sameKey (f r) x = false := by
            intro x hx
            by_contra hkey
            exact hfree (List.any_eq_true.mpr ⟨x, hx, by simpa using hkey⟩)
          -- the new row stands where the old one did
          have hrest : (done ++ todo).Pairwise fun r r' => tbl.sameKey r r' = false :=
            h.sublist (List.Sublist.append_left (List.sublist_cons_self r todo) done)
          rw [List.append_assoc, List.singleton_append]
          refine (List.pairwise_append.mpr ⟨(List.pairwise_append.mp hrest).1,
            List.pairwise_cons.mpr ⟨fun x hx => hnew x (List.mem_append_right _ hx),
              (List.pairwise_append.mp hrest).2.1⟩, ?_⟩)
          intro x hx y hy
          rcases List.mem_cons.mp hy with rfl | hy
          · rw [tbl.sameKey_comm]
            exact hnew x (List.mem_append_left _ hx)
          · exact (List.pairwise_append.mp hrest).2.2 x hx y hy
      · refine ih ?_ hrun
        rwa [List.append_assoc, List.singleton_append]

theorem updateRows_sound (h : tbl.Sound conv) {ss : List String} {vs : List Value}
    {conds : List Bound} (hrun : updateRows conv ss vs conds tbl = some tbl') :
    tbl'.Sound conv := by
  obtain ⟨⟨hss, -⟩, hrun⟩ := Option.ite_none_right_eq_some.mp hrun
  obtain ⟨rows, hrows, rfl⟩ := Option.map_eq_some_iff.mp hrun
  have hunique : ([] ++ tbl.rows).Pairwise fun r r' => tbl.sameKey r r' = false := h.unique
  refine h.withRows (updateFrom_unique hunique hrows) fun r hr => ?_
  rw [updateFrom_eq hrows, List.nil_append] at hr
  obtain ⟨s, hs, rfl⟩ := List.mem_map.mp hr
  split
  · exact assign_fit h hss vs (h.fit hs)
  · exact h.fit hs

theorem deleteRows_sound (h : tbl.Sound conv) {conds : List Bound}
    (hrun : deleteRows conv conds tbl = some tbl') : tbl'.Sound conv := by
  obtain ⟨-, hrun⟩ := Option.ite_none_right_eq_some.mp hrun
  obtain rfl := Option.some.inj hrun
  exact h.withRows (h.unique.filter _) fun r hr => h.fit (List.mem_filter.mp hr).1

theorem addColumn_sound (h : tbl.Sound conv) {c type : String}
    (hrun : addColumn c type tbl = some tbl') : tbl'.Sound conv := by
  unfold addColumn at hrun
  split at hrun
  · cases hrun
  · rename_i hno
    obtain rfl := Option.some.inj hrun
    have hnew : fold c ∉ tbl.columns.map fun d => fold d.1 := fun hc => hno (Table.has_iff.mpr hc)
    have hold : ∀ d ∈ tbl.columns, fold d.1 ≠ fold c := fun d hd hc =>
      hnew (hc ▸ List.mem_map_of_mem hd)
    refine ⟨?_, ?_, ?_, ?_, ?_⟩
    · rw [List.map_append, List.map_singleton, List.nodup_append]
      refine ⟨h.distinct, List.nodup_singleton _, ?_⟩
      rintro a ha b hb rfl
      exact hnew (List.mem_singleton.mp hb ▸ ha)
    · intro k hk
      exact List.any_eq_true.mpr (by
        obtain ⟨d, hd, hdk⟩ := List.any_eq_true.mp (h.keyed k hk)
        exact ⟨d, List.mem_append_left _ hd, hdk⟩)
    · -- the new column is none of the key
      have hkey : ∀ k ∈ tbl.primaryKey, fold k ≠ fold c := fun k hk hc => by
        obtain ⟨d, hd, hdk⟩ := List.any_eq_true.mp (h.keyed k hk)
        exact hold d hd ((of_decide_eq_true hdk).trans hc)
      refine List.pairwise_map.mpr (h.unique.imp fun {r r'} hrr' => ?_)
      have hsame : ∀ r r' : Row, tbl.sameKey (Function.update r (fold c) .null) r' =
          tbl.sameKey r r' := fun r r' =>
        Table.sameKey_congr (fun k hk => Function.update_of_ne (hkey k hk) _ _) r'
      have hcut : tbl.sameKey (Function.update r (fold c) .null)
          (Function.update r' (fold c) .null) = false := by
        rw [hsame, tbl.sameKey_comm, hsame, tbl.sameKey_comm]
        exact hrr'
      exact hcut
    · intro r hr k hk
      obtain ⟨s, hs, rfl⟩ := List.mem_map.mp hr
      rw [List.map_append, List.mem_append, not_or] at hk
      rw [Function.update_of_ne (by simpa using hk.2)]
      exact h.absent s hs k hk.1
    · intro r hr d hd
      obtain ⟨s, hs, rfl⟩ := List.mem_map.mp hr
      rcases List.mem_append.mp hd with hd | hd
      · rw [Function.update_of_ne (hold d hd)]
        exact h.typed s hs d hd
      · rw [List.mem_singleton.mp hd, Function.update_self]
        exact Affinity.holds_null _

/-! ### Sound databases -/

/-- Two databases that differ in one table. -/
theorem Db.Sound.update (h : Db.Sound conv db) {n : String} {o : Option Table}
    (ho : ∀ tbl, o = some tbl → tbl.Sound conv) : Db.Sound conv (Function.update db n o) := by
  intro k tbl htbl
  by_cases hk : k = n
  · rw [hk, Function.update_self] at htbl
    exact ho tbl htbl
  · rw [Function.update_of_ne hk] at htbl
    exact h k tbl htbl

/-! ### Tables that are extended -/

/-- The columns are still there, in their places, and the primary key is the same. -/
structure Table.Extends (tbl tbl' : Table) : Prop where
  columns : tbl.columns <+: tbl'.columns
  primaryKey : tbl'.primaryKey = tbl.primaryKey

/-- Besides, the rows are still there, in their places and with their values in these columns. -/
structure Table.Keeps (tbl tbl' : Table) : Prop extends tbl.Extends tbl' where
  rows : ∀ (i : ℕ) (r : Row), tbl.rows[i]? = some r → ∃ r' : Row, tbl'.rows[i]? = some r' ∧
    ∀ c ∈ tbl.columns.map (fun d => fold d.1), r' c = r c

/-- Besides, the rows are as they were, and others stand behind them. -/
structure Table.Grows (tbl tbl' : Table) : Prop extends tbl.Extends tbl' where
  rows : tbl.rows <+: tbl'.rows

/-- A sound table has grown, and is sound. -/
def Table.GrowsSound (conv : Conversions) (tbl tbl' : Table) : Prop :=
  tbl.Sound conv → tbl'.Sound conv ∧ tbl.Grows tbl'

/-- Every table is still there, in a relation to what it was. -/
def Db.Each (G : Table → Table → Prop) (db db' : Db) : Prop :=
  ∀ n tbl, db n = some tbl → ∃ tbl', db' n = some tbl' ∧ G tbl tbl'

theorem Table.Extends.refl (tbl : Table) : tbl.Extends tbl := ⟨List.prefix_rfl, rfl⟩

theorem Table.Extends.trans {tbl'' : Table} (h : tbl.Extends tbl') (h' : tbl'.Extends tbl'') :
    tbl.Extends tbl'' :=
  ⟨h.columns.trans h'.columns, h'.primaryKey.trans h.primaryKey⟩

theorem Table.Keeps.refl (tbl : Table) : tbl.Keeps tbl :=
  ⟨.refl tbl, fun _ r hr => ⟨r, hr, fun _ _ => rfl⟩⟩

theorem Table.Keeps.trans {tbl'' : Table} (h : tbl.Keeps tbl') (h' : tbl'.Keeps tbl'') :
    tbl.Keeps tbl'' := by
  refine ⟨h.toExtends.trans h'.toExtends, fun i r hr => ?_⟩
  obtain ⟨r', hr', hsame⟩ := h.rows i r hr
  obtain ⟨r'', hr'', hsame'⟩ := h'.rows i r' hr'
  refine ⟨r'', hr'', fun c hc => ?_⟩
  obtain ⟨d, hd, rfl⟩ := List.mem_map.mp hc
  rw [hsame' _ (List.mem_map_of_mem (h.columns.subset hd)), hsame _ hc]

theorem Table.GrowsSound.refl (tbl : Table) : tbl.GrowsSound conv tbl :=
  fun h => ⟨h, .refl tbl, List.prefix_rfl⟩

theorem Table.GrowsSound.trans {tbl'' : Table} (h : tbl.GrowsSound conv tbl')
    (h' : tbl'.GrowsSound conv tbl'') : tbl.GrowsSound conv tbl'' := by
  intro hsound
  obtain ⟨hsound', hgrows⟩ := h hsound
  obtain ⟨hsound'', hgrows'⟩ := h' hsound'
  exact ⟨hsound'', hgrows.toExtends.trans hgrows'.toExtends, hgrows.rows.trans hgrows'.rows⟩

theorem addColumn_keeps {c type : String} (hrun : addColumn c type tbl = some tbl') :
    tbl.Keeps tbl' := by
  unfold addColumn at hrun
  split at hrun
  · cases hrun
  · rename_i hno
    obtain rfl := Option.some.inj hrun
    refine ⟨⟨List.prefix_append _ _, rfl⟩, fun i r hr => ?_⟩
    refine ⟨Function.update r (fold c) .null, by rw [List.getElem?_map, hr]; rfl, fun k hk => ?_⟩
    refine Function.update_of_ne (fun hkc => hno (Table.has_iff.mpr ?_)) _ _
    rwa [← hkc]

/-- A new column is NULL in a row that has no value outside the old ones. -/
theorem addColumn_grows {c type : String} (hrun : addColumn c type tbl = some tbl') :
    tbl.GrowsSound conv tbl' := by
  intro h
  refine ⟨addColumn_sound h hrun, (addColumn_keeps hrun).toExtends, ?_⟩
  unfold addColumn at hrun
  split at hrun
  · cases hrun
  · rename_i hno
    obtain rfl := Option.some.inj hrun
    have hnull : ∀ r ∈ tbl.rows, Function.update r (fold c) .null = r := by
      intro r hr
      refine Function.update_eq_self_iff.mpr (h.absent r hr _ fun hc => hno ?_).symm
      exact Table.has_iff.mpr hc
    show tbl.rows <+: tbl.rows.map _
    rw [List.map_congr_left hnull, List.map_id']

/-! ### Kinds of changes -/

/-- The columns and the key stay, and the rows are as sound as they were. -/
structure Table.Rewrites (conv : Conversions) (tbl tbl' : Table) : Prop where
  columns : tbl'.columns = tbl.columns
  primaryKey : tbl'.primaryKey = tbl.primaryKey
  sound : tbl.Sound conv → tbl'.Sound conv

namespace Kind

/-- What a statement of the kind does to the rows. -/
def Touches : Kind → List Row → List Row → Prop
  | insert false, rows, rows' => rows <+: rows'
  | insert true, _, _ => True
  | update, rows, rows' => rows'.length = rows.length
  | delete, rows, rows' => rows'.Sublist rows
  | _, _, _ => False

/-- What a statement of the kind does to its table. -/
def Effect (conv : Conversions) : Kind → Table → Table → Prop
  | addColumn, tbl, tbl' => ∃ c type, Sql.addColumn c type tbl = some tbl'
  | k, tbl, tbl' => tbl.Rewrites conv tbl' ∧ k.Touches tbl.rows tbl'.rows

/-- No table is removed. -/
def KeepsTables (k : Kind) : Prop := k ≠ drop

/-- No row is removed. -/
def KeepsRows (k : Kind) : Prop := k ≠ drop ∧ k ≠ delete ∧ k ≠ insert true

/-- Tables, columns, and rows under keys that are new are added, and nothing else happens. -/
def Adds (k : Kind) : Prop := k = create ∨ k = addColumn ∨ k = insert false

instance (k : Kind) : Decidable k.KeepsTables := inferInstanceAs (Decidable (_ ≠ _))
instance (k : Kind) : Decidable k.KeepsRows := inferInstanceAs (Decidable (_ ∧ _ ∧ _))
instance (k : Kind) : Decidable k.Adds := inferInstanceAs (Decidable (_ ∨ _ ∨ _))

variable {k : Kind} {t : String}

theorem Effect.sound (h : k.Effect conv tbl tbl') (hsound : tbl.Sound conv) :
    tbl'.Sound conv := by
  cases k with
  | addColumn =>
      obtain ⟨c, type, hrun⟩ := h
      exact addColumn_sound hsound hrun
  | _ => exact h.1.sound hsound

theorem Effect.extended (h : k.Effect conv tbl tbl') : tbl.Extends tbl' := by
  cases k with
  | addColumn =>
      obtain ⟨c, type, hrun⟩ := h
      exact (addColumn_keeps hrun).toExtends
  | _ => exact ⟨h.1.columns ▸ List.prefix_rfl, h.1.primaryKey⟩

/-- What only adds keeps every row. -/
theorem Effect.keeps (hadds : k.Adds) (h : k.Effect conv tbl tbl') : tbl.Keeps tbl' := by
  have hextends := h.extended
  rcases hadds with rfl | rfl | rfl
  · exact h.2.elim
  · obtain ⟨c, type, hrun⟩ := h
    exact addColumn_keeps hrun
  · obtain ⟨rows, hrows⟩ := h.2
    refine ⟨hextends, fun i r hr => ⟨r, ?_, fun _ _ => rfl⟩⟩
    rw [← hrows, List.getElem?_append_left (List.getElem?_eq_some_iff.mp hr).1, hr]

/-- What only adds makes a sound table grow. -/
theorem Effect.grows (hadds : k.Adds) (h : k.Effect conv tbl tbl') :
    tbl.GrowsSound conv tbl' := by
  rcases hadds with rfl | rfl | rfl
  · exact h.2.elim
  · obtain ⟨c, type, hrun⟩ := h
    exact addColumn_grows hrun
  · exact fun hsound => ⟨h.sound hsound, h.extended, h.2⟩

theorem Effect.length (hkeeps : k.KeepsRows) (h : k.Effect conv tbl tbl') :
    tbl.rows.length ≤ tbl'.rows.length := by
  obtain ⟨hdrop, hdelete, hreplace⟩ := hkeeps
  cases k with
  | create => exact h.2.elim
  | addColumn =>
      obtain ⟨c, type, hrun⟩ := h
      unfold Sql.addColumn at hrun
      split at hrun
      · cases hrun
      · obtain rfl := Option.some.inj hrun
        exact (List.length_map _).ge
  | insert replace =>
      cases replace with
      | true => exact absurd rfl hreplace
      | false => exact h.2.length_le
  | update => exact h.2.ge
  | delete => exact absurd rfl hdelete
  | drop => exact absurd rfl hdrop

/-! ### Changes of a database -/

/-- A statement of the kind, to the table that it names, may lead from the database to another. -/
inductive Does (conv : Conversions) (t : String) (db : Db) : Kind → Db → Prop
  | there : Does conv t db .create db
  | create {tbl : Table} (hfree : db (fold t) = none) (hsound : tbl.Sound conv) :
      Does conv t db .create (Function.update db (fold t) (some tbl))
  | drop : Does conv t db .drop (Function.update db (fold t) none)
  | change {k : Kind} {tbl tbl' : Table} (htbl : db (fold t) = some tbl)
      (heffect : k.Effect conv tbl tbl') :
      Does conv t db k (Function.update db (fold t) (some tbl'))

namespace Does

/-- Nothing happens to another table. -/
theorem other (h : Does conv t db k db') {n : String} (hn : n ≠ fold t) : db' n = db n := by
  cases h with
  | there => rfl
  | create | drop | change => exact Function.update_of_ne hn _ _

/-- **A database stays sound.** -/
theorem sound (h : Does conv t db k db') (hdb : Db.Sound conv db) : Db.Sound conv db' := by
  cases h with
  | there => exact hdb
  | create _ hsound => exact hdb.update fun tbl htbl => Option.some.inj htbl ▸ hsound
  | drop => exact hdb.update fun tbl htbl => (by cases htbl)
  | change htbl heffect =>
      exact hdb.update fun tbl h => Option.some.inj h ▸ heffect.sound (hdb _ _ htbl)

/-- What is no `DROP TABLE` relates every table to what it was. -/
theorem each {G : Table → Table → Prop} (hG : ∀ tbl, G tbl tbl) (hkeeps : k.KeepsTables)
    (heffect : ∀ tbl tbl', k.Effect conv tbl tbl' → G tbl tbl') (h : Does conv t db k db') :
    Db.Each G db db' := by
  intro n tbl htbl
  by_cases hn : n = fold t
  · subst hn
    cases h with
    | there => exact ⟨tbl, htbl, hG tbl⟩
    | create hfree => rw [hfree] at htbl; cases htbl
    | drop => exact absurd rfl hkeeps
    | change hold h =>
        obtain rfl := Option.some.inj (hold.symm.trans htbl)
        exact ⟨_, Function.update_self .., heffect _ _ h⟩
  · exact ⟨tbl, (h.other hn).trans htbl, hG tbl⟩

/-- What is no `DROP TABLE` only extends tables. -/
theorem extended (hkeeps : k.KeepsTables) (h : Does conv t db k db') :
    Db.Each Table.Extends db db' :=
  h.each .refl hkeeps fun _ _ => Effect.extended

theorem keepsTables_of_adds (hadds : k.Adds) : k.KeepsTables := by
  rintro rfl
  exact absurd hadds (by decide)

/-- What only adds keeps every row. -/
theorem keeps (hadds : k.Adds) (h : Does conv t db k db') : Db.Each Table.Keeps db db' :=
  h.each .refl (keepsTables_of_adds hadds) fun _ _ => Effect.keeps hadds

/-- What only adds makes sound tables grow. -/
theorem grows (hadds : k.Adds) (h : Does conv t db k db') :
    Db.Each (Table.GrowsSound conv) db db' :=
  h.each .refl (keepsTables_of_adds hadds) fun _ _ => Effect.grows hadds

/-- What removes no row leaves at least as many. -/
theorem length (hkeeps : k.KeepsRows) (h : Does conv t db k db') :
    Db.Each (fun tbl tbl' => tbl.rows.length ≤ tbl'.rows.length) db db' :=
  h.each (fun _ => le_rfl) hkeeps.1 fun _ _ => Effect.length hkeeps

end Does

end Kind

/-- A statement of a kind that is allowed for the table it names is executed. -/
def Step (conv : Conversions) (P : Kind → String → Prop) (db db' : Db) : Prop :=
  ∃ k t, P k t ∧ k.Does conv t db db'

/-! ### The statements of the fragment -/

theorem insertRow_effect {replace : Bool} {cs : List String} {vs : List Value}
    (hrun : insertRow conv replace cs vs tbl = some tbl') :
    (Kind.insert replace).Effect conv tbl tbl' := by
  have hsound : tbl.Sound conv → tbl'.Sound conv := fun h => insertRow_sound h hrun
  obtain ⟨-, hrun⟩ := Option.ite_none_right_eq_some.mp hrun
  cases replace with
  | true =>
      obtain rfl := Option.some.inj hrun
      exact ⟨⟨rfl, rfl, hsound⟩, trivial⟩
  | false =>
      rw [if_neg (by simp)] at hrun
      split at hrun
      · obtain rfl := Option.some.inj hrun
        exact ⟨⟨rfl, rfl, hsound⟩, List.prefix_rfl⟩
      · obtain rfl := Option.some.inj hrun
        exact ⟨⟨rfl, rfl, hsound⟩, List.prefix_append _ _⟩

theorem updateRows_effect {ss : List String} {vs : List Value} {conds : List Bound}
    (hrun : updateRows conv ss vs conds tbl = some tbl') : Kind.update.Effect conv tbl tbl' := by
  have hsound : tbl.Sound conv → tbl'.Sound conv := fun h => updateRows_sound h hrun
  obtain rfl := updateRows_eq hrun
  exact ⟨⟨rfl, rfl, hsound⟩, List.length_map _⟩

theorem deleteRows_effect {conds : List Bound} (hrun : deleteRows conv conds tbl = some tbl') :
    Kind.delete.Effect conv tbl tbl' := by
  have hsound : tbl.Sound conv → tbl'.Sound conv := fun h => deleteRows_sound h hrun
  obtain ⟨-, hrun⟩ := Option.ite_none_right_eq_some.mp hrun
  obtain rfl := Option.some.inj hrun
  exact ⟨⟨rfl, rfl, hsound⟩, List.filter_sublist⟩

/-- A change of one table by its effect. -/
theorem onTable_does {k : Kind} {t : String} {f : Table → Option Table}
    (hf : ∀ tbl tbl', f tbl = some tbl' → k.Effect conv tbl tbl')
    (hrun : onTable db t f = some db') : k.Does conv t db db' := by
  obtain ⟨tbl', hbind, rfl⟩ := Option.map_eq_some_iff.mp hrun
  obtain ⟨tbl, htbl, hrun⟩ := Option.bind_eq_some_iff.mp hbind
  exact .change htbl (hf tbl tbl' hrun)

/-- **A statement of the fragment** does what its kind allows. -/
theorem exec_does {st : Stmt} {k : Kind} {vs : List Value} (hk : st.kind = some k)
    (hrun : exec conv db st vs = some db') : k.Does conv st.table db db' := by
  cases st with
  | create t ds pk =>
      obtain rfl := Option.some.inj hk
      simp only [exec] at hrun
      split at hrun
      · obtain rfl := Option.some.inj hrun
        exact .there
      · rename_i hnone
        obtain ⟨⟨-, hdistinct, hkeyed⟩, heq⟩ := Option.ite_none_right_eq_some.mp hrun
        obtain rfl := Option.some.inj heq
        exact .create (Option.not_isSome_iff_eq_none.mp hnone)
          ⟨hdistinct, fun k hk => Table.has_iff.mpr (hkeyed k hk), .nil,
            fun r hr => (by cases hr), fun r hr => (by cases hr)⟩
  | addColumn t c type =>
      obtain rfl := Option.some.inj hk
      exact onTable_does (fun _ _ h => ⟨c, type, h⟩) hrun
  | insert replace t cs n =>
      obtain rfl := Option.some.inj hk
      exact onTable_does (fun _ _ => insertRow_effect) hrun
  | update t ss as =>
      obtain rfl := Option.some.inj hk
      exact onTable_does (fun _ _ => updateRows_effect) hrun
  | delete t as =>
      obtain rfl := Option.some.inj hk
      exact onTable_does (fun _ _ => deleteRows_effect) hrun
  | select t as => cases hk

theorem dropTable_does {t : String} (hrun : dropTable db t = some db') :
    Kind.drop.Does conv t db db' := by
  obtain ⟨-, heq⟩ := Option.ite_none_right_eq_some.mp hrun
  obtain rfl := Option.some.inj heq
  exact .drop

end Sql
