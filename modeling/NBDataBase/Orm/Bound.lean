import NBDataBase.Orm.Texts

/-!
# Orm — which value a statement binds to which column

* `Assigns`: SQLite reads a statement in what a builder returned, and the statement gives the
  column the value.
* `assigns_insert`, `assigns_beginClass`: an insert of the whole model assigns its bindings.
* `assigns_columns`, `assigns_sets`: a list of columns is assigned the values themselves.
* `assigns_update`: an update of the whole model assigns its bindings, under every condition.
-/

namespace NBDataBase
open Sql

/-- The columns a statement gives values, in the order of its parameters. -/
def assigned : Stmt → List String
  | .insert _ _ cs _ => cs
  | .update _ ss _ => ss
  | _ => []

/-- A builder returned a statement that gives `column` the value `value`. -/
def Assigns (built : Except Fault (Option (String × List Obj))) (column : String) (value : Obj) :
    Prop :=
  ∃ sql values st, built = .ok (some (sql, values)) ∧ prepare sql = some st ∧
    (column, value) ∈ (assigned st).zip values

theorem not_assigns_none (c : String) (w : Obj) : ¬ Assigns (.ok none) c w := by
  rintro ⟨sql, values, st, h, -⟩
  cases h

theorem not_assigns_error (e : Fault) (c : String) (w : Obj) : ¬ Assigns (.error e) c w := by
  rintro ⟨sql, values, st, h, -⟩
  cases h

/-- More values than columns do not count. -/
theorem zip_fst_snd (l : List (String × Obj)) (values : List Obj) :
    (l.map (·.1)).zip (l.map (·.2) ++ values) = l := by
  induction l with
  | nil => rfl
  | cons e l ih => simp [ih]

variable {R : Runtime} {m : Model} {T c : String} {w : Obj}

/-! ### Inserts -/

/-- A statement of words that are not all names is rejected. -/
theorem prepare_insert_none (hT : Name T) (replace : Bool) {l : List (String × Obj)}
    (hw : ∀ e ∈ l, Word e.1) (h : ¬ ∀ e ∈ l, Name e.1) {sql : String} {values : List Obj}
    (hsql : insertText T replace (.of l) = some (sql, values)) : prepare sql = none := by
  have hl : l ≠ [] := by rintro rfl; exact h (by simp)
  have hwords : ∀ c ∈ l.map (·.1), Word c := fun c hc => by
    obtain ⟨e, he, rfl⟩ := List.mem_map.mp hc
    exact hw e he
  have hnames : ¬ ∀ c ∈ l.map (·.1), Name c := fun hn =>
    h fun e he => hn e.1 (List.mem_map.mpr ⟨e, he, rfl⟩)
  rw [InsertState.of_eq fun e he => (hw e he).1] at hsql
  unfold insertText at hsql
  split at hsql
  · cases hsql
  · obtain ⟨rfl, -⟩ := Prod.mk.inj (Option.some.inj hsql)
    rw [prepare, lex_insertText hT replace hwords]
    exact parse_insert_none hT replace (by cases replace <;> decide) hnames (by simp [Ends])

/-- Such a statement is refused. -/
theorem insertText_refused (hT : Name T) (replace : Bool) {l : List (String × Obj)}
    (hw : ∀ e ∈ l, Word e.1) (h : ¬ ∀ e ∈ l, Name e.1) {sql : String} {values : List Obj}
    (hsql : insertText T replace (.of l) = some (sql, values)) : Sql.Refused sql := by
  have hwords : ∀ c ∈ l.map (·.1), Word c := List.forall_mem_map.mpr hw
  have hnames : ¬ ∀ c ∈ l.map (·.1), Name c := fun hn => h (List.forall_mem_map.mp hn)
  rw [InsertState.of_eq fun e he => (hw e he).1] at hsql
  unfold insertText at hsql
  split at hsql
  · cases hsql
  · obtain ⟨rfl, -⟩ := Prod.mk.inj (Option.some.inj hsql)
    exact .insert hT replace ⟨hwords, hnames⟩ _

theorem assigns_insertText_iff (hT : Name T) (replace : Bool) {l : List (String × Obj)}
    (hw : ∀ e ∈ l, Word e.1) :
    Assigns (.ok (insertText T replace (.of l))) c w ↔ (∀ e ∈ l, Name e.1) ∧ (c, w) ∈ l := by
  constructor
  · rintro ⟨sql, values, st, hsql, hst, hmem⟩
    have hsql := Except.ok.inj hsql
    have hn : ∀ e ∈ l, Name e.1 := by
      by_contra h
      rw [prepare_insert_none hT replace hw h hsql] at hst
      cases hst
    by_cases hl : l = []
    · subst hl; cases hsql
    · obtain ⟨sql', hsql', hst'⟩ := prepare_insert hT replace hl hn
      rw [hsql'] at hsql
      obtain ⟨rfl, rfl⟩ := Prod.mk.inj (Option.some.inj hsql)
      rw [hst'] at hst
      obtain rfl := Option.some.inj hst
      rw [assigned, ← List.append_nil (l.map (·.2)), zip_fst_snd] at hmem
      exact ⟨hn, hmem⟩
  · rintro ⟨hn, hmem⟩
    obtain ⟨sql, hsql, hst⟩ := prepare_insert hT replace (List.ne_nil_of_mem hmem) hn
    refine ⟨sql, _, _, congrArg _ hsql, hst, ?_⟩
    rw [assigned, ← List.append_nil (l.map (·.2)), zip_fst_snd]
    exact hmem

theorem insertBindings_word {ps : List Property} (h : AllBacked m.cls.chain ps) :
    ∀ e ∈ insertBindings R m ps, Word e.1 := by
  intro e he
  obtain ⟨p, hp, hb⟩ := List.mem_filterMap.mp he
  unfold insertBinding at hb
  split at hb
  · obtain ⟨v, -, rfl⟩ := Option.map_eq_some_iff.mp hb
    exact (h p hp ‹_›).word
  · cases hb

theorem updateBindings_word {ps : List Property} (h : AllBacked m.cls.chain ps) :
    ∀ e ∈ updateBindings m ps, Word e.1 := by
  intro e he
  obtain ⟨p, hp, hb⟩ := List.mem_filterMap.mp he
  unfold updateBinding at hb
  split at hb
  · obtain ⟨v, -, rfl⟩ := Option.map_eq_some_iff.mp hb
    exact (h p hp (‹_ ∧ _›).1).word
  · cases hb

/-- What an insert of a walk over `ps` assigns. -/
theorem assigns_walk_iff (hT : Name T) (replace : Bool) {ps : List Property} :
    Assigns (do
      let s ← ps.foldlM (insertStep R m) {}
      return insertText T replace s) c w ↔
    AllBacked m.cls.chain ps ∧ (∀ e ∈ insertBindings R m ps, Name e.1) ∧
      (c, w) ∈ insertBindings R m ps := by
  by_cases hb : AllBacked m.cls.chain ps
  · rw [insertLoop_run hb]
    exact (assigns_insertText_iff hT replace (insertBindings_word hb)).trans
      (and_iff_right hb).symm
  · rw [insertLoop_error hb]
    exact iff_of_false (not_assigns_error _ _ _) fun h => hb h.1

/-- **An insert of the whole model** assigns its bindings. -/
theorem assigns_insert_iff {tableName : Option String}
    (hT : tableName.or m.cls.getTableName = some T) (hN : Name T) (replace : Bool) :
    Assigns (createInsertSQLWithColumns R m tableName none replace) c w ↔
      AllBacked m.cls.chain (properties m.cls.chain) ∧
      (∀ e ∈ insertBindings R m (properties m.cls.chain), Name e.1) ∧
      (c, w) ∈ insertBindings R m (properties m.cls.chain) := by
  unfold createInsertSQLWithColumns
  simp only [hT]
  exact assigns_walk_iff hN replace

theorem assigns_beginClass_iff {B : ModelClass} (hT : B.getTableName = some T) (hN : Name T)
    (replace : Bool) :
    Assigns (createInsertSQLWithModelAndBeginClass R m B replace) c w ↔
      AllBacked m.cls.chain (properties B.chain) ∧
      (∀ e ∈ insertBindings R m (properties B.chain), Name e.1) ∧
      (c, w) ∈ insertBindings R m (properties B.chain) := by
  unfold createInsertSQLWithModelAndBeginClass
  simp only [hT]
  exact assigns_walk_iff hN replace

/-! ### Lists of columns -/

/-- What a list of columns binds. -/
def columnBindings (m : Model) (cs : List String) : List (String × Obj) :=
  cs.filterMap fun c => (m.value c).map fun v => (c, v)

theorem mem_columnBindings {cs : List String} :
    (c, w) ∈ columnBindings m cs ↔ c ∈ cs ∧ m.value c = some w := by
  simp only [columnBindings, List.mem_filterMap, Option.map_eq_some_iff, Prod.mk.injEq]
  constructor
  · rintro ⟨c', hc', v, hv, rfl, rfl⟩
    exact ⟨hc', hv⟩
  · rintro ⟨hc, hv⟩
    exact ⟨c, hc, w, hv, rfl, rfl⟩

theorem insertColumnStep_eq {s s' : InsertState} (h : insertColumnStep m s c = .ok s') :
    s' = ((m.value c).map fun v => (c, v)).elim s fun e => s.append e.1 e.2 := by
  unfold insertColumnStep Model.valueForKey at h
  unfold Model.value
  cases hv : m.valueForKey? c with
  | none => rw [hv] at h; cases h
  | some v =>
      rw [hv] at h
      cases v <;> (cases h; rfl)

/-- What explicit columns assign, when they are names. -/
theorem assigns_columns {tableName : Option String}
    (hT : tableName.or m.cls.getTableName = some T) (hN : Name T) {columns : Columns}
    {cs : List String} (hcs : columnsArray R columns = .ok cs) (hn : ∀ c ∈ cs, Name c)
    (replace : Bool)
    (h : Assigns (createInsertSQLWithColumns R m tableName (some columns) replace) c w) :
    (c, w) ∈ columnBindings m cs := by
  unfold createInsertSQLWithColumns at h
  simp only [hT, hcs] at h
  change Assigns (cs.foldlM (insertColumnStep m) {} >>= fun s =>
    pure (insertText T replace s)) c w at h
  cases hrun : cs.foldlM (insertColumnStep m) {} with
  | error e => rw [hrun] at h; exact absurd h (not_assigns_error e c w)
  | ok s =>
      have hs : s = .of (columnBindings m cs) := by
        rw [Loop.foldl_of_ok (fun s c _ s' => insertColumnStep_eq) hrun]
        exact Loop.foldl_filterMap (fun c => (m.value c).map fun v => (c, v))
          (fun (s : InsertState) e => s.append e.1 e.2) cs {}
      rw [hrun, hs] at h
      refine ((assigns_insertText_iff hN replace fun e he => ?_).mp h).2
      exact (hn e.1 (mem_columnBindings.mp he).1).word

/-- One column with a value is assigned it. -/
theorem assigns_column (hN : Name T) (hc : Name c) (hv : m.valueForKey? c = some (some w))
    (replace : Bool) :
    Assigns (createInsertSQLWithColumns R m (some T) (some (.array [c])) replace) c w := by
  rw [createInsertSQLWithColumns_single hv, assigns_insertText_iff hN replace
    (by simpa using hc.word)]
  simpa using hc

/-! ### Updates -/

/-- The branch by primary key adds the clause of the keys or nothing. -/
theorem byPrimaryKey_shape {sql : String} {usePrimaryKey : Bool} {model : Option Model}
    {r : Extracted} (h : extractWhereSql.byPrimaryKey R sql usePrimaryKey model = .ok r) :
    ∃ x, r.sql = sql ++ x ∧ (x = "" ∨ ∃ y, x = " where " ++ y) := by
  have hsame : r.sql = sql → ∃ x, r.sql = sql ++ x ∧ (x = "" ∨ ∃ y, x = " where " ++ y) :=
    fun e => ⟨"", by rw [e, String.append_empty], .inl rfl⟩
  cases usePrimaryKey with
  | false => cases h; exact hsame rfl
  | true =>
      cases model with
      | none =>
          simp only [extractWhereSql.byPrimaryKey, if_true, assertNo] at h
          cases hR : R.asserts <;> rw [hR] at h <;> cases h
          exact hsame rfl
      | some m =>
          by_cases hK : KeysBacked m.cls.chain
          · by_cases hk : keyBindings m = []
            · simp only [extractWhereSql.byPrimaryKey, if_true, wherePrimaryKeySQL_nil hK hk,
                assertNo] at h
              cases hR : R.asserts <;> simp only [hR] at h <;> cases h
              exact hsame rfl
            · have hrun : extractWhereSql.byPrimaryKey R sql true (some m) = _ :=
                extractWhereSql_run sql hK hk
              rw [hrun] at h
              cases h
              exact ⟨_, rfl, keyText_where _⟩
          · simp only [extractWhereSql.byPrimaryKey, if_true, wherePrimaryKeySQL_error hK] at h
            cases h

/-- `extractWhereSql` adds a clause or nothing. -/
theorem extractWhereSql_shape {sql : String} {condition : Option Where} {usePrimaryKey : Bool}
    {model : Option Model} {r : Extracted}
    (h : extractWhereSql R sql condition usePrimaryKey model = .ok r) :
    ∃ x, r.sql = sql ++ x ∧ (x = "" ∨ ∃ y, x = " where " ++ y) := by
  unfold extractWhereSql at h
  split at h
  · split at h
    · cases h
      exact ⟨_, rfl, .inr ⟨_, rfl⟩⟩
    · cases hR : R.asserts <;> simp only [assertNo, hR] at h <;> cases h
      exact ⟨"", by rw [String.append_empty], .inl rfl⟩
  · split at h
    · exact byPrimaryKey_shape h
    · cases h
      exact ⟨_, rfl, .inr ⟨_, rfl⟩⟩
  · exact byPrimaryKey_shape h

/-- What the text of an update assigns: the columns it sets, from the left. -/
theorem assigns_updateText (hT : Name T) {l : List (String × Obj)} (hw : ∀ e ∈ l, Word e.1)
    {x : String} (hx : x = "" ∨ ∃ y, x = " where " ++ y) (values : List Obj)
    (h : Assigns (.ok (some (updateText T (setText (l.map (·.1))) ++ x, l.map (·.2) ++ values)))
      c w) : (∀ e ∈ l, Name e.1) ∧ (c, w) ∈ l := by
  obtain ⟨sql, vs, st, hsql, hst, hmem⟩ := h
  obtain ⟨rfl, rfl⟩ := Prod.mk.inj (Option.some.inj (Except.ok.inj hsql))
  have hwords : ∀ s ∈ l.map (·.1), Word s := fun s hs => by
    obtain ⟨e, he, rfl⟩ := List.mem_map.mp hs
    exact hw e he
  obtain ⟨-, hn, as, rfl⟩ := prepare_update_inv hT hwords hx hst
  refine ⟨fun e he => hn e.1 (List.mem_map.mpr ⟨e, he, rfl⟩), ?_⟩
  rwa [assigned, zip_fst_snd] at hmem

/-- What an update whose `SET` list is built assigns. -/
theorem assigns_updateWith (hT : Name T) {sets : Option Sets} {condition : Option Where}
    {l : List (String × Obj)} (hw : ∀ e ∈ l, Word e.1)
    (hset : setList m sets = .ok (setText (l.map (·.1)), l.map (·.2)))
    (h : Assigns (createUpdateSQLWithModelAndTableName R m (some T) sets condition) c w) :
    (∀ e ∈ l, Name e.1) ∧ (c, w) ∈ l := by
  unfold createUpdateSQLWithModelAndTableName at h
  rw [hset] at h
  change Assigns (extractWhereSql R (updateText T (setText (l.map (·.1)))) condition true (some m)
    >>= fun result => if result.error then pure none
      else pure (some (result.sql, l.map (·.2) ++ result.values))) c w at h
  cases hx : extractWhereSql R (updateText T (setText (l.map (·.1)))) condition true (some m) with
  | error e => rw [hx] at h; exact absurd h (not_assigns_error e c w)
  | ok r =>
      obtain ⟨x, hsql, hshape⟩ := extractWhereSql_shape hx
      rw [hx] at h
      change Assigns (if r.error then pure none
        else pure (some (r.sql, l.map (·.2) ++ r.values))) c w at h
      split at h
      · exact absurd h (not_assigns_none c w)
      · rw [hsql] at h
        exact assigns_updateText hT hw hshape r.values h

/-- **An update of the whole model** assigns its bindings. -/
theorem assigns_update (hT : Name T) {condition : Option Where}
    (h : Assigns (createUpdateSQLWithModelAndTableName R m (some T) none condition) c w) :
    AllBacked m.cls.chain (properties m.cls.chain) ∧
      (∀ e ∈ updateBindings m (properties m.cls.chain), Name e.1) ∧
      (c, w) ∈ updateBindings m (properties m.cls.chain) := by
  by_cases hb : AllBacked m.cls.chain (properties m.cls.chain)
  · have hset : setList m none = _ := updateLoop_run hb
    exact ⟨hb, assigns_updateWith hT (updateBindings_word hb) hset h⟩
  · rw [createUpdateSQL_error hb] at h
    exact absurd h (not_assigns_error _ _ _)

/-- The columns a `sets` argument names. -/
def Sets.names : Sets → Option (List String)
  | .array columns => some columns
  | .string s =>
      if (componentsSeparatedByComma s).length > 1 then some (componentsSeparatedByComma s)
      else if hasSubstring s "=" then none
      else some [s]
  | _ => none

theorem updateSets_names {sets : Sets} {cs : List String} (h : sets.names = some cs) :
    updateSets m sets = cs.foldlM (updateColumnStep m) ("", []) := by
  cases sets with
  | array columns => cases h; rfl
  | string s =>
      simp only [Sets.names] at h
      simp only [updateSets]
      split at h
      · cases h; rw [if_pos ‹_›]
      · split at h
        · cases h
        · cases h
          rw [if_neg ‹_›, if_neg ‹_›, List.foldlM_cons]
          cases updateColumnStep m ("", []) s <;> rfl
  | dictionary => cases h
  | other => cases h

theorem updateColumnStep_eq {s s' : UpdateState} (h : updateColumnStep m s c = .ok s') :
    s' = ((m.value c).map fun v => (c, v)).elim s fun e => s.append e.1 e.2 := by
  unfold updateColumnStep Model.valueForKey at h
  unfold Model.value
  cases hv : m.valueForKey? c with
  | none => rw [hv] at h; cases h
  | some v =>
      rw [hv] at h
      cases v <;> cases h
      rfl

/-- The `SET` list of named columns, when every value is there. -/
theorem setList_columns {sets : Sets} {cs : List String} {s : UpdateState}
    (hcs : sets.names = some cs) (h : setList m (some sets) = .ok s) :
    s = (setText ((columnBindings m cs).map (·.1)), (columnBindings m cs).map (·.2)) := by
  rw [setList, updateSets_names hcs] at h
  rw [Loop.foldl_of_ok (fun s c _ s' => updateColumnStep_eq) h, ← foldl_updateAppend]
  exact Loop.foldl_filterMap (fun c => (m.value c).map fun v => (c, v))
    (fun (s : UpdateState) e => s.append e.1 e.2) cs ("", [])

/-- **An update of named columns** assigns the values themselves. -/
theorem assigns_sets (hT : Name T) {sets : Sets} {condition : Option Where} {cs : List String}
    (hcs : sets.names = some cs) (hn : ∀ c ∈ cs, Name c)
    (h : Assigns (createUpdateSQLWithModelAndTableName R m (some T) (some sets) condition) c w) :
    (c, w) ∈ columnBindings m cs := by
  cases hrun : setList m (some sets) with
  | error e =>
      have hnone : createUpdateSQLWithModelAndTableName R m (some T) (some sets) condition =
          .error e := by
        unfold createUpdateSQLWithModelAndTableName
        rw [hrun]
        rfl
      rw [hnone] at h
      exact absurd h (not_assigns_error _ _ _)
  | ok s =>
      rw [setList_columns hcs hrun] at hrun
      refine (assigns_updateWith hT (fun e he => ?_) hrun h).2
      exact (hn e.1 (mem_columnBindings.mp he).1).word

end NBDataBase
