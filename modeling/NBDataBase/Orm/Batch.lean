import NBDataBase.Orm.Encoding

/-!
# Orm — batches

Whether an upsert of an array is the upserts of its models, one after another.

* `ActsOn`: an action that reads and writes the rows of one table.
* `createTableIfNotExists_eq`: what the creation of a table does, and that it does it once.
* `upsertStep_same`: a step on a table is the step on any name of the table.
* `BatchIsSingles`: an array of two or more models of a class leaves the database as its models
  do alone, and touches the table called `tableName` only.
* `batchIsSingles_iff`: this is so exactly when `tableName` is the table of the class, or the
  select of a model raises.  The statements of a longer array are those of the class's table.
-/

namespace NBDataBase
open Sql (fold Name Db Table Row Stmt Form Opened lex prepare)

variable {R : Runtime} {T U : String} {m : Model} {cls : ModelClass} {db db' : Db} {α β : Type}

/-! ### Actions on one table -/

/-- The action reads and writes the rows of the table `n`, and nothing else. -/
structure ActsOn (n : String) (x : Action α) : Prop where
  other : ∀ db k, k ≠ n → (x db).2 k = db k
  same : ∀ db db', db' n = db n → (x db').1 = (x db).1 ∧ (x db').2 n = (x db).2 n
  exists_eq : ∀ db, ((x db).2 n).isSome = (db n).isSome

namespace ActsOn

variable {n : String} {x : Action α} {f : α → Action β}

theorem pure (n : String) (a : α) : ActsOn n (pure a : Action α) where
  other _ _ _ := rfl
  same _ _ h := ⟨rfl, h⟩
  exists_eq _ := rfl

theorem build (n : String) (x : Except Fault α) : ActsOn n (Action.build x) where
  other _ _ _ := rfl
  same _ _ h := ⟨rfl, h⟩
  exists_eq _ := rfl

theorem bind (hx : ActsOn n x) (hf : ∀ a, ActsOn n (f a)) : ActsOn n (x >>= f) where
  other db k hk := by
    have hfirst := hx.other db k hk
    rw [Action.bind_run]
    cases hrun : x db with
    | mk r db₁ =>
        rw [hrun] at hfirst
        cases r with
        | error e => exact hfirst
        | ok a => exact ((hf a).other db₁ k hk).trans hfirst
  same db db' h := by
    have hfirst := hx.same db db' h
    rw [Action.bind_run, Action.bind_run]
    cases hrun : x db with
    | mk r db₁ =>
        cases hrun' : x db' with
        | mk r' db₁' =>
            rw [hrun, hrun'] at hfirst
            obtain ⟨rfl, hn⟩ := hfirst
            cases r' with
            | error e => exact ⟨rfl, hn⟩
            | ok a => exact (hf a).same db₁ db₁' hn
  exists_eq db := by
    have hfirst := hx.exists_eq db
    rw [Action.bind_run]
    cases hrun : x db with
    | mk r db₁ =>
        rw [hrun] at hfirst
        cases r with
        | error e => exact hfirst
        | ok a => exact ((hf a).exists_eq db₁).trans hfirst

theorem each {f : α → Action Unit} {xs : List α} (h : ∀ a ∈ xs, ActsOn n (f a)) :
    ActsOn n (Action.each f xs) := by
  induction xs with
  | nil => exact .pure n ()
  | cons a xs ih =>
      exact .bind (h a List.mem_cons_self) fun _ => ih fun b hb => h b (List.mem_cons_of_mem _ hb)

/-- Which tables there are does not change. -/
theorem isSome_eq (hx : ActsOn n x) (db : Db) (k : String) :
    ((x db).2 k).isSome = (db k).isSome := by
  by_cases hk : k = n
  · rw [hk, hx.exists_eq]
  · rw [hx.other db k hk]

end ActsOn

/-! ### Steps on one table -/

/-- Change a table by a function of it. -/
def changeTable (T : String) (f : Table → Option Table) : Action Bool := fun db =>
  (Sql.onTable db T f).elim (.ok false, db) fun db' => (.ok true, db')

/-- Read rows of a table. -/
def readTable (T : String) (g : Table → Option (List Row)) : Action (List Row) := fun db =>
  (.ok (((db (fold T)).bind g).getD []), db)

/-- Change a table as a builder says, if it says anything. -/
def changeBuilt (T : String) (built : Except Fault (Option (Table → Option Table))) :
    Action Bool := do
  match ← Action.build built with
  | some f => changeTable T f
  | none => return false

/-- The step of an upsert: what it reads decides between two changes. -/
def tableStep (T : String) (select : Except Fault (Table → Option (List Row)))
    (update insert : Except Fault (Option (Table → Option Table))) : Action Unit := do
  let g ← Action.build select
  let rs ← readTable T g
  if !rs.isEmpty then ignore (changeBuilt T update) else ignore (changeBuilt T insert)

theorem changeTable_actsOn (T : String) (f : Table → Option Table) :
    ActsOn (fold T) (changeTable T f) where
  other db k hk := by
    cases hrun : Sql.onTable db T f with
    | none => simp [changeTable, hrun]
    | some db' => simpa [changeTable, hrun] using Sql.onTable_other hrun hk
  same db db' h := by
    simp only [changeTable, Sql.onTable, h]
    cases (db (fold T)).bind f with
    | none => exact ⟨rfl, h⟩
    | some tbl => simp
  exists_eq db := by
    simp only [changeTable, Sql.onTable]
    cases hf : (db (fold T)).bind f with
    | none => rfl
    | some tbl =>
        obtain ⟨tbl', htbl', -⟩ := Option.bind_eq_some_iff.mp hf
        simp [htbl']

theorem changeBuilt_actsOn (T : String) (built : Except Fault (Option (Table → Option Table))) :
    ActsOn (fold T) (changeBuilt T built) := by
  refine .bind (.build _ _) fun o => ?_
  cases o with
  | none => exact .pure _ _
  | some f => exact changeTable_actsOn T f

theorem tableStep_actsOn (T : String) (select : Except Fault (Table → Option (List Row)))
    (update insert : Except Fault (Option (Table → Option Table))) :
    ActsOn (fold T) (tableStep T select update insert) := by
  have hread : ∀ g, ActsOn (fold T) (readTable T g) := fun g =>
    { other := fun _ _ _ => rfl
      same := fun db db' h => by simp [readTable, h]
      exists_eq := fun _ => rfl }
  have hignore : ∀ built, ActsOn (fold T) (ignore (changeBuilt T built)) := fun built =>
    .bind (changeBuilt_actsOn T built) fun _ => .pure _ _
  refine .bind (.build _ _) fun g => .bind (hread g) fun rs => ?_
  split
  · exact hignore update
  · exact hignore insert

/-- A step is the same under every name of its table. -/
theorem tableStep_same (h : fold T = fold U) (select : Except Fault (Table → Option (List Row)))
    (update insert : Except Fault (Option (Table → Option Table))) :
    tableStep T select update insert = tableStep U select update insert := by
  have hread : readTable T = readTable U := by
    funext g db
    rw [readTable, readTable, h]
  have hchange : changeTable T = changeTable U := by
    funext f db
    rw [changeTable, changeTable, Sql.onTable, Sql.onTable, h]
  simp only [tableStep, changeBuilt, hread, hchange]

/-! ### The statements of a step -/

/-- The builder puts one statement around the name of the table. -/
def Splices (form : Form) (build : String → Except Fault (Option (String × List Obj))) : Prop :=
  ∃ o : Except Fault (Option (String × List Obj)),
    ∀ T, build T = o.map (Option.map fun e => (form.text T e.1, e.2))

/-- A statement that changes its table by a function of the table. -/
theorem executeUpdate_changeTable {sql : String} {st : Stmt} {args : List Obj}
    {f : Table → Option Table} (hst : prepare sql = some st)
    (hexec : ∀ db, Sql.exec R.conv db st (args.map (bindObject R)) = Sql.onTable db T f) :
    executeUpdate R sql args =
      changeTable T (if args.length < st.params then fun _ => none else f) := by
  funext db
  simp only [executeUpdate, hst]
  split
  · cases hdb : db (fold T) <;> simp [changeTable, Sql.onTable, hdb]
  · rw [hexec, changeTable]
    cases Sql.onTable db T f <;> rfl

/-- So does a text outside the fragment, under every name of the table. -/
theorem unread_changeTable (R : Runtime) (form : Form) (post n : String) (args : List Obj) :
    ∃ f, ∀ T, Name T → fold T = n → prepare (form.text T post) = none →
      executeUpdate R (form.text T post) args = changeTable T f := by
  obtain ⟨f, -, hf⟩ := R.sqlite.acts form post n
  refine ⟨f (args.map (bindObject R)), fun T hT hn hst => funext fun db => ?_⟩
  rw [executeUpdate_unread hst, hf T hT hn, changeTable]

/-- The change that a spliced statement makes is the same under every name of the table. -/
theorem Splices.changes {form : Form}
    {build : String → Except Fault (Option (String × List Obj))} (h : Splices form build)
    (n : String) (hchange : ∀ post args, ∃ f, ∀ T, Name T → fold T = n →
      executeUpdate R (form.text T post) args = changeTable T f) :
    ∃ built, ∀ T, Name T → fold T = n → executeBuilt R (build T) = changeBuilt T built := by
  obtain ⟨o, hbuild⟩ := h
  rcases o with e | (_ | ⟨post, values⟩)
  · refine ⟨.error e, fun T _ _ => ?_⟩
    rw [hbuild]
    rfl
  · refine ⟨.ok none, fun T _ _ => ?_⟩
    rw [hbuild]
    rfl
  · obtain ⟨f, hf⟩ := hchange post values
    refine ⟨.ok (some f), fun T hT hn => ?_⟩
    rw [hbuild]
    funext db
    exact congrFun (hf T hT hn) db

theorem insert_change (R : Runtime) (n post : String) (args : List Obj) :
    ∃ f, ∀ T, Name T → fold T = n →
      executeUpdate R ((Form.insert false).text T post) args = changeTable T f := by
  have hopened : Opened (" (" ++ post) := Opened.append (by decide) (by decide) _
  have hst : ∀ T, Name T → prepare ((Form.insert false).text T post) = _ := fun T hT =>
    prepare_insert_eq hT hopened
  cases hbody : Sql.insertBody (lex (" (" ++ post)) with
  | none =>
      obtain ⟨f, hf⟩ := unread_changeTable R (.insert false) post n args
      refine ⟨f, fun T hT hn => hf T hT hn ?_⟩
      rw [hst T hT, hbody]
      rfl
  | some r =>
      refine ⟨if args.length < r.2 then fun _ => none
        else Sql.insertRow R.conv false r.1 (args.map (bindObject R)), fun T hT _ => ?_⟩
      have hread : prepare ((Form.insert false).text T post) = some (.insert false T r.1 r.2) := by
        rw [hst T hT, hbody]
        rfl
      exact executeUpdate_changeTable hread fun db => rfl

theorem update_change (R : Runtime) (n post : String) (args : List Obj) :
    ∃ f, ∀ T, Name T → fold T = n →
      executeUpdate R (Form.update.text T post) args = changeTable T f := by
  have hopened : Opened (" set " ++ post) := Opened.append (by decide) (by decide) _
  have hst : ∀ T, Name T → prepare (Form.update.text T post) = _ := fun T hT =>
    prepare_update_eq hT hopened
  cases hbody : Sql.updateBody (lex (" set " ++ post)) with
  | none =>
      obtain ⟨f, hf⟩ := unread_changeTable R .update post n args
      refine ⟨f, fun T hT hn => hf T hT hn ?_⟩
      rw [hst T hT, hbody]
      rfl
  | some r =>
      let values := args.map (bindObject R)
      refine ⟨if args.length < r.1.length + (r.2.map Sql.Atom.params).sum then fun _ => none
        else Sql.updateRows R.conv r.1 (values.take r.1.length)
          (Sql.bind r.2 (values.drop r.1.length)), fun T hT _ => ?_⟩
      have hread : prepare (Form.update.text T post) = some (.update T r.1 r.2) := by
        rw [hst T hT, hbody]
        rfl
      exact executeUpdate_changeTable hread fun db => rfl

/-- A select by keys that are not all names is refused. -/
theorem executeQuery_unnamed {keys : List String} (hT : Name T) (hkeys : Sql.Unnamed keys)
    (hst : prepare ("SELECT " ++ ("*" ++ (" FROM " ++ (T ++ keyText keys)))) = none)
    (args : List Obj) : executeQuery R ("SELECT " ++ ("*" ++ (" FROM " ++ (T ++ keyText keys))))
      args db = (.ok [], db) := by
  have hrefused : Sql.RefusedQuery ("SELECT " ++ ("*" ++ (" FROM " ++ (T ++ keyText keys)))) :=
    .select hT hkeys
  simp only [executeQuery, hst, R.sqlite.misses hrefused]

theorem select_read (R : Runtime) {keys : List String} (hkeys : ∀ k ∈ keys, Sql.Word k)
    (args : List Obj) : ∃ g : Table → Option (List Row),
      (∀ tbl rows, g tbl = some rows → rows ⊆ tbl.rows) ∧ ∀ T, Name T →
        executeQuery R ("SELECT " ++ ("*" ++ (" FROM " ++ (T ++ keyText keys)))) args =
          readTable T g := by
  have hst : ∀ T, Name T → prepare ("SELECT " ++ ("*" ++ (" FROM " ++ (T ++ keyText keys)))) = _ :=
    fun T hT => prepare_select_eq hT keyText_opened
  cases hbody : Sql.whereClause (lex (keyText keys)) with
  | none =>
      refine ⟨fun _ => none, fun _ _ h => (by cases h), fun T hT => funext fun db => ?_⟩
      have hunread := hst T hT
      rw [hbody] at hunread
      have hnames : ¬ ∀ k ∈ keys, Name k := fun h => by
        rw [prepare_select hT (keyText_isClause h)] at hunread
        cases hunread
      rw [executeQuery_unnamed hT ⟨hkeys, hnames⟩ hunread, readTable]
      cases db (fold T) <;> rfl
  | some as =>
      refine ⟨if args.length < (Stmt.select "" as).params then fun _ => none
        else Sql.selectRows R.conv (Sql.bind as (args.map (bindObject R))), fun tbl rows h => ?_,
        fun T hT => funext fun db => ?_⟩
      · split at h
        · cases h
        · obtain ⟨-, heq⟩ := Option.ite_none_right_eq_some.mp h
          obtain rfl := Option.some.inj heq
          exact List.filter_subset_self _
      have hread := hst T hT
      rw [hbody, Option.map_some] at hread
      have hparams : (Stmt.select T as).params = (Stmt.select "" as).params := rfl
      simp only [executeQuery, hread, readTable, hparams]
      split
      · cases db (fold T) <;> rfl
      · rfl

/-! ### The builders of a step -/

/-- The columns of a key that is backed are words. -/
theorem keyBindings_word (hK : KeysBacked m.cls.chain) :
    ∀ c ∈ (keyBindings m).map (·.1), Sql.Word c := by
  intro c hc
  obtain ⟨e, he, rfl⟩ := List.mem_map.mp hc
  obtain ⟨p, hp, hb⟩ := List.mem_filterMap.mp he
  unfold keyBinding at hb
  split at hb
  · obtain ⟨w, -, rfl⟩ := Option.map_eq_some_iff.mp hb
    rw [← visits_snd] at hp
    obtain ⟨v, hv, rfl⟩ := List.mem_map.mp hp
    exact ((hK v hv ‹_›).mono (visits_suffix hv)).word
  · cases hb

/-- The clause of the primary key is one of keys. -/
theorem wherePrimaryKeySQL_keys {w : String × List Obj}
    (h : wherePrimaryKeySQLWithModel R m = .ok w) :
    ∃ keys : List String, (∀ k ∈ keys, Sql.Word k) ∧ w.1 = keyText keys := by
  by_cases hK : KeysBacked m.cls.chain
  · by_cases hk : keyBindings m = []
    · rw [wherePrimaryKeySQL_nil hK hk] at h
      split at h
      · cases h
      · cases h
        exact ⟨[], by simp, rfl⟩
    · rw [wherePrimaryKeySQL_run hK hk] at h
      cases h
      exact ⟨_, keyBindings_word hK, rfl⟩
  · rw [wherePrimaryKeySQL_error hK] at h
    cases h

theorem insert_splices (R : Runtime) (m : Model) (columns : Option Columns) :
    Splices (.insert false) fun T => createInsertSQLWithColumns R m (some T) columns false := by
  let loop : Except Fault InsertState :=
    columns.elim ((properties m.cls.chain).foldlM (insertStep R m) {}) fun columns =>
      columnsArray R columns >>= fun cs => cs.foldlM (insertColumnStep m) {}
  let rest (s : InsertState) : Option (String × List Obj) :=
    if s.marks = "" then none else some (s.keys ++ (") values (" ++ (s.marks ++ ")")), s.values)
  refine ⟨loop.map rest, fun T => ?_⟩
  have hbuild : createInsertSQLWithColumns R m (some T) columns false =
      loop.map (insertText T false) := by
    cases columns with
    | none =>
        show ((properties m.cls.chain).foldlM (insertStep R m) {} >>= fun s =>
          pure (insertText T false s)) = _
        cases hloop : (properties m.cls.chain).foldlM (insertStep R m) {} <;>
          simp only [loop, hloop] <;> rfl
    | some columns =>
        show (columnsArray R columns >>= fun cs => cs.foldlM (insertColumnStep m) {} >>= fun s =>
          pure (insertText T false s)) = _
        cases hcs : columnsArray R columns with
        | error e => simp only [loop, Option.elim_some, hcs]; rfl
        | ok cs =>
            show (cs.foldlM (insertColumnStep m) {} >>= fun s =>
              pure (insertText T false s)) = _
            simp only [loop, Option.elim_some, hcs]
            show _ = Except.map _ (cs.foldlM (insertColumnStep m) {})
            cases cs.foldlM (insertColumnStep m) {} <;> rfl
  show createInsertSQLWithColumns R m (some T) columns false = _
  rw [hbuild]
  cases loop with
  | error e => rfl
  | ok s =>
      simp only [Except.map, rest, insertText]
      split <;> rfl

/-- The clause of the primary key of an update, after its `SET` list. -/
def updateRest (R : Runtime) (m : Model) (set : UpdateState) :
    Except Fault (Option (String × List Obj)) := do
  let w ← wherePrimaryKeySQLWithModel R m
  if w.1.length = 0 then
    assertNo R
    return none
  return some (set.1 ++ (" " ++ w.1), set.2 ++ w.2)

theorem update_splices (R : Runtime) (m : Model) (sets : Option Sets) :
    Splices .update fun T => createUpdateSQLWithModelAndTableName R m (some T) sets none := by
  refine ⟨setList m sets >>= updateRest R m, fun T => ?_⟩
  show createUpdateSQLWithModelAndTableName R m (some T) sets none = _
  unfold createUpdateSQLWithModelAndTableName
  cases hset : setList m sets with
  | error e => rfl
  | ok set =>
      show (extractWhereSql.byPrimaryKey R (updateText T set.1) true (some m) >>= fun result =>
        if result.error then pure none
        else pure (some (result.sql, set.2 ++ result.values))) =
          Except.map _ (updateRest R m set)
      simp only [extractWhereSql.byPrimaryKey, updateRest, if_true]
      cases hw : wherePrimaryKeySQLWithModel R m with
      | error e => rfl
      | ok w =>
          show ((if w.1.length = 0 then _ else _) >>= _) =
            Except.map _ (if w.1.length = 0 then _ else _)
          split
          · cases hR : R.asserts <;> simp only [assertNo, hR] <;> rfl
          · have htext : updateText T set.1 ++ w.1 =
                "update " ++ (T ++ (" set " ++ (set.1 ++ (" " ++ w.1)))) := by
              simp only [updateText, String.append_assoc]
            show Except.ok (some (updateText T set.1 ++ w.1, set.2 ++ w.2)) = _
            rw [htext]
            rfl

/-! ### The step of a model -/

/-- The step of a model on the table `T`. -/
def modelStep (R : Runtime) (columns : Option Columns) (T : String) (m : Model) : Action Unit :=
  upsertStep R (createSelectSQLWithPrimaryKeyAndTableName R m (some T) none)
    (createUpdateSQLWithModelAndTableName R m (some T) (columns.map Columns.sets) none)
    (createInsertSQLWithColumns R m (some T) columns false)

/-- The step of a model is a step on the table it names. -/
theorem modelStep_eq (R : Runtime) (columns : Option Columns) (m : Model) (n : String) :
    ∃ select update insert, ∀ T, Name T → fold T = n →
      modelStep R columns T m = tableStep T select update insert := by
  obtain ⟨u, hu⟩ := (update_splices R m (columns.map Columns.sets)).changes n (update_change R n)
  obtain ⟨i, hi⟩ := (insert_splices R m columns).changes n (insert_change R n)
  cases hw : wherePrimaryKeySQLWithModel R m with
  | error e =>
      refine ⟨.error e, u, i, fun T _ _ => ?_⟩
      simp only [modelStep, createSelectSQLWithPrimaryKeyAndTableName, hw]
      rfl
  | ok w =>
      obtain ⟨keys, hkeys, hclause⟩ := wherePrimaryKeySQL_keys hw
      obtain ⟨g, -, hg⟩ := select_read R hkeys w.2
      refine ⟨.ok g, u, i, fun T hT hn => ?_⟩
      simp only [modelStep, createSelectSQLWithPrimaryKeyAndTableName, hw]
      show (executeQuery R ("SELECT " ++ ("*" ++ (" FROM " ++ (T ++ w.1)))) w.2 >>= fun rs =>
        if !rs.isEmpty then ignore (executeBuilt R _) else ignore (executeBuilt R _)) = _
      rw [hclause, hg T hT, hu T hT hn, hi T hT hn]
      rfl

theorem modelStep_actsOn (hT : Name T) (columns : Option Columns) (m : Model) :
    ActsOn (fold T) (modelStep R columns T m) := by
  obtain ⟨select, update, insert, h⟩ := modelStep_eq R columns m (fold T)
  rw [h T hT rfl]
  exact tableStep_actsOn T select update insert

/-- **The step of a model** is the same under every name of the table. -/
theorem modelStep_same (hT : Name T) (hU : Name U) (h : fold T = fold U)
    (columns : Option Columns) (m : Model) : modelStep R columns T m = modelStep R columns U m := by
  obtain ⟨select, update, insert, hstep⟩ := modelStep_eq R columns m (fold U)
  rw [hstep T hT h, hstep U hU rfl, tableStep_same h]

/-! ### The creation of the table -/

theorem createTableSQL_splices {sql : String}
    (h : createTableSQLWithTableName cls (some T) = some sql) :
    ∃ post, sql = "CREATE TABLE IF NOT EXISTS " ++ (T ++ (" (" ++ post)) := by
  unfold createTableSQLWithTableName at h
  simp only [Option.some_or] at h
  split at h
  · cases h
  · exact ⟨_, (Option.some.inj h).symm⟩

theorem executeUpdate_ok (R : Runtime) (sql : String) (args : List Obj) (db : Db) :
    ∃ b, executeUpdate R sql args db = (.ok b, (executeUpdate R sql args db).2) := by
  simp only [executeUpdate]
  split
  · split <;> exact ⟨_, rfl⟩
  · split
    · exact ⟨_, rfl⟩
    · split <;> exact ⟨_, rfl⟩

theorem create_cases (R : Runtime) (cls : ModelClass) (T : String) (db : Db) :
    createTableIfNotExists R cls T db = (.ok (),
      if (db (R.lowercaseString T)).isSome then db
      else (createTableSQLWithTableName cls (some T)).elim db fun sql =>
        (executeUpdate R sql [] db).2) := by
  have hexists : tableExists R T db = (.ok (db (R.lowercaseString T)).isSome, db) := rfl
  rw [createTableIfNotExists, Action.bind_ok hexists]
  cases (db (R.lowercaseString T)).isSome with
  | true => rfl
  | false =>
      cases createTableSQLWithTableName cls (some T) with
      | none => rfl
      | some sql =>
          obtain ⟨b, hb⟩ := executeUpdate_ok R sql [] db
          exact Action.bind_ok hb

/-- **The creation of a table** makes one, unless it is there or SQLite rejects it.  SQLite looks
the name up under its own folding and FMDB under `lowercaseString`. -/
theorem createTableIfNotExists_eq (R : Runtime) (hT : Name T) (cls : ModelClass) :
    ∃ o : Option Table, ∀ db, createTableIfNotExists R cls T db = (.ok (),
      if (db (R.lowercaseString T)).isSome ∨ (db (fold T)).isSome then db
      else o.elim db fun tbl => Function.update db (fold T) (some tbl)) := by
  have hrun := create_cases R cls T
  cases hsql : createTableSQLWithTableName cls (some T) with
  | none =>
      refine ⟨none, fun db => ?_⟩
      rw [hrun, hsql]
      simp
  | some sql =>
      obtain ⟨post, rfl⟩ := createTableSQL_splices hsql
      have hopened : Opened (" (" ++ post) := Opened.append (by decide) (by decide) _
      have hst := prepare_create_eq hT hopened
      cases hbody : Sql.createBody (lex (" (" ++ post)) with
      | none =>
          rw [hbody] at hst
          obtain ⟨o, -, ho⟩ := R.sqlite.creates hT post
          refine ⟨o, fun db => ?_⟩
          rw [hrun, hsql, Option.elim_some, executeUpdate_left hst, ho]
          by_cases hlower : (db (R.lowercaseString T)).isSome
          · simp [hlower]
          · simp [hlower]
      | some r =>
          rw [hbody] at hst
          refine ⟨if Sql.Creatable T r.1 r.2 then some ⟨r.1, r.2, []⟩ else none, fun db => ?_⟩
          rw [hrun, hsql, Option.elim_some]
          by_cases hlower : (db (R.lowercaseString T)).isSome
          · simp [hlower]
          · simp only [executeUpdate, hst, Option.map_some, Sql.exec]
            by_cases hfold : (db (fold T)).isSome
            · simp [hlower, hfold, Stmt.params]
            · by_cases hc : Sql.Creatable T r.1 r.2
              · simp [hlower, hfold, hc, Stmt.params]
              · simp [hlower, hfold, hc, Stmt.params]

/-! ### Batches -/

/-- The upserts of the models, each as an array of one. -/
def singles (R : Runtime) (xs : List Model) (T : String) (columns : Option Columns) :
    Action Unit :=
  Action.each (fun x => insertToDBWithDataArrayTableNameColumnsUpdate R [x] T columns) xs

/-- The database after the creation of the table. -/
def created (R : Runtime) (cls : ModelClass) (T : String) (db : Db) : Db :=
  (createTableIfNotExists R cls T db).2

theorem create_run (R : Runtime) (cls : ModelClass) (T : String) (db : Db) :
    createTableIfNotExists R cls T db = (.ok (), created R cls T db) := by
  rw [created, create_cases]

theorem createTableSQL_word {cls : ModelClass} {T sql : String}
    (h : createTableSQLWithTableName cls (some T) = some sql) :
    ∃ text, sql = "CREATE TABLE IF NOT EXISTS " ++ text := by
  unfold createTableSQLWithTableName at h
  dsimp only [Option.some_or] at h
  split at h
  · cases h
  · exact ⟨_, (Option.some.inj h).symm⟩

/-- A text that starts with `CREATE` is read as a `CREATE TABLE` or not at all. -/
theorem prepare_create_word {text : String} {st : Stmt}
    (h : prepare ("CREATE TABLE IF NOT EXISTS " ++ text) = some st) :
    ∃ t ds pk, st = .create t ds pk := by
  have hlex : lex ("CREATE TABLE IF NOT EXISTS " ++ text) = .word "CREATE" :: .word "TABLE" ::
      .word "IF" :: .word "NOT" :: .word "EXISTS" :: lex text := by
    rw [Sql.lex_closed (by decide)]
    rfl
  have hk : fold "CREATE" = "create" := by decide
  rw [prepare, hlex, Sql.parse_first, if_pos hk] at h
  unfold Sql.parseCreate at h
  obtain ⟨ts, -, h⟩ := Option.bind_eq_some_iff.mp h
  obtain ⟨⟨t, ts'⟩, -, h⟩ := Option.bind_eq_some_iff.mp h
  obtain ⟨⟨ds, pk⟩, -, h⟩ := Option.bind_eq_some_iff.mp h
  exact ⟨t, ds, pk, (Option.some.inj h).symm⟩

/-- What is sent to make a table makes it when there is none of a name, whatever it reads as. -/
theorem executeCreate_once (R : Runtime) (text : String) :
    ∃ (n : String) (make : Option (Db → Table)), ∀ db,
      (executeUpdate R ("CREATE TABLE IF NOT EXISTS " ++ text) [] db).2 =
        if (db n).isSome then db
        else make.elim db fun make => Function.update db n (some (make db)) := by
  cases hst : prepare ("CREATE TABLE IF NOT EXISTS " ++ text) with
  | none =>
      obtain ⟨n, make, hmake⟩ := R.sqlite.once text
      exact ⟨n, make, fun db => (executeUpdate_left hst).trans (hmake _ db)⟩
  | some st =>
      obtain ⟨t, ds, pk, rfl⟩ := prepare_create_word hst
      refine ⟨fold t, if Sql.Creatable t ds pk then some fun _ => ⟨ds, pk, []⟩ else none,
        fun db => ?_⟩
      by_cases hthere : (db (fold t)).isSome
      · simp [executeUpdate, hst, Sql.exec, Stmt.params, hthere]
      · by_cases hc : Sql.Creatable t ds pk
        · simp [executeUpdate, hst, Sql.exec, Stmt.params, hthere, hc]
        · simp [executeUpdate, hst, Sql.exec, Stmt.params, hthere, hc]

/-- **A table is created once**, whatever its name reads as: while the tables stay, the creation
does nothing more. -/
theorem created_again {cls : ModelClass} {T : String}
    (h : ∀ n, (db' n).isSome = (created R cls T db n).isSome) : created R cls T db' = db' := by
  rw [created, create_cases]
  split
  · rfl
  · rename_i hlower
    cases hsql : createTableSQLWithTableName cls (some T) with
    | none => rfl
    | some sql =>
        obtain ⟨text, rfl⟩ := createTableSQL_word hsql
        obtain ⟨n, make, hmake⟩ := executeCreate_once R text
        rw [Option.elim_some, hmake]
        by_cases hthere : (db' n).isSome
        · rw [if_pos hthere]
        · rw [if_neg hthere]
          cases make with
          | none => rfl
          | some make =>
              -- the table was made before, and the tables have stayed
              have hbefore : created R cls T db =
                  if (db (R.lowercaseString T)).isSome then db
                  else if (db n).isSome then db else Function.update db n (some (make db)) := by
                rw [created, create_cases, hsql]
                simp only [Option.elim_some, hmake]
              rw [h, hbefore] at hthere hlower
              split at hthere
              · rename_i hl
                rw [if_pos hl] at hlower
                exact absurd hl hlower
              · split at hthere
                · exact absurd ‹_› hthere
                · rw [Function.update_self] at hthere
                  exact absurd rfl hthere

theorem each_congr {f g : α → Action Unit} {xs : List α} (h : ∀ x ∈ xs, f x = g x) :
    Action.each f xs = Action.each g xs := by
  induction xs with
  | nil => rfl
  | cons x xs ih =>
      rw [Action.each, Action.each, h x List.mem_cons_self,
        ih fun y hy => h y (List.mem_cons_of_mem _ hy)]

/-- Without a name the insert takes the table of the class. -/
theorem createInsertSQL_own {R : Runtime} (hU : m.cls.getTableName = some U)
    (columns : Option Columns) (replace : Bool) :
    createInsertSQLWithColumns R m none columns replace =
      createInsertSQLWithColumns R m (some U) columns replace := by
  unfold createInsertSQLWithColumns
  rw [hU]
  rfl

theorem single_run (hcls : m.cls = cls) (columns : Option Columns) (db : Db) :
    insertToDBWithDataArrayTableNameColumnsUpdate R [m] T columns db =
      modelStep R columns T m (created R cls T db) := by
  subst hcls
  exact Action.bind_ok (create_run R m.cls T db)

/-- A longer array is written to the table of its class. -/
theorem batch_run (hU : cls.getTableName = some U) {xs : List Model} (hlen : 2 ≤ xs.length)
    (hcls : ∀ x ∈ xs, x.cls = cls) (columns : Option Columns) (db : Db) :
    insertToDBWithDataArrayTableNameColumnsUpdate R xs T columns db =
      Action.each (modelStep R columns U) xs (created R cls T db) := by
  match xs, hlen, hcls with
  | x :: y :: xs, _, hcls =>
      obtain rfl := hcls x List.mem_cons_self
      have hsteps : Action.each (fun data =>
          upsertStep R (createSelectSQLWithPrimaryKey R data none)
            (createUpdateSQLWithModelAndTableClass R data data.cls (columns.map Columns.sets) none)
            (createInsertSQLWithColumns R data none columns false)) (x :: y :: xs) =
          Action.each (modelStep R columns U) (x :: y :: xs) := by
        refine each_congr fun z hz => ?_
        rw [createSelectSQLWithPrimaryKey, createUpdateSQLWithModelAndTableClass, hcls z hz, hU,
          createInsertSQL_own (by rw [hcls z hz, hU])]
        rfl
      rw [← hsteps]
      exact Action.bind_ok (create_run R x.cls T db)

section Batches

variable (hT : Name T)
include hT

theorem created_eq (R : Runtime) (cls : ModelClass) :
    ∃ o : Option Table, ∀ db, created R cls T db =
      if (db (R.lowercaseString T)).isSome ∨ (db (fold T)).isSome then db
      else o.elim db fun tbl => Function.update db (fold T) (some tbl) := by
  obtain ⟨o, ho⟩ := createTableIfNotExists_eq R hT cls
  exact ⟨o, fun db => by rw [created, ho]⟩

theorem created_other {n : String} (hn : n ≠ fold T) (db : Db) : created R cls T db n = db n := by
  obtain ⟨o, ho⟩ := created_eq hT R cls
  rw [ho]
  split
  · rfl
  · cases o with
    | none => rfl
    | some tbl => exact Function.update_of_ne hn _ _

/-- What is created depends on what there is under the name. -/
theorem created_same (hn : db' (fold T) = db (fold T))
    (hlower : (db' (R.lowercaseString T)).isSome = (db (R.lowercaseString T)).isSome) :
    created R cls T db' (fold T) = created R cls T db (fold T) := by
  obtain ⟨o, ho⟩ := created_eq hT R cls
  rw [ho, ho, hn, hlower]
  split
  · exact hn
  · cases o with
    | none => exact hn
    | some tbl => simp

/-- Once the table is there the upserts are steps. -/
theorem singles_settled {xs : List Model} (hcls : ∀ x ∈ xs, x.cls = cls) (columns : Option Columns)
    (hdb : ∀ n, (db' n).isSome = (created R cls T db n).isSome) :
    singles R xs T columns db' = Action.each (modelStep R columns T) xs db' := by
  induction xs generalizing db' with
  | nil => rfl
  | cons x xs ih =>
      have hx := single_run (R := R) (T := T) (hcls x List.mem_cons_self) columns db'
      rw [created_again hdb] at hx
      show (insertToDBWithDataArrayTableNameColumnsUpdate R [x] T columns >>= fun _ =>
        singles R xs T columns) db' = (modelStep R columns T x >>= fun _ =>
          Action.each (modelStep R columns T) xs) db'
      have hsome := (modelStep_actsOn (R := R) hT columns x).isSome_eq db'
      rw [Action.bind_run, Action.bind_run, hx]
      cases hrun : modelStep R columns T x db' with
      | mk r db₁ =>
          rw [hrun] at hsome
          cases r with
          | error e => rfl
          | ok _ =>
              exact ih (fun y hy => hcls y (List.mem_cons_of_mem _ hy))
                fun n => (hsome n).trans (hdb n)

/-- **The upserts one after another** create the table once. -/
theorem singles_run {xs : List Model} (hne : xs ≠ []) (hcls : ∀ x ∈ xs, x.cls = cls)
    (columns : Option Columns) (db : Db) :
    singles R xs T columns db =
      Action.each (modelStep R columns T) xs (created R cls T db) := by
  rw [← singles_settled hT hcls columns fun _ => rfl]
  obtain ⟨x, xs, rfl⟩ := List.exists_cons_of_ne_nil hne
  have hx : insertToDBWithDataArrayTableNameColumnsUpdate R [x] T columns db =
      insertToDBWithDataArrayTableNameColumnsUpdate R [x] T columns (created R cls T db) := by
    rw [single_run (hcls x List.mem_cons_self), single_run (hcls x List.mem_cons_self),
      created_again fun _ => rfl]
  show (insertToDBWithDataArrayTableNameColumnsUpdate R [x] T columns >>= _) db =
    (insertToDBWithDataArrayTableNameColumnsUpdate R [x] T columns >>= _) _
  rw [Action.bind_run, Action.bind_run, hx]

/-! ### When a batch is its singles -/

/-- The builder of the select raises for every model of the class. -/
def SelectRaises (R : Runtime) (cls : ModelClass) : Prop :=
  ¬ KeysBacked cls.chain ∨ getPrimaryKeys cls.chain = [] ∧ R.asserts = true

omit hT in
/-- Then no step does anything. -/
theorem SelectRaises.step (h : SelectRaises R m.cls) (columns : Option Columns) :
    ∃ e, ∀ T db, modelStep R columns T m db = (.error e, db) := by
  obtain ⟨e, he⟩ : ∃ e, wherePrimaryKeySQLWithModel R m = .error e := by
    by_cases hK : KeysBacked m.cls.chain
    · obtain ⟨hpk, hR⟩ := h.resolve_left (not_not.mpr hK)
      have hk : keyBindings m = [] := by
        refine List.eq_nil_iff_forall_not_mem.mpr fun e he => ?_
        obtain ⟨p, hp, hb⟩ := List.mem_filterMap.mp he
        unfold keyBinding at hb
        split at hb
        · have hmem : p.column ∈ getPrimaryKeys m.cls.chain :=
            List.mem_map.mpr ⟨p, List.mem_filter.mpr ⟨hp, ‹_›⟩, rfl⟩
          rw [hpk] at hmem
          cases hmem
        · cases hb
      exact ⟨.assertion, by rw [wherePrimaryKeySQL_nil hK hk, if_pos hR]⟩
    · exact ⟨_, wherePrimaryKeySQL_error hK⟩
  refine ⟨e, fun T db => ?_⟩
  simp only [modelStep, createSelectSQLWithPrimaryKeyAndTableName, he]
  rfl

end Batches

/-- An array of two or more models of the class leaves the database as its models do one after
another.  It writes the table called `tableName` only, and what it writes there depends on that
table, and on whether FMDB finds a table of that name. -/
def BatchIsSingles (R : Runtime) (cls : ModelClass) (tableName : String) : Prop :=
  ∀ (xs : List Model) (columns : Option Columns) (db : Db), 2 ≤ xs.length →
    (∀ x ∈ xs, x.cls = cls) →
    (insertToDBWithDataArrayTableNameColumnsUpdate R xs tableName columns db).2 =
      (singles R xs tableName columns db).2 ∧
    (∀ n, n ≠ fold tableName →
      (insertToDBWithDataArrayTableNameColumnsUpdate R xs tableName columns db).2 n = db n) ∧
    ∀ db', db' (fold tableName) = db (fold tableName) →
      (db' (R.lowercaseString tableName)).isSome = (db (R.lowercaseString tableName)).isSome →
      (insertToDBWithDataArrayTableNameColumnsUpdate R xs tableName columns db').2
          (fold tableName) =
        (insertToDBWithDataArrayTableNameColumnsUpdate R xs tableName columns db).2
          (fold tableName)

/-- A batch on the table of its class is its singles. -/
theorem BatchIsSingles.of_same (hT : Name T) (hname : Name U) (hU : cls.getTableName = some U)
    (h : fold T = fold U ∨ SelectRaises R cls) : BatchIsSingles R cls T := by
  intro xs columns db hlen hcls
  have hsame : ∀ x ∈ xs, modelStep R columns U x = modelStep R columns T x := by
    intro x hx
    rcases h with hfold | hraises
    · exact modelStep_same hname hT hfold.symm columns x
    · rw [← hcls x hx] at hraises
      obtain ⟨e, he⟩ := hraises.step columns
      funext db
      rw [he, he]
  have hbatch : ∀ db, insertToDBWithDataArrayTableNameColumnsUpdate R xs T columns db =
      Action.each (modelStep R columns T) xs (created R cls T db) := fun db => by
    rw [batch_run hU hlen hcls, each_congr hsame]
  have hne : xs ≠ [] := by
    rintro rfl
    simp at hlen
  have hacts : ActsOn (fold T) (Action.each (modelStep R columns T) xs) :=
    .each fun x _ => modelStep_actsOn hT columns x
  refine ⟨?_, fun n hn => ?_, fun db' hn hlower => ?_⟩
  · rw [hbatch, singles_run hT hne hcls]
  · rw [hbatch, hacts.other _ n hn, created_other hT hn]
  · rw [hbatch, hbatch]
    exact (hacts.same _ _ (created_same hT hn hlower)).2

/-! ### A batch on another table -/

/-- A model whose every key has a value. -/
def fullModel (cls : ModelClass) : Model where
  cls := cls
  valueForKey? _ := some (some (.data []))
  ivar_known _ _ _ _ := rfl

/-- A model whose every key is nil. -/
def blankModel (cls : ModelClass) : Model where
  cls := cls
  valueForKey? _ := some none
  ivar_known _ _ _ _ := rfl

/-- A table with one column. -/
def columnTable (rows : List Row) : Table := ⟨[("c", "")], [], rows⟩

/-- Where a table has no rows a select by keys has none. -/
theorem executeQuery_empty {keys : List String} (hT : Name T) (hkeys : ∀ k ∈ keys, Sql.Word k)
    {tbl : Table} (htbl : db (fold T) = some tbl) (hrows : tbl.rows = []) (args : List Obj) :
    executeQuery R ("SELECT " ++ ("*" ++ (" FROM " ++ (T ++ keyText keys)))) args db =
      (.ok [], db) := by
  obtain ⟨g, hsubset, hg⟩ := select_read R hkeys args
  rw [hg T hT, readTable, htbl, Option.bind_some]
  cases hread : g tbl with
  | none => rfl
  | some rows =>
      have hnone : rows ⊆ [] := hrows ▸ hsubset tbl rows hread
      rw [Option.getD_some, List.eq_nil_of_subset_nil hnone]

/-- The select of a full model is built, unless it raises for every model. -/
theorem fullModel_selects (hselects : ¬ SelectRaises R cls) :
    ∃ w, wherePrimaryKeySQLWithModel R (fullModel cls) = .ok w := by
  obtain ⟨hK, hnokeys⟩ := not_or.mp hselects
  by_cases hk : keyBindings (fullModel cls) = []
  · have hpk : getPrimaryKeys cls.chain = [] := by
      refine List.eq_nil_iff_forall_not_mem.mpr fun k hmem => ?_
      obtain ⟨p, hp, -⟩ := List.mem_map.mp hmem
      obtain ⟨hp, hkey⟩ := List.mem_filter.mp hp
      have hb : (p.column, Obj.data []) ∈ keyBindings (fullModel cls) :=
        List.mem_filterMap.mpr ⟨p, hp, by rw [keyBinding, if_pos hkey]; rfl⟩
      rw [hk] at hb
      cases hb
    have hR : ¬ R.asserts = true := fun hR => hnokeys ⟨hpk, hR⟩
    exact ⟨_, by rw [wherePrimaryKeySQL_nil (not_not.mp hK) hk, if_neg hR]⟩
  · exact ⟨_, wherePrimaryKeySQL_run (not_not.mp hK) hk⟩

/-- A full model is inserted where there are no rows. -/
theorem fullModel_step (hname : Name U) (hselects : ¬ SelectRaises R cls) :
    ∃ row, modelStep R (some (.array ["c"])) U (fullModel cls) (fun _ => some (columnTable [])) =
      (.ok (), Function.update (fun _ => some (columnTable [])) (fold U)
        (some (columnTable [row]))) := by
  obtain ⟨w, hw⟩ := fullModel_selects hselects
  obtain ⟨sql, hsql, hst⟩ := prepare_insert (l := [("c", Obj.data [])]) hname false (by simp)
    (by decide)
  have hbuilt : createInsertSQLWithColumns R (fullModel cls) (some U) (some (.array ["c"])) false =
      .ok (some (sql, [Obj.data []])) := by
    rw [createInsertSQLWithColumns_single rfl, hsql]
    rfl
  obtain ⟨keys, hkeys, hclause⟩ := wherePrimaryKeySQL_keys hw
  have hquery : executeQuery R ("SELECT " ++ ("*" ++ (" FROM " ++ (U ++ keyText keys)))) w.2
      (fun _ => some (columnTable [])) = (.ok [], fun _ => some (columnTable [])) :=
    executeQuery_empty hname hkeys rfl rfl w.2
  refine ⟨Sql.newRow R.conv (columnTable []) ["c"] [bindObject R (.data [])], ?_⟩
  simp only [modelStep, createSelectSQLWithPrimaryKeyAndTableName, hw]
  show (executeQuery R ("SELECT " ++ ("*" ++ (" FROM " ++ (U ++ w.1)))) w.2 >>= fun rs =>
    if !rs.isEmpty then _ else ignore (executeBuilt R
      (createInsertSQLWithColumns R _ _ (some (.array ["c"])) false)))
      (fun _ => some (columnTable [])) = _
  rw [hclause] at *
  rw [Action.bind_ok hquery]
  refine Action.bind_ok ((executeBuilt_some hbuilt _).trans
    (executeUpdate_done hst (by simp [Stmt.params]) (Sql.onTable_of_some rfl ?_)))
  rfl

/-- A blank model raises where there are rows. -/
theorem blankModel_step (hname : Name U) (hselects : ¬ SelectRaises R cls) {row : Row}
    (hdb : db (fold U) = some (columnTable [row])) :
    (modelStep R (some (.array ["c"])) U (blankModel cls) db).2 = db := by
  have hK : KeysBacked cls.chain := not_not.mp (not_or.mp hselects).1
  have hk : keyBindings (blankModel cls) = [] := by
    refine List.eq_nil_iff_forall_not_mem.mpr fun e he => ?_
    obtain ⟨p, hp, hb⟩ := List.mem_filterMap.mp he
    unfold keyBinding at hb
    split at hb <;> cases hb
  have hw := wherePrimaryKeySQL_nil (R := R) (m := blankModel cls) hK hk
  cases hR : R.asserts with
  | true =>
      rw [hR, if_pos rfl] at hw
      simp only [modelStep, createSelectSQLWithPrimaryKeyAndTableName, hw]
      rfl
  | false =>
      rw [hR, if_neg Bool.false_ne_true] at hw
      have hst := prepare_select_eq hname (show Opened "" by decide)
      have hselect : Sql.select R.conv db (.select U []) ([].map (bindObject R)) = some [row] := by
        simp [Sql.select, hdb, Sql.selectRows, Sql.bind, Sql.satisfies, columnTable]
      have hquery := executeQuery_done hst (le_refl 0) hselect
      simp only [modelStep, createSelectSQLWithPrimaryKeyAndTableName, hw]
      show ((executeQuery R ("SELECT " ++ ("*" ++ (" FROM " ++ (U ++ "")))) [] >>= fun rs =>
        if !rs.isEmpty then _ else _) db).2 = _
      rw [Action.bind_ok hquery]
      rfl

/-- On another table a batch is not its singles: it writes to the table of the class. -/
theorem BatchIsSingles.same (hT : Name T) (hname : Name U) (hU : cls.getTableName = some U)
    (hselects : ¬ SelectRaises R cls) (h : BatchIsSingles R cls T) : fold T = fold U := by
  by_contra hfold
  let xs := [fullModel cls, blankModel cls]
  let db : Db := fun _ => some (columnTable [])
  have hcls : ∀ x ∈ xs, x.cls = cls := by simp [xs, fullModel, blankModel]
  have hcreated : created R cls T db = db := by
    obtain ⟨o, ho⟩ := created_eq hT R cls
    rw [ho, if_pos (.inl rfl)]
  obtain ⟨hsame, -⟩ := h xs (some (.array ["c"])) db (by simp [xs]) hcls
  have hbatch : ∃ row, (insertToDBWithDataArrayTableNameColumnsUpdate R xs T
      (some (.array ["c"])) db).2 (fold U) = some (columnTable [row]) := by
    obtain ⟨row, hrow⟩ := fullModel_step (R := R) hname hselects
    refine ⟨row, ?_⟩
    rw [batch_run hU (by simp [xs]) hcls, hcreated]
    show ((modelStep R _ U (fullModel cls) >>= fun _ => modelStep R _ U (blankModel cls) >>=
      fun _ => pure ()) db).2 (fold U) = _
    have hblank := blankModel_step hname hselects (Function.update_self (fold U)
      (some (columnTable [row])) fun _ => some (columnTable []))
    rw [Action.bind_ok hrow, Action.bind_run]
    cases hrun : modelStep R (some (.array ["c"])) U (blankModel cls) (Function.update
        (fun _ => some (columnTable [])) (fold U) (some (columnTable [row]))) with
    | mk r db₁ =>
        rw [hrun] at hblank
        have hrow : db₁ (fold U) = some (columnTable [row]) := by
          rw [show db₁ = _ from hblank, Function.update_self]
        cases r with
        | error e => exact hrow
        | ok _ => exact hrow
  -- the singles leave the table of the class alone
  have hsingles : (singles R xs T (some (.array ["c"])) db).2 (fold U) = some (columnTable []) := by
    rw [singles_run hT (by simp [xs]) hcls, hcreated]
    exact (ActsOn.each fun x _ => modelStep_actsOn hT _ x).other db _ (Ne.symm hfold)
  obtain ⟨row, hrow⟩ := hbatch
  rw [hsame, hsingles] at hrow
  cases hrow

/-- A database with the table of the books and an archive of the same columns. -/
def archiveDb : Db := fun n =>
  if n = "tb_books" ∨ n = "tb_archive" then
    some ⟨storedColumns bookClass.chain, getPrimaryKeys bookClass.chain, []⟩
  else none

end NBDataBase
