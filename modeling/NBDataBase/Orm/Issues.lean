import NBDataBase.Lib.Steps
import NBDataBase.Orm.Api

/-!
# Orm — what the operations issue

Which kinds of statements an operation issues, and to which tables.

* `Reads k T sql`: a text is a statement of the kind, to the table when that has a name, whether
  the fragment has it or not.  `Issues`: so it is of what a builder returns.
* `Changes ks Ts`: the changes of some kinds, to some tables.
* `Action.Within`: an action changes the database by such changes, when the tables have names.
* `executeUpdate_within`, `executeQuery_within`: what FMDB executes, and from them the blocks.
-/

namespace NBDataBase
open Sql (Db Stmt Form Kind Name Opened fold lex prepare)
open Relation (ReflTransGen)

variable {R : Runtime} {k : Kind} {T post sql : String} {st : Stmt} {m : Model}
  {ks : List Kind} {Ts : List String} {α β : Type}

/-! ### Texts -/

/-- A text that is put around the name of the table. -/
inductive Around (k : Kind) (T : String) : String → Prop
  | form (form : Form) (hform : form.kind = k) (post : String) : Around k T (form.text T post)
  | create (hcreate : k = .create) (post : String) :
      Around k T ("CREATE TABLE IF NOT EXISTS " ++ (T ++ (" (" ++ post)))

/-- The text is a statement of the kind, and of the table when that has a name. -/
structure Reads (k : Kind) (T sql : String) : Prop where
  prepared : ∀ st, prepare sql = some st → st.kind = some k ∧ (Name T → st.table = T)
  around : Name T → prepare sql = none → Around k T sql

/-- The table that stands at the start of a text. -/
theorem name_start (hpost : Opened post) {t : String} {ts : List Sql.Token}
    (h : Sql.name (lex (T ++ post)) = some (t, ts)) (hT : Name T) : t = T := by
  rw [Sql.lex_word_opened hT.word hpost, Sql.name_eq hT] at h
  exact (Prod.mk.inj (Option.some.inj h)).1.symm

theorem reads_insert (replace : Bool) (post : String) :
    Reads (.insert replace) T ("insert " ++
      ((if replace then "or replace into " else "or ignore into ") ++ (T ++ (" (" ++ post)))) := by
  refine ⟨fun st hst => ?_, fun _ _ => .form (.insert replace) rfl post⟩
  have hpost : Opened (" (" ++ post) := .append (by decide) (by decide) _
  have hinsert : lex "insert " = [.word "insert"] := by decide
  have hfirst : fold "insert" = "insert" := by decide
  have hor : fold "or" = "or" := by decide
  have hinto : fold "into" = "into" := by decide
  have hlex : lex (if replace then "or replace into " else "or ignore into ") =
      [.word "or", .word (if replace then "replace" else "ignore"), .word "into"] := by
    cases replace <;> decide
  have hclosed : Sql.Closed (if replace then "or replace into " else "or ignore into ") := by
    cases replace <;> decide
  have hconflict : ∀ ts, Sql.conflict (.word "or" ::
      .word (if replace then "replace" else "ignore") :: ts) = some (replace, ts) := by
    intro ts
    have hreplace : fold "replace" = "replace" := by decide
    have hignore : fold "ignore" = "ignore" := by decide
    cases replace <;> simp [Sql.conflict, hor, hreplace, hignore]
  rw [prepare, Sql.lex_closed (by decide), Sql.lex_closed hclosed, hinsert, hlex] at hst
  rw [List.cons_append, Sql.parse_first, hfirst] at hst
  have hst : Sql.parseInsert _ = some st := hst
  unfold Sql.parseInsert at hst
  obtain ⟨ts₁, h₁, hst⟩ := Option.bind_eq_some_iff.mp hst
  rw [Sql.keyword_eq hfirst] at h₁
  obtain rfl := Option.some.inj h₁
  obtain ⟨⟨b, ts₂⟩, h₂, hst⟩ := Option.bind_eq_some_iff.mp hst
  rw [List.nil_append, List.cons_append, List.cons_append, hconflict] at h₂
  obtain ⟨rfl, rfl⟩ := Prod.mk.inj (Option.some.inj h₂)
  obtain ⟨ts₃, h₃, hst⟩ := Option.bind_eq_some_iff.mp hst
  rw [List.cons_append, List.nil_append, Sql.keyword_eq hinto] at h₃
  obtain rfl := Option.some.inj h₃
  obtain ⟨⟨t, ts₄⟩, hname, hst⟩ := Option.bind_eq_some_iff.mp hst
  obtain ⟨⟨cs, n⟩, -, hst⟩ := Option.bind_eq_some_iff.mp hst
  obtain rfl := Option.some.inj hst
  exact ⟨rfl, name_start hpost hname⟩

theorem reads_update (post : String) :
    Reads .update T ("update " ++ (T ++ (" set " ++ post))) := by
  refine ⟨fun st hst => ?_, fun _ _ => .form .update rfl post⟩
  have hpost : Opened (" set " ++ post) := .append (by decide) (by decide) _
  rw [prepare_update_word] at hst
  unfold Sql.parseUpdate at hst
  have hfirst : fold "update" = "update" := by decide
  obtain ⟨ts₁, h₁, hst⟩ := Option.bind_eq_some_iff.mp hst
  rw [Sql.keyword_eq hfirst] at h₁
  obtain rfl := Option.some.inj h₁
  obtain ⟨⟨t, ts₂⟩, hname, hst⟩ := Option.bind_eq_some_iff.mp hst
  obtain ⟨⟨ss, as⟩, -, hst⟩ := Option.bind_eq_some_iff.mp hst
  obtain rfl := Option.some.inj hst
  exact ⟨rfl, name_start hpost hname⟩

theorem reads_delete (hpost : post = "" ∨ ∃ clause, post = " where " ++ clause) :
    Reads .delete T ("DELETE FROM " ++ (T ++ post)) := by
  have hopened : Opened post := opened_where hpost
  refine ⟨fun st hst => ?_, fun hT hnone => ?_⟩
  case refine_2 =>
    rcases hpost with rfl | ⟨clause, rfl⟩
    · have hall : IsClause "" [] := ⟨by decide, by decide, by simp⟩
      have hst := prepare_delete hT hall
      rw [String.append_assoc, hnone] at hst
      cases hst
    · exact .form .delete rfl clause
  have hlex : lex ("DELETE FROM " ++ (T ++ post)) =
      .word "DELETE" :: .word "FROM" :: lex (T ++ post) := by
    rw [Sql.lex_closed (by decide)]
    rfl
  have hfirst : fold "DELETE" = "delete" := by decide
  have hfrom : fold "FROM" = "from" := by decide
  rw [prepare, hlex, Sql.parse_first, hfirst] at hst
  have hst : Sql.parseDelete _ = some st := hst
  unfold Sql.parseDelete at hst
  obtain ⟨ts₁, h₁, hst⟩ := Option.bind_eq_some_iff.mp hst
  simp only [Sql.keywords, Sql.keyword_eq hfirst, Sql.keyword_eq hfrom, Option.bind_some] at h₁
  obtain rfl := Option.some.inj h₁
  obtain ⟨⟨t, ts₂⟩, hname, hst⟩ := Option.bind_eq_some_iff.mp hst
  obtain ⟨as, -, hst⟩ := Option.bind_eq_some_iff.mp hst
  obtain rfl := Option.some.inj hst
  exact ⟨rfl, name_start hopened hname⟩

theorem reads_create (post : String) :
    Reads .create T ("CREATE TABLE IF NOT EXISTS " ++ (T ++ (" (" ++ post))) := by
  refine ⟨fun st hst => ?_, fun _ _ => .create rfl post⟩
  have hpost : Opened (" (" ++ post) := .append (by decide) (by decide) _
  obtain ⟨t, ds, pk, rfl⟩ := prepare_create_word hst
  refine ⟨rfl, fun hT => ?_⟩
  rw [prepare_create_eq hT hpost] at hst
  obtain ⟨r, -, hr⟩ := Option.map_eq_some_iff.mp hst
  rw [← hr]
  rfl

theorem reads_alter (columnName columnType : String) :
    Reads .addColumn T (alterSQL T columnName columnType) := by
  refine ⟨fun st hst => ?_, fun _ _ => .form .addColumn rfl (columnName ++ (" " ++ columnType))⟩
  have hlex : lex ("alter table " ++ (T ++ (" add column " ++
      (columnName ++ (" " ++ columnType))))) = .word "alter" :: .word "table" ::
        lex (T ++ (" add column " ++ (columnName ++ (" " ++ columnType)))) := by
    rw [Sql.lex_closed (by decide)]
    rfl
  have hfirst : fold "alter" = "alter" := by decide
  have htable : fold "table" = "table" := by decide
  rw [alterSQL, prepare, hlex, Sql.parse_first, hfirst] at hst
  have hst : Sql.parseAddColumn _ = some st := hst
  unfold Sql.parseAddColumn at hst
  obtain ⟨ts₁, h₁, hst⟩ := Option.bind_eq_some_iff.mp hst
  simp only [Sql.keywords, Sql.keyword_eq hfirst, Sql.keyword_eq htable, Option.bind_some] at h₁
  obtain rfl := Option.some.inj h₁
  obtain ⟨⟨t, ts₂⟩, hname, hst⟩ := Option.bind_eq_some_iff.mp hst
  obtain ⟨ts₃, -, hst⟩ := Option.bind_eq_some_iff.mp hst
  obtain ⟨⟨col, ts₄⟩, -, hst⟩ := Option.bind_eq_some_iff.mp hst
  obtain ⟨⟨type, ts₅⟩, -, hst⟩ := Option.bind_eq_some_iff.mp hst
  have hopened : Opened (" add column " ++ (columnName ++ (" " ++ columnType))) :=
    .append (by decide) (by decide) _
  cases ts₅ with
  | nil =>
      obtain rfl := Option.some.inj hst
      exact ⟨rfl, name_start hopened hname⟩
  | cons x xs => cases hst

/-- The insert of a value as text. -/
theorem reads_value (C v : String) (replace : Bool) :
    Reads (.insert replace) T (insertValueText T C v replace) := by
  have haround : Name T → prepare (insertValueText T C v replace) = none →
      Around (.insert replace) T (insertValueText T C v replace) := fun _ _ =>
    .form (.value replace) rfl (C ++ (") values (" ++ (v ++ ")")))
  cases replace with
  | false =>
      have htext : insertValueText T C v false =
          "insert " ++ ("or ignore into " ++ (T ++
            (" (" ++ (C ++ (") values (" ++ (v ++ ")")))))) :=
        String.toList_inj.mp (by simp [insertValueText])
      refine ⟨fun st hst => ?_, haround⟩
      rw [htext] at hst
      exact (reads_insert false _).prepared st hst
  | true =>
      -- the fragment has no `REPLACE`
      refine ⟨fun st hst => ?_, haround⟩
      have hlex : lex (insertValueText T C v true) = .word "replace" ::
          lex (" into " ++ (T ++ (" (" ++ (C ++ (") values (" ++ (v ++ ")")))))) := by
        rw [insertValueText, if_pos rfl,
          Sql.lex_opened (Opened.append (by decide) (by decide) _)]
        rfl
      have hreplace : fold "replace" = "replace" := by decide
      rw [prepare, hlex, Sql.parse_first, hreplace] at hst
      simp [Sql.parseSelect, Sql.keyword, hreplace] at hst

/-- What stands before a literal names the table. -/
theorem insertHead_reads (hT : Name T) {replace b : Bool} {t c rest : String}
    (h : insertHead (lex ((if replace then "replace" else "insert or ignore") ++ (" into " ++
      (T ++ " (")) ++ rest)) = some (b, t, c)) : b = replace ∧ t = T := by
  have hpost : Opened (" (" ++ rest) := .append (by decide) (by decide) _
  have hinto : lex (" into " ++ (T ++ (" (" ++ rest))) =
      .word "into" :: lex (T ++ (" (" ++ rest)) := by
    rw [Sql.lex_closed (by decide)]
    rfl
  have hopened : Opened (" into " ++ (T ++ (" (" ++ rest))) := .append (by decide) (by decide) _
  have hword : ∀ k : String, fold k = k → ∀ ts, Sql.keyword k (.word k :: ts) = some ts :=
    fun k hk ts => Sql.keyword_eq hk ts
  -- the words in front of `into`
  have hwords : (((Sql.keyword "replace" (lex ((if replace then "replace"
        else "insert or ignore") ++ (" into " ++ (T ++ (" (" ++ rest)))))).map fun ts => (true, ts))
      <|> ((Sql.keywords ["insert", "or", "ignore"] (lex ((if replace then "replace"
        else "insert or ignore") ++ (" into " ++ (T ++ (" (" ++ rest)))))).map fun ts =>
          (false, ts))) = some (replace, .word "into" :: lex (T ++ (" (" ++ rest))) := by
    cases replace with
    | true =>
        have hlex : lex "replace" = [.word "replace"] := by decide
        rw [if_pos rfl, Sql.lex_opened hopened, hlex, hinto, List.singleton_append,
          hword "replace" (by decide)]
        rfl
    | false =>
        have hlex : lex "insert or ignore" = [.word "insert", .word "or", .word "ignore"] := by
          decide
        have hreplace : ∀ ts, Sql.keyword "replace" (.word "insert" :: ts) = none := by
          intro ts
          rw [Sql.keyword, if_neg (by decide)]
        rw [if_neg (by simp), Sql.lex_opened hopened, hlex, hinto]
        simp only [List.cons_append, List.nil_append, hreplace, Sql.keywords,
          hword "insert" (by decide), hword "or" (by decide), hword "ignore" (by decide),
          Option.bind_some]
        rfl
  simp only [String.append_assoc] at h
  unfold insertHead at h
  rw [hwords] at h
  obtain ⟨⟨b', ts₀⟩, hfirst, h⟩ := Option.bind_eq_some_iff.mp h
  obtain ⟨rfl, rfl⟩ := Prod.mk.inj (Option.some.inj hfirst)
  obtain ⟨ts, hts, h⟩ := Option.bind_eq_some_iff.mp h
  rw [hword "into" (by decide)] at hts
  obtain rfl := Option.some.inj hts
  obtain ⟨⟨t', ts'⟩, hname, h⟩ := Option.bind_eq_some_iff.mp h
  obtain ⟨ts₁, -, h⟩ := Option.bind_eq_some_iff.mp h
  obtain ⟨⟨c', ts₂⟩, -, h⟩ := Option.bind_eq_some_iff.mp h
  obtain ⟨ts₃, -, h⟩ := Option.bind_eq_some_iff.mp h
  obtain ⟨ts₄, -, h⟩ := Option.bind_eq_some_iff.mp h
  obtain ⟨ts₅, -, h⟩ := Option.bind_eq_some_iff.mp h
  cases ts₅ with
  | nil =>
      obtain ⟨hb, hrest⟩ := Prod.mk.inj (Option.some.inj h)
      exact ⟨hb.symm, (Prod.mk.inj hrest).1.symm.trans (name_start hpost hname hT)⟩
  | cons x xs => cases h

/-- The insert of one literal that is read in such a text. -/
theorem readInsert_value (hT : Name T) {C v : String} {replace : Bool} {i : LiteralInsert}
    (h : readInsert (insertValueText T C v replace) = some i) :
    i.replace = replace ∧ i.table = T := by
  let head := (if replace then "replace" else "insert or ignore") ++ (" into " ++ (T ++ " ("))
  have hplain : ∀ c ∈ head.toList, c ≠ '\'' ∧ c ≠ '\x00' := intoText_plain hT replace
  have htext : (insertValueText T C v replace).toList =
      head.toList ++ (C ++ (") values (" ++ (v ++ ")"))).toList := by
    simp [head, insertValueText]
  have hfront : String.ofList ((cString (insertValueText T C v replace)).toList.takeWhile
      (· ≠ '\'')) = head ++ String.ofList ((uncut
        (C ++ (") values (" ++ (v ++ ")"))).toList).takeWhile (· ≠ '\'')) := by
    rw [cString, String.toList_ofList, htext,
      List.takeWhile_append_of_pos fun c hc => by simpa using (hplain c hc).2,
      List.takeWhile_append_of_pos fun c hc => by simpa using (hplain c hc).1]
    exact String.toList_inj.mp (by simp [uncut])
  unfold readInsert at h
  dsimp only at h
  rw [hfront] at h
  generalize String.ofList ((uncut (C ++ (") values (" ++ (v ++ ")"))).toList).takeWhile
    (· ≠ '\'')) = rest at h
  split at h
  · rename_i b t c value more hhead hvalue
    obtain ⟨-, h⟩ := Option.ite_none_right_eq_some.mp h
    obtain rfl := Option.some.inj h
    exact insertHead_reads hT hhead
  · cases h

/-! ### Builders -/

/-- The statement of a builder is of the kind, and of the table. -/
def Issues (k : Kind) (T : String) (built : Except Fault (Option (String × List Obj))) : Prop :=
  ∀ sql values, built = .ok (some (sql, values)) → Reads k T sql

theorem insertText_issues {replace : Bool} {s : InsertState} {values : List Obj}
    (h : insertText T replace s = some (sql, values)) : Reads (.insert replace) T sql := by
  unfold insertText at h
  split at h
  · cases h
  · obtain ⟨rfl, -⟩ := Prod.mk.inj (Option.some.inj h)
    exact reads_insert replace _

theorem createInsertSQLWithColumns_issues (tableName : Option String) (columns : Option Columns)
    (replace : Bool) : Issues (.insert replace) (formatted (tableName.or m.cls.getTableName))
      (createInsertSQLWithColumns R m tableName columns replace) := by
  intro sql values h
  unfold createInsertSQLWithColumns at h
  split at h
  · cases h
  · rename_i tablename hname
    rw [hname, formatted, Option.getD_some]
    cases columns with
    | none =>
        obtain ⟨s, -, h⟩ := Loop.of_bind_ok h
        exact insertText_issues (Except.ok.inj h)
    | some columns =>
        obtain ⟨cs, -, h⟩ := Loop.of_bind_ok h
        obtain ⟨s, -, h⟩ := Loop.of_bind_ok h
        exact insertText_issues (Except.ok.inj h)

theorem createInsertSQL_issues (tableName : Option String) (replace : Bool) :
    Issues (.insert replace) (formatted (tableName.or m.cls.getTableName))
      (createInsertSQL R m tableName replace) :=
  createInsertSQLWithColumns_issues tableName none replace

theorem createInsertSQLWithModelAndBeginClass_issues (beginClass : ModelClass) (replace : Bool) :
    Issues (.insert replace) (formatted beginClass.getTableName)
      (createInsertSQLWithModelAndBeginClass R m beginClass replace) := by
  intro sql values h
  unfold createInsertSQLWithModelAndBeginClass at h
  split at h
  · cases h
  · rename_i tablename hname
    rw [hname, formatted, Option.getD_some]
    obtain ⟨s, -, h⟩ := Loop.of_bind_ok h
    exact insertText_issues (Except.ok.inj h)

/-- A text that goes on with a `WHERE` clause. -/
theorem extractWhereSql_issues {condition : Option Where} {flag : Bool} {model : Option Model}
    {r : Extracted} {head : String}
    (hreads : ∀ post, (post = "" ∨ ∃ clause, post = " where " ++ clause) →
      Reads k T (head ++ post))
    (h : extractWhereSql R head condition flag model = .ok r) : Reads k T r.sql := by
  obtain ⟨x, hsql, hx⟩ := extractWhereSql_shape h
  rw [hsql]
  exact hreads x hx

theorem updateText_reads (updateKey : String) : ∀ post,
    (post = "" ∨ ∃ clause, post = " where " ++ clause) →
      Reads .update T (updateText T updateKey ++ post) := by
  intro post _
  have htext : updateText T updateKey ++ post =
      "update " ++ (T ++ (" set " ++ (updateKey ++ (" " ++ post)))) := by
    simp only [updateText, String.append_assoc]
  rw [htext]
  exact reads_update _

theorem createUpdateSQLWithModelAndTableName_issues (tableName : Option String)
    (sets : Option Sets) (condition : Option Where) : Issues .update (formatted tableName)
      (createUpdateSQLWithModelAndTableName R m tableName sets condition) := by
  intro sql values h
  obtain ⟨⟨updateKey, updateValues⟩, -, h⟩ := Loop.of_bind_ok h
  obtain ⟨r, hr, h⟩ := Loop.of_bind_ok h
  split at h
  · cases h
  · obtain ⟨rfl, -⟩ := Prod.mk.inj (Option.some.inj (Except.ok.inj h))
    exact extractWhereSql_issues (updateText_reads updateKey) hr

theorem createUpdateSQLWithTableName_issues (tableName : Option String) (sets : Option Sets)
    (condition : Option Where) : Issues .update (formatted tableName)
      (createUpdateSQLWithTableName R tableName sets condition) := by
  -- what is set does not matter once it is text
  have hrest : ∀ (updateKey : String) (updateValues : List Obj), Issues .update
      (formatted tableName)
      (extractWhereSql R (updateText (formatted tableName) updateKey) condition false none >>=
        fun r => pure (some (r.sql, updateValues ++ r.values))) := by
    intro updateKey updateValues sql values h
    obtain ⟨r, hr, h⟩ := Loop.of_bind_ok h
    obtain ⟨rfl, -⟩ := Prod.mk.inj (Option.some.inj (Except.ok.inj h))
    exact extractWhereSql_issues (updateText_reads updateKey) hr
  have hassert : ∀ k : Unit → Except Fault (Option (String × List Obj)),
      Issues .update (formatted tableName) (k ()) →
      Issues .update (formatted tableName) (assertNo R >>= k) := by
    intro k hk sql values h
    obtain ⟨⟨⟩, -, h⟩ := Loop.of_bind_ok h
    exact hk sql values h
  rcases sets with _ | s | columns | dic | _
  · exact hassert _ (hrest "" [])
  · by_cases hassigns : hasSubstring s "=" = true
    · simp only [createUpdateSQLWithTableName, if_pos hassigns]
      exact hrest s []
    · simp only [createUpdateSQLWithTableName, if_neg hassigns]
      exact hassert _ (hrest "" [])
  · exact hassert _ (hrest "" [])
  · simp only [createUpdateSQLWithTableName]
    exact hrest _ _
  · exact hassert _ (hrest "" [])

theorem deleteText_reads : ∀ post, (post = "" ∨ ∃ clause, post = " where " ++ clause) →
    Reads .delete T (("DELETE FROM " ++ T) ++ post) := by
  intro post hpost
  rw [String.append_assoc]
  exact reads_delete hpost

theorem createDeleteSQLWithModelAndTableName_issues (tableName : Option String)
    (condition : Option Where) : Issues .delete (formatted (tableName.or m.cls.getTableName))
      (createDeleteSQLWithModelAndTableName R m tableName condition) := by
  intro sql values h
  obtain ⟨r, hr, h⟩ := Loop.of_bind_ok h
  split at h
  · cases h
  · obtain ⟨rfl, -⟩ := Prod.mk.inj (Option.some.inj (Except.ok.inj h))
    exact extractWhereSql_issues deleteText_reads hr

theorem createDeleteSQLWithTableName_issues (tableName : Option String)
    (condition : Option Where) : Issues .delete (formatted tableName)
      (createDeleteSQLWithTableName R tableName condition) := by
  have hrest : Issues .delete (formatted tableName) (do
      let result ← extractWhereSql R ("DELETE FROM " ++ formatted tableName) condition false none
      if result.error then return none else return some (result.sql, result.values)) := by
    intro sql values h
    obtain ⟨r, hr, h⟩ := Loop.of_bind_ok h
    split at h
    · cases h
    · obtain ⟨rfl, -⟩ := Prod.mk.inj (Option.some.inj (Except.ok.inj h))
      exact extractWhereSql_issues deleteText_reads hr
  intro sql values h
  unfold createDeleteSQLWithTableName at h
  by_cases hnone : condition.isNone = true
  · rw [if_pos hnone] at h
    obtain ⟨⟨⟩, -, h⟩ := Loop.of_bind_ok h
    exact hrest sql values h
  · rw [if_neg hnone] at h
    exact hrest sql values h

theorem createTableSQLWithTableName_reads {cls : ModelClass} {tableName : Option String}
    (h : createTableSQLWithTableName cls tableName = some sql) :
    Reads .create (formatted (tableName.or cls.getTableName)) sql := by
  unfold createTableSQLWithTableName at h
  split at h
  · cases h
  · rename_i T hT
    rw [hT, formatted, Option.getD_some]
    dsimp only at h
    split at h
    · cases h
    · obtain rfl := Option.some.inj h
      exact reads_create _

/-! ### Actions -/

/-- The changes of some kinds, to some tables. -/
def Changes (ks : List Kind) (Ts : List String) (k : Kind) (t : String) : Prop := k ∈ ks ∧ t ∈ Ts

/-- The action changes the database by changes of these kinds to these tables, when they have
names. -/
def Action.Within (R : Runtime) (ks : List Kind) (Ts : List String) (x : Action α) : Prop :=
  (∀ T ∈ Ts, Name T) → Steps.Within (Sql.Step R.conv (Changes ks Ts)) x

namespace Action.Within

variable {x : Action α} {f : α → Action β}

theorem of_unchanged (h : ∀ db, (x db).2 = db) : Action.Within R ks Ts x :=
  fun _ => Steps.Within.of_unchanged h

theorem pure (a : α) : Action.Within R ks Ts (pure a : Action α) := of_unchanged fun _ => rfl

theorem build (x : Except Fault α) : Action.Within R ks Ts (Action.build x) :=
  of_unchanged fun _ => rfl

theorem bind (hx : Action.Within R ks Ts x) (hf : ∀ a, Action.Within R ks Ts (f a)) :
    Action.Within R ks Ts (x >>= f) := by
  have hbind : x >>= f = Steps.andThen x f := by
    funext db
    rw [Action.bind_run]
    unfold Steps.andThen
    rcases x db with ⟨e | a, db'⟩ <;> rfl
  rw [hbind]
  exact fun hnames => Steps.Within.andThen (hx hnames) fun a => hf a hnames

theorem each {f : α → Action Unit} {xs : List α} (h : ∀ a ∈ xs, Action.Within R ks Ts (f a)) :
    Action.Within R ks Ts (Action.each f xs) := by
  induction xs with
  | nil => exact .pure ()
  | cons a xs ih =>
      exact .bind (h a List.mem_cons_self) fun _ => ih fun b hb => h b (List.mem_cons_of_mem _ hb)

theorem collect {f : α → Action (List β)} {xs : List α}
    (h : ∀ a ∈ xs, Action.Within R ks Ts (f a)) :
    Action.Within R ks Ts (Action.collect f xs) := by
  induction xs with
  | nil => exact .pure []
  | cons a xs ih =>
      exact .bind (h a List.mem_cons_self) fun _ =>
        .bind (ih fun b hb => h b (List.mem_cons_of_mem _ hb)) fun _ => .pure _

end Action.Within

variable {built : Except Fault (Option (String × List Obj))}

/-- A text outside the fragment. -/
theorem around_does (hT : Name T) (h : Around k T sql) (hnone : prepare sql = none)
    (args : List Obj) (db : Db) : (executeUpdate R sql args db).2 = db ∨
      k.Does R.conv T db (executeUpdate R sql args db).2 := by
  rw [executeUpdate_left hnone]
  cases h with
  | form form hform post =>
      obtain ⟨f, heffect, hacts⟩ := R.sqlite.acts form post (fold T)
      rw [hacts T hT rfl]
      cases hrun : Sql.onTable db T (f (args.map (bindObject R))) with
      | none => exact .inl rfl
      | some db' =>
          rw [Option.getD_some, ← hform]
          exact .inr (Sql.onTable_does (heffect _) hrun)
  | create hcreate post =>
      obtain ⟨o, hsound, hcreates⟩ := R.sqlite.creates hT post
      rw [hcreates, hcreate]
      split
      · exact .inl rfl
      · rename_i hfree
        cases o with
        | none => exact .inl rfl
        | some tbl =>
            exact .inr (.create (Option.not_isSome_iff_eq_none.mp hfree) (hsound tbl rfl))

/-- **A text that is executed** changes its table as its kind allows. -/
theorem executeUpdate_within (hk : k ∈ ks) (hT : T ∈ Ts) (h : Reads k T sql) (args : List Obj) :
    Action.Within R ks Ts (executeUpdate R sql args) := by
  intro hnames
  have hname := hnames T hT
  refine Steps.Within.of_step fun db => ?_
  cases hst : prepare sql with
  | none =>
      refine (around_does hname (h.around hname hst) hst args db).imp_right fun hdoes => ?_
      exact ⟨k, T, ⟨hk, hT⟩, hdoes⟩
  | some st =>
      obtain ⟨hkind, htable⟩ := h.prepared st hst
      unfold executeUpdate
      rw [hst]
      dsimp only
      split
      · exact .inl rfl
      · split
        · rename_i db' hexec
          have hdoes := Sql.exec_does hkind hexec
          rw [htable hname] at hdoes
          exact .inr ⟨k, T, ⟨hk, hT⟩, hdoes⟩
        · exact .inl rfl

theorem executeQuery_within (sql : String) (args : List Obj) :
    Action.Within R ks Ts (executeQuery R sql args) := by
  refine .of_unchanged fun db => ?_
  unfold executeQuery
  split
  · rfl
  · split <;> rfl

theorem executeBuilt_within (hk : k ∈ ks) (hT : T ∈ Ts) (h : Issues k T built) :
    Action.Within R ks Ts (executeBuilt R built) := by
  rcases built with e | (_ | ⟨sql, values⟩)
  · exact .of_unchanged fun _ => rfl
  · exact .of_unchanged fun _ => rfl
  · exact executeUpdate_within hk hT (h sql values rfl) values

theorem executeValues_within (hk : k ∈ ks) (hT : T ∈ Ts) (h : Issues k T built) :
    Action.Within R ks Ts (executeValues R built) := by
  rcases built with e | (_ | ⟨sql, values⟩)
  · exact .of_unchanged fun _ => rfl
  · exact .of_unchanged fun _ => rfl
  · show Action.Within R ks Ts (if values.length > 0 then executeUpdate R sql values
      else return false)
    split
    · exact executeUpdate_within hk hT (h sql values rfl) values
    · exact .pure false

theorem hasRow_within (built : Except Fault (Option (String × List Obj))) :
    Action.Within R ks Ts (hasRow R built) := by
  rcases built with e | (_ | ⟨sql, values⟩)
  · exact .of_unchanged fun _ => rfl
  · exact .of_unchanged fun _ => rfl
  · show Action.Within R ks Ts (executeQuery R sql values >>= fun rs => pure (!rs.isEmpty))
    exact .bind (executeQuery_within sql values) fun rs => .pure _

theorem tableExists_within (tableName : String) :
    Action.Within R ks Ts (tableExists R tableName) :=
  .of_unchanged fun _ => rfl

theorem getTableSchema_within (tableName : String) :
    Action.Within R ks Ts (getTableSchema tableName) :=
  .of_unchanged fun _ => rfl

theorem createTableIfNotExists_within (hk : .create ∈ ks) (hT : T ∈ Ts) (cls : ModelClass) :
    Action.Within R ks Ts (createTableIfNotExists R cls T) := by
  refine .bind (tableExists_within T) fun b => ?_
  cases b with
  | true => exact .pure ()
  | false =>
      rw [Bool.not_false, if_pos rfl]
      split
      · rename_i sql hsql
        exact .bind (executeUpdate_within hk hT (createTableSQLWithTableName_reads hsql) [])
          fun _ => .pure ()
      · exact .pure ()

theorem ignore_within {x : Action Bool} (hx : Action.Within R ks Ts x) :
    Action.Within R ks Ts (ignore x) :=
  .bind hx fun _ => .pure ()

theorem unit_within {x : Action α} (hx : Action.Within R ks Ts x) :
    Action.Within R ks Ts x.unit :=
  .bind hx fun _ => .pure ()

/-- The check that a table has a name. -/
theorem named_within {tableName : String} {x : Action Bool} (hx : Action.Within R ks Ts x) :
    Action.Within R ks Ts (do
      if tableName.length = 0 then
        Action.build (assertNo R)
        return false
      x) := by
  by_cases hlen : tableName.length = 0
  · simp only [if_pos hlen]
    exact .bind (.build _) fun _ => .pure false
  · simp only [if_neg hlen]
    exact hx

/-- An update or an insert, as a check decides. -/
theorem checked_within {update : Bool} {check x y : Action Bool}
    (hcheck : Action.Within R ks Ts check) (hx : update = true → Action.Within R ks Ts x)
    (hy : Action.Within R ks Ts y) : Action.Within R ks Ts (do
      let isExists ← if update then check else pure false
      if isExists then x else y) := by
  cases update with
  | true =>
      refine .bind hcheck fun isExists => ?_
      cases isExists with
      | true => exact hx rfl
      | false => exact hy
  | false => exact hy

theorem upsertResult_within {select update insert : Except Fault (Option (String × List Obj))}
    {T' : String} (hupdate : .update ∈ ks) (hinsert : .insert false ∈ ks) (hT : T ∈ Ts)
    (hT' : T' ∈ Ts) (hu : Issues .update T update) (hi : Issues (.insert false) T' insert) :
    Action.Within R ks Ts (upsertResult R select update insert) := by
  refine .bind (.build select) fun o => ?_
  cases o with
  | none => exact .pure false
  | some s =>
      refine .bind (executeQuery_within s.1 s.2) fun rs => ?_
      split
      · exact executeBuilt_within hupdate hT hu
      · exact executeBuilt_within hinsert hT' hi

/-! ### Blocks -/

/-- The block never asks for a rollback. -/
def Action.Commits (x : Action Bool) : Prop := ∀ db, (x db).1 ≠ .ok true

theorem commits_false : Action.Commits (pure false) := by
  intro db h
  cases h

theorem commits_bind {x : Action α} {f : α → Action Bool} (hf : ∀ a, (f a).Commits) :
    (x >>= f).Commits := by
  intro db h
  rw [Action.bind_run] at h
  rcases hrun : x db with ⟨e | a, db'⟩
  · rw [hrun] at h
    cases h
  · rw [hrun] at h
    exact hf a db' h

/-- What a block in a transaction leaves: it is committed, or an exception leaves it open. -/
theorem inTransactionOn_db {block : Action Bool} (h : block.Commits) (conn : DbConnection) :
    (inTransactionOn block conn).2.db = (block conn.db).2 := by
  unfold inTransactionOn
  have hno := h conn.db
  rcases hrun : block conn.db with ⟨e | shouldRollback, db'⟩
  · simp only [DbConnection.beginTransaction, hrun]
  · rw [hrun] at hno
    cases shouldRollback with
    | true => exact absurd rfl hno
    | false => simp [DbConnection.beginTransaction, DbConnection.commit, hrun]

theorem inTransactionOn_within {x : Action α} (hx : Action.Within R ks Ts x)
    (hnames : ∀ T ∈ Ts, Name T) (conn : DbConnection) :
    ReflTransGen (Sql.Step R.conv (Changes ks Ts)) conn.db
      (inTransactionOn (do let _ ← x; return false) conn).2.db := by
  rw [inTransactionOn_db (commits_bind fun _ => commits_false)]
  exact Action.Within.bind hx (fun _ => .pure false) hnames conn.db

/-- A batch in its transaction. -/
theorem run_within {execute : String → Action Bool} {w : BatchWrite} {array : List w.Element}
    (hstart : Action.Within R ks Ts (w.start R array))
    (helement : ∀ data ∈ array, Action.Within R ks Ts (w.element R execute data))
    (hnames : ∀ T ∈ Ts, Name T) (conn : DbConnection) :
    ReflTransGen (Sql.Step R.conv (Changes ks Ts)) conn.db (w.run R execute array conn).2.db := by
  have hcommits : Action.Commits (do
      w.start R array
      Action.each (fun data => ignore (w.element R execute data)) array
      return false) :=
    commits_bind fun _ => commits_bind fun _ => commits_false
  have hdb := inTransactionOn_db hcommits conn
  rw [BatchWrite.run, hdb]
  refine Action.Within.bind hstart (fun _ => .bind (.each ?_) fun _ => .pure false) hnames conn.db
  exact fun data hdata => ignore_within (helement data hdata)

end NBDataBase
