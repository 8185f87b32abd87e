import NBDataBase.Orm.Builders

/-!
# Orm — the texts as statements

SQLite reads each text the builders write as the statement it was meant to be, when the table and
the columns are names.

* `prepare_insert`, `prepare_update`, `prepare_delete`, `prepare_select`, `prepare_create`,
  `prepare_addColumn`.
* `prepare_update_nil`: the text of an update that sets no column is no statement.
-/

namespace NBDataBase
open Sql

/-! ### Lists -/

theorem lex_marks {α : Type} (l : List α) :
    lex (String.intercalate "," (l.map fun _ => "?")) = markTokens l.length := by
  induction l with
  | nil => rfl
  | cons x xs ih =>
      cases xs with
      | nil =>
          show lex (String.intercalate "," ["?"]) = markTokens 1
          decide
      | cons y ys =>
          have hmark : lex "?" = [.sym '?'] := by decide
          simp only [List.map_cons] at ih
          simp only [List.map_cons, lex_intercalate, ih, hmark]
          rfl

theorem lex_assignment {k : String} (hk : Word k) :
    lex (k ++ "=?") = [.word k, .sym '=', .sym '?'] :=
  lex_word_opened hk (by decide)

theorem lex_setText {keys : List String} (h : ∀ k ∈ keys, Word k) :
    lex (setText keys) = assignTokens keys := by
  induction keys with
  | nil => rfl
  | cons k ks ih =>
      have hk := lex_assignment (h k List.mem_cons_self)
      cases ks with
      | nil => simpa [setText, assignTokens] using hk
      | cons k' ks =>
          have ih := ih fun x hx => h x (List.mem_cons_of_mem _ hx)
          simp only [setText, List.map_cons] at ih
          simp only [setText, List.map_cons, lex_intercalate, hk, ih]
          rfl

/-! ### The primary key clause -/

theorem lex_key {k : String} (hk : Word k) :
    lex (" " ++ (k ++ "=? ")) = (Atom.eq k).tokens := by
  rw [lex_closed (by decide), lex_word_opened hk (by decide)]
  rfl

theorem keyText_concat {ks : List String} (h : ks ≠ []) (k : String) :
    keyText (ks ++ [k]) = keyText ks ++ ("and" ++ (" " ++ (k ++ "=? "))) := by
  have hlen : (keyText ks).length > 0 := Nat.pos_of_ne_zero fun e =>
    keyText_ne h (String.length_eq_zero_iff.mp e)
  simp only [keyText, List.foldl_append, List.foldl_cons, List.foldl_nil] at hlen ⊢
  rw [if_pos hlen]

theorem keyText_closed {ks : List String} : Closed (keyText ks) := by
  induction ks using List.reverseRecOn with
  | nil => decide
  | append_singleton ks k _ =>
      rw [keyText, List.foldl_append]
      exact Closed.append (Closed.append (Closed.append (Closed.append (b := "=? ") (by decide)
        (by decide) _) (append_ne_right (by decide)) _) (append_ne_left (by decide)) _)
        (append_ne_right (append_ne_left (by decide))) _

theorem keyText_opened {ks : List String} : Opened (keyText ks) := by
  induction ks using List.reverseRecOn with
  | nil => decide
  | append_singleton ks k ih =>
      by_cases hks : ks = []
      · subst hks
        exact Opened.append (a := " where ") (by decide) (by decide) (" " ++ (k ++ "=? "))
      · rw [keyText_concat hks]
        exact ih.append (keyText_ne hks) _

/-- The tokens of the primary key clause. -/
theorem lex_keyText {ks : List String} (h : ∀ k ∈ ks, Word k) :
    lex (keyText ks) = whereTokens (ks.map .eq) := by
  induction ks using List.reverseRecOn with
  | nil => rfl
  | append_singleton ks k ih =>
      have hk : Word k := h k (by simp)
      by_cases hks : ks = []
      · subst hks
        show lex (" where " ++ (" " ++ (k ++ "=? "))) = _
        rw [lex_closed (by decide), lex_key hk]
        rfl
      · have hne : ks.map Atom.eq ≠ [] := by simpa using hks
        rw [keyText_concat hks, lex_closed keyText_closed, lex_opened (a := "and"), lex_key hk,
          ih fun x hx => h x (List.mem_append_left _ hx), List.map_append]
        · rw [List.map_singleton, whereTokens, if_neg hne, whereTokens, if_neg (by simp),
            condTokens_concat hne]
          rfl
        · exact Opened.append (by decide) (by decide) _

/-- The clause of no key is empty; any other starts with `where`. -/
theorem keyText_where (ks : List String) : keyText ks = "" ∨ ∃ y, keyText ks = " where " ++ y := by
  induction ks using List.reverseRecOn with
  | nil => exact .inl rfl
  | append_singleton ks k ih =>
      by_cases hks : ks = []
      · subst hks
        exact .inr ⟨" " ++ (k ++ "=? "), rfl⟩
      · obtain h | ⟨y, hy⟩ := ih
        · exact absurd h (keyText_ne hks)
        · exact .inr ⟨_, by rw [keyText_concat hks, hy, String.append_assoc]⟩

/-- The tokens of a clause of that shape. -/
theorem lex_where {x : String} (h : x = "" ∨ ∃ y, x = " where " ++ y) :
    lex x = [] ∨ ∃ ts, lex x = .word "where" :: ts := by
  obtain rfl | ⟨y, rfl⟩ := h
  · exact .inl rfl
  · refine .inr ⟨lex y, ?_⟩
    rw [lex_closed (by decide)]
    rfl

theorem opened_where {x : String} (h : x = "" ∨ ∃ y, x = " where " ++ y) : Opened x := by
  obtain rfl | ⟨y, rfl⟩ := h
  · decide
  · exact Opened.append (by decide) (by decide) y

theorem eq_proper {ks : List String} (h : ∀ k ∈ ks, Name k) : ∀ a ∈ ks.map Atom.eq, a.Proper := by
  intro a ha
  obtain ⟨k, hk, rfl⟩ := List.mem_map.mp ha
  exact h k hk

/-- A text that SQLite reads as a `WHERE` clause of these conjuncts. -/
structure IsClause (x : String) (as : List Atom) : Prop where
  opened : Opened x
  tokens : lex x = whereTokens as
  proper : ∀ a ∈ as, a.Proper

/-- A clause is read. -/
theorem IsClause.read {x : String} {as : List Atom} (h : IsClause x as) :
    whereClause (lex x) = some as := by
  rw [h.tokens]
  exact whereClause_whereTokens h.proper

theorem keyText_isClause {ks : List String} (h : ∀ k ∈ ks, Name k) :
    IsClause (keyText ks) (ks.map .eq) :=
  ⟨keyText_opened, lex_keyText fun k hk => (h k hk).word, eq_proper h⟩

/-! ### Statements -/

variable {T : String} (hT : Name T)
include hT

/-! What SQLite reads after the name of the table does not depend on the name. -/

theorem prepare_insert_eq {post : String} (h : Opened post) :
    prepare ("insert " ++ ("or ignore into " ++ (T ++ post))) =
      (insertBody (lex post)).map fun r => .insert false T r.1 r.2 := by
  have hkeywords : ["insert", "or", if false then "replace" else "ignore", "into"].map fold =
      ["insert", "or", if false then "replace" else "ignore", "into"] := by decide
  have hinto : lex "or ignore into " = [.word "or", .word "ignore", .word "into"] := by decide
  have hinsert : lex "insert " = [.word "insert"] := by decide
  rw [prepare, lex_closed (by decide), lex_closed (by decide), lex_word_opened hT.word h, hinsert,
    hinto]
  exact parse_insert_eq hT false hkeywords _

theorem prepare_update_eq {post : String} (h : Opened post) :
    prepare ("update " ++ (T ++ post)) =
      (updateBody (lex post)).map fun r => .update T r.1 r.2 := by
  have hkeyword : fold "update" = "update" := by decide
  have hupdate : lex "update " = [.word "update"] := by decide
  rw [prepare, lex_closed (by decide), lex_word_opened hT.word h, hupdate]
  exact parse_update_eq hT hkeyword _

theorem prepare_select_eq {post : String} (h : Opened post) :
    prepare ("SELECT " ++ ("*" ++ (" FROM " ++ (T ++ post)))) =
      (whereClause (lex post)).map (.select T) := by
  have hkeywords : ["SELECT", "FROM"].map fold = ["select", "from"] := by decide
  have hselect : lex "SELECT " = [.word "SELECT"] := by decide
  have hstar : lex "*" = [.sym '*'] := by decide
  have hfrom : lex " FROM " = [.word "FROM"] := by decide
  rw [prepare, lex_closed (by decide), lex_closed (by decide), lex_closed (by decide),
    lex_word_opened hT.word h, hselect, hstar, hfrom]
  exact parse_select_eq hT hkeywords _

theorem prepare_create_eq {post : String} (h : Opened post) :
    prepare ("CREATE TABLE IF NOT EXISTS " ++ (T ++ post)) =
      (createBody (lex post)).map fun r => .create T r.1 r.2 := by
  have hkeywords : ["CREATE", "TABLE", "IF", "NOT", "EXISTS"].map fold =
      ["create", "table", "if", "not", "exists"] := by decide
  have hcreate : lex "CREATE TABLE IF NOT EXISTS " =
      [.word "CREATE", .word "TABLE", .word "IF", .word "NOT", .word "EXISTS"] := by decide
  rw [prepare, lex_closed (by decide), lex_word_opened hT.word h, hcreate]
  exact parse_create_eq hT hkeywords _

/-- The tokens of an `INSERT`. -/
theorem lex_insertText (replace : Bool) {α : Type} {l : List α} {cs : List String}
    (h : ∀ c ∈ cs, Word c) :
    lex ("insert " ++ ((if replace then "or replace into " else "or ignore into ") ++
      (T ++ (" (" ++ (String.intercalate "," cs ++ (") values (" ++
        (String.intercalate "," (l.map fun _ => "?") ++ ")"))))))) =
      .word "insert" :: .word "or" :: .word (if replace then "replace" else "ignore") ::
        .word "into" :: .word T :: .sym '(' :: commas cs ++
          (.sym ')' :: .word "values" :: .sym '(' :: markTokens l.length ++ [.sym ')']) := by
  have hinto : lex (if replace then "or replace into " else "or ignore into ") =
      [.word "or", .word (if replace then "replace" else "ignore"), .word "into"] := by
    cases replace <;> decide
  have hclosed : Closed (if replace then "or replace into " else "or ignore into ") := by
    cases replace <;> decide
  have hinsert : lex "insert " = [.word "insert"] := by decide
  have hopen : lex " (" = [.sym '('] := by decide
  have hvalues : lex ") values (" = [.sym ')', .word "values", .sym '('] := by decide
  have hclose : lex ")" = [.sym ')'] := by decide
  rw [lex_closed (by decide), lex_closed hclosed,
    lex_word_opened hT.word (Opened.append (by decide) (by decide) _),
    lex_closed (by decide), lex_opened (Opened.append (by decide) (by decide) _),
    lex_words h, lex_closed (a := ") values (") (by decide),
    lex_opened (b := ")") (by decide), lex_marks, hinto, hinsert, hopen, hvalues, hclose]
  simp

theorem prepare_insert (replace : Bool) {l : List (String × Obj)} (hl : l ≠ [])
    (h : ∀ e ∈ l, Name e.1) :
    ∃ sql, insertText T replace (.of l) = some (sql, l.map (·.2)) ∧
      prepare sql = some (.insert replace T (l.map (·.1)) l.length) := by
  have hkeys : ∀ c ∈ l.map (·.1), Name c := fun c hc => by
    obtain ⟨e, he, rfl⟩ := List.mem_map.mp hc
    exact h e he
  have hmarks : String.intercalate "," (l.map fun _ => "?") ≠ "" :=
    intercalate_ne (by simpa using hl) (by simp)
  have hkeywords : ["insert", "or", if replace then "replace" else "ignore", "into"].map fold =
      ["insert", "or", if replace then "replace" else "ignore", "into"] := by
    cases replace <;> decide
  have hne : l.map (·.1) ≠ [] := by simpa using hl
  have hparse := parse_insert hT replace hkeywords hne hkeys
  rw [InsertState.of_eq fun e he => (h e he).word.1, insertText, if_neg hmarks]
  refine ⟨_, rfl, ?_⟩
  rw [prepare, lex_insertText hT replace fun c hc => (hkeys c hc).word]
  rw [List.length_map] at hparse
  simpa using hparse

/-- The tokens of an `UPDATE` with a clause. -/
theorem lex_update {sets : List String} (hs : ∀ s ∈ sets, Word s) {x : String} (hx : Opened x) :
    lex (updateText T (setText sets) ++ x) =
      .word "update" :: .word T :: .word "set" :: assignTokens sets ++ lex x := by
  have hupdate : lex "update " = [.word "update"] := by decide
  have hset : lex " set " = [.word "set"] := by decide
  have hblank : lex " " = [] := by decide
  rw [lex_opened hx, updateText, lex_closed (by decide),
    lex_word_opened hT.word (Opened.append (by decide) (by decide) _), lex_closed (by decide),
    lex_opened (b := " ") (by decide), lex_setText hs, hupdate, hset, hblank]
  simp

/-- What SQLite reads in the text of an update: the columns it names are names, and they are the
ones it sets. -/
theorem prepare_update_inv {sets : List String} (hs : ∀ s ∈ sets, Word s) {x : String}
    (hx : x = "" ∨ ∃ y, x = " where " ++ y) {st : Stmt}
    (h : prepare (updateText T (setText sets) ++ x) = some st) :
    sets ≠ [] ∧ (∀ s ∈ sets, Name s) ∧ ∃ as, st = .update T sets as := by
  rw [prepare, lex_update hT hs (opened_where hx)] at h
  exact parse_update_inv hT (by decide) (lex_where hx) h

omit hT in
theorem updateText_form (S x : String) :
    updateText T S ++ x = Sql.Form.update.text T (S ++ (" " ++ x)) := by
  simp only [updateText, Sql.Form.text, String.append_assoc]

/-- An update of nothing, or of words that are not all names, is refused. -/
theorem update_refused {sets : List String} (hs : ∀ s ∈ sets, Word s)
    (h : sets = [] ∨ ¬ ∀ s ∈ sets, Name s) {x : String} (hx : x = "" ∨ ∃ y, x = " where " ++ y) :
    Sql.Refused (updateText T (setText sets) ++ x) := by
  rw [updateText_form]
  rcases h with rfl | h
  · rw [setText, List.map_nil, String.intercalate_nil, String.empty_append]
    exact .setNothing hT hx
  · exact .update hT ⟨hs, h⟩ x

theorem prepare_update {sets : List String} (hs : sets ≠ []) (hset : ∀ s ∈ sets, Name s)
    {x : String} {as : List Atom} (hx : IsClause x as) :
    prepare (updateText T (setText sets) ++ x) = some (.update T sets as) := by
  rw [prepare, lex_update hT (fun s h => (hset s h).word) hx.opened, hx.tokens]
  exact parse_update hT (by decide) hs hset hx.proper

/-- Nothing to set. -/
theorem prepare_update_nil (keys : List String) :
    prepare (updateText T (setText []) ++ keyText keys) = none := by
  by_contra h
  obtain ⟨st, h⟩ := Option.ne_none_iff_exists'.mp h
  have hwords : ∀ s ∈ ([] : List String), Word s := by simp
  exact (prepare_update_inv hT hwords (keyText_where keys) h).1 rfl

theorem prepare_delete {x : String} {as : List Atom} (hx : IsClause x as) :
    prepare ("DELETE FROM " ++ T ++ x) = some (.delete T as) := by
  have hkeywords : ["DELETE", "FROM"].map fold = ["delete", "from"] := by decide
  have hparse := parse_delete hT hkeywords hx.proper
  rw [prepare, lex_opened hx.opened, hx.tokens, lex_closed (by decide), lex_word hT.word]
  exact hparse

theorem prepare_select {x : String} {as : List Atom} (hx : IsClause x as) :
    prepare ("SELECT " ++ ("*" ++ (" FROM " ++ (T ++ x)))) = some (.select T as) := by
  have hkeywords : ["SELECT", "FROM"].map fold = ["select", "from"] := by decide
  have hparse := parse_select hT hkeywords hx.proper
  rw [prepare, lex_closed (by decide), lex_closed (by decide), lex_closed (by decide),
    lex_word_opened hT.word hx.opened, hx.tokens]
  exact hparse

omit hT in
theorem lex_defText {d : String × String} (h : Word d.1 ∧ Word d.2) :
    lex (defText d) = [.word d.1, .word d.2] := by
  rw [defText, lex_word_opened h.1 (Opened.append (by decide) (by decide) _),
    lex_closed (by decide), lex_word h.2]
  rfl

omit hT in
/-- The tokens of the definitions and of what ends a `CREATE TABLE`. -/
theorem lex_definitions {ds : List (String × String)} {pks : List String} (hne : ds ≠ [])
    (hd : ∀ d ∈ ds, Word d.1 ∧ Word d.2) (hp : ∀ p ∈ pks, Word p) :
    lex (String.intercalate "," (ds.map defText)) ++ lex (pkText pks ++ ")") =
      defTokens ds pks := by
  induction ds with
  | nil => exact absurd rfl hne
  | cons d ds ih =>
      have hdef := lex_defText (hd d List.mem_cons_self)
      cases ds with
      | nil =>
          cases pks with
          | nil =>
              have hclose : lex (pkText [] ++ ")") = [.sym ')'] := by decide
              simp [hdef, hclose, defTokens]
          | cons p pks =>
              have hkey : lex ",PRIMARY KEY(" =
                  [.sym ',', .word "PRIMARY", .word "KEY", .sym '('] := by decide
              have hclose : lex ")" = [.sym ')'] := by decide
              rw [pkText, if_neg (by simp), lex_opened (b := ")") (by decide),
                lex_closed (by decide), lex_opened (b := ")") (by decide), lex_words hp, hkey,
                hclose]
              simp [hdef, defTokens]
      | cons d' ds =>
          have ih := ih (by simp) fun x hx => hd x (List.mem_cons_of_mem _ hx)
          simp only [List.map_cons] at ih
          simp only [List.map_cons, lex_intercalate, hdef, List.cons_append, List.nil_append, ih,
            defTokens]

theorem prepare_create {ds : List (String × String)} {pks : List String} (hne : ds ≠ [])
    (hd : ∀ d ∈ ds, Name d.1 ∧ Name d.2) (hp : ∀ p ∈ pks, Name p) :
    prepare ("CREATE TABLE IF NOT EXISTS " ++ (T ++ (" (" ++
      (String.intercalate "," (ds.map defText) ++ (pkText pks ++ ")"))))) =
        some (.create T ds pks) := by
  have hkeywords : ["CREATE", "TABLE", "IF", "NOT", "EXISTS"].map fold =
      ["create", "table", "if", "not", "exists"] := by decide
  have hparse := parse_create hT hkeywords hne hd hp
  have hopened : Opened (pkText pks ++ ")") := by
    unfold pkText
    split
    · decide
    · rw [String.append_assoc]
      exact Opened.append (by decide) (by decide) _
  rw [prepare, lex_closed (by decide),
    lex_word_opened hT.word (Opened.append (by decide) (by decide) _), lex_closed (by decide),
    lex_opened hopened, lex_definitions hne (fun d h => ⟨(hd d h).1.word, (hd d h).2.word⟩)
      fun p h => (hp p h).word]
  exact hparse

theorem prepare_addColumn {c type : String} (hc : Name c) (htype : Name type) :
    prepare ("alter table " ++ (T ++ (" add column " ++ (c ++ (" " ++ type))))) =
      some (.addColumn T c type) := by
  have hkeywords : ["alter", "table", "add", "column"].map fold =
      ["alter", "table", "add", "column"] := by decide
  have hparse := parse_addColumn hT hkeywords hc htype
  rw [prepare, lex_closed (by decide),
    lex_word_opened hT.word (Opened.append (by decide) (by decide) _), lex_closed (by decide),
    lex_word_opened hc.word (Opened.append (by decide) (by decide) _), lex_closed (by decide),
    lex_word htype.word]
  exact hparse

end NBDataBase
