import NBDataBase.Sql.Assignments
import NBDataBase.Sql.Change

/-!
# SQL — texts outside the fragment

`prepare` reads a fragment of SQLite's grammar.  SQLite executes more: literals and expressions in
a clause, assignments of expressions, comments, a first statement with others behind it.  What it
does with such a text is left open (`Unread.update`, `Unread.query`); what it owes it is not.

* `Form`: the statements that are put around the name of a table.
* `Calm`: a text that leaves nothing open.  `Ground`: besides, it has no parameter.
* `Refused`, `RefusedQuery`: the texts outside the fragment that no grammar of SQLite has.
* `Unread`: the statements outside the fragment.  Each does to the one table that it names what its
  kind does, by the rows of that table alone, and makes a table once.  A `WHERE` clause that is
  read selects the rows of an `UPDATE`, whatever it assigns.

Outside are sub-selects of other tables, functions that do not depend on a row alone, columns that
are assigned by `rowid`, defaults and constraints of columns, and triggers.
-/

namespace Sql

/-! ### The statements around a name -/

/-- The statements that are put around the name of a table; `value` inserts a literal. -/
inductive Form where
  | addColumn | insert (replace : Bool) | value (replace : Bool) | update | delete

namespace Form

def kind : Form → Kind
  | addColumn => .addColumn
  | insert replace => .insert replace
  | value replace => .insert replace
  | update => .update
  | delete => .delete

/-- The statement, by the table and what stands behind the next keyword. -/
def text (T post : String) : Form → String
  | addColumn => "alter table " ++ (T ++ (" add column " ++ post))
  | insert replace => "insert " ++ ((if replace then "or replace into " else "or ignore into ") ++
      (T ++ (" (" ++ post)))
  | value replace => (if replace then "replace" else "insert or ignore") ++ (" into " ++
      (T ++ (" (" ++ post)))
  | update => "update " ++ (T ++ (" set " ++ post))
  | delete => "DELETE FROM " ++ (T ++ (" where " ++ post))

end Form

/-! ### Texts that leave nothing open -/

/-- From inside the quotes that the mark closes, if any: quotes are closed, there is no NUL, and
outside quotes neither a semicolon nor a comment nor a character of `marks`. -/
def calmFrom (marks : List Char) : Option Char → List Char → Bool
  | none, [] => true
  | some _, [] => false
  | some q, c :: cs => c != '\x00' && calmFrom marks (if c = q then none else some q) cs
  | none, c :: cs => c ∉ '\x00' :: ';' :: marks && !(c == '-' && cs.head? == some '-') &&
      !(c == '/' && cs.head? == some '*') && calmFrom marks (closing c) cs

/-- A text that leaves nothing open. -/
def Calm (s : String) : Prop := calmFrom [] none s.toList = true

/-- The characters that a parameter starts with. -/
def parameterMarks : List Char := ['?', ':', '@', '$', '#']

/-- Besides, a text without parameters. -/
def Ground (s : String) : Prop := calmFrom parameterMarks none s.toList = true

instance (s : String) : Decidable (Calm s) := inferInstanceAs (Decidable (_ = _))
instance (s : String) : Decidable (Ground s) := inferInstanceAs (Decidable (_ = _))

example : Ground "_name='why; not?',_age=_age+1" := by decide

example : ¬ Calm "tb_books --" := by decide

theorem calmFrom_cons {marks : List Char} {c : Char} {cs : List Char}
    (h : calmFrom marks none (c :: cs) = true) :
    c ∉ marks ∧ calmFrom marks (closing c) cs = true := by
  simp only [calmFrom, List.mem_cons, not_or, Bool.and_eq_true, decide_eq_true_eq] at h
  exact ⟨h.1.1.1.2.2, h.2⟩

theorem closing_blank {c : Char} (h : isBlank c = true) : closing c = none := by
  simp only [isBlank, Bool.or_eq_true, beq_iff_eq] at h
  rcases h with (((rfl | rfl) | rfl) | rfl) | rfl <;> decide

/-- A text that starts with a word starts with its token. -/
theorem lexFrom_head {w cs : List Char} (hw : w ≠ []) :
    ∃ a ts, lexFrom w cs = .word a :: ts := by
  induction cs generalizing w with
  | nil => exact ⟨_, [], by rw [lexFrom, flush, if_neg hw]⟩
  | cons c cs ih =>
      rw [lexFrom]
      split
      · exact ih (List.cons_ne_nil c w)
      · split
        · exact ⟨_, _, by rw [flush, if_neg hw]; rfl⟩
        · exact ⟨_, _, by rw [flush, if_neg hw]; rfl⟩

/-- The symbol that a calm text starts with, and what stands behind it. -/
theorem calm_symbol {marks cs : List Char} {d : Char} {ts : List Token}
    (hcalm : calmFrom marks none cs = true) (h : lexFrom [] cs = .sym d :: ts) :
    ∃ rest, calmFrom marks none (d :: rest) = true ∧ lexFrom [] rest = ts := by
  induction cs with
  | nil => cases h
  | cons c cs ih =>
      rw [lexFrom] at h
      by_cases hword : isWordChar c = true
      · rw [if_pos hword] at h
        obtain ⟨a, ts', ha⟩ := (lexFrom_head (List.cons_ne_nil c []) : ∃ a ts, lexFrom [c] cs =
          .word a :: ts)
        rw [ha] at h
        cases h
      · rw [if_neg hword] at h
        by_cases hblank : isBlank c = true
        · rw [if_pos hblank] at h
          refine ih ?_ h
          rw [← closing_blank hblank]
          exact (calmFrom_cons hcalm).2
        · rw [if_neg hblank] at h
          obtain ⟨hd, hts⟩ := List.cons.inj h
          obtain rfl := Token.sym.inj hd
          exact ⟨cs, hcalm, hts⟩

/-- A text without parameters does not start with the assignment of one. -/
theorem ground_lexFrom {w cs : List Char} (hground : calmFrom parameterMarks none cs = true)
    {a : String} {ts : List Token} :
    lexFrom w cs ≠ .word a :: .sym '=' :: .sym '?' :: ts := by
  -- behind the word stand an equals sign and a parameter
  have hrest : ∀ cs : List Char, calmFrom parameterMarks none cs = true →
      lexFrom [] cs ≠ .sym '=' :: .sym '?' :: ts := by
    intro cs hcs h
    obtain ⟨rest, hrest, h⟩ := calm_symbol hcs h
    obtain ⟨rest', hmark, -⟩ := calm_symbol (calmFrom_cons hrest).2 h
    exact (calmFrom_cons hmark).1 (by decide)
  induction cs generalizing w with
  | nil =>
      intro h
      rw [lexFrom, flush] at h
      split at h <;> cases h
  | cons c cs ih =>
      obtain ⟨-, hnext⟩ := calmFrom_cons hground
      intro h
      rw [lexFrom] at h
      by_cases hword : isWordChar c = true
      · rw [if_pos hword] at h
        rw [closing_wordChar hword] at hnext
        exact ih hnext h
      · rw [if_neg hword] at h
        by_cases hblank : isBlank c = true
        · rw [if_pos hblank] at h
          rw [closing_blank hblank] at hnext
          by_cases hw : w = []
          · subst hw
            exact ih hnext h
          · rw [flush, if_neg hw] at h
            exact hrest cs hnext (List.cons.inj h).2
        · rw [if_neg hblank] at h
          by_cases hw : w = []
          · subst hw
            cases h
          · rw [flush, if_neg hw] at h
            obtain ⟨-, h⟩ := List.cons.inj h
            obtain ⟨hc, hmark⟩ := List.cons.inj h
            obtain rfl := Token.sym.inj hc
            obtain ⟨rest, hrest, -⟩ := calm_symbol hnext hmark
            exact (calmFrom_cons hrest).1 (by decide)

theorem assignments_start {ts : List Token} {r : List String × List Token}
    (h : assignments ts = some r) :
    ∃ a rest, Name a ∧ ts = .word a :: .sym '=' :: .sym '?' :: rest := by
  unfold assignments at h
  split at h
  · exact ⟨_, _, (Option.ite_none_right_eq_some.mp h).1, rfl⟩
  · exact ⟨_, _, (Option.ite_none_right_eq_some.mp h).1, rfl⟩
  · cases h

/-- **A text without parameters** in front of a clause is no list of assignments of the
fragment. -/
theorem assignments_ground {s : String} (hs : Ground s) (rest : List Token) :
    assignments (lex s ++ .word "where" :: rest) = none := by
  by_contra hsome
  obtain ⟨r, hr⟩ := Option.ne_none_iff_exists'.mp hsome
  obtain ⟨a, ts, ha, hts⟩ := assignments_start hr
  have hlex : ∀ ts, lex s ≠ .word a :: .sym '=' :: .sym '?' :: ts := fun ts => ground_lexFrom hs
  -- the keyword is none of the three tokens
  rcases hs' : lex s with _ | ⟨t, _ | ⟨u, _ | ⟨v, l⟩⟩⟩
  · rw [hs'] at hts
    obtain rfl := Token.word.inj (List.cons.inj hts).1
    exact absurd ha (by decide)
  · rw [hs'] at hts
    cases (List.cons.inj (List.cons.inj hts).2).1
  · rw [hs'] at hts
    cases (List.cons.inj (List.cons.inj (List.cons.inj hts).2).2).1
  · rw [hs', List.cons_append, List.cons_append, List.cons_append] at hts
    obtain ⟨ht, h₁⟩ := List.cons.inj hts
    obtain ⟨hu, h₂⟩ := List.cons.inj h₁
    exact hlex l (by rw [hs', ht, hu, (List.cons.inj h₂).1])

/-! ### Texts that are refused -/

/-- A column that is no name, among words with commas between them. -/
def Unnamed (cs : List String) : Prop := (∀ c ∈ cs, Word c) ∧ ¬ ∀ c ∈ cs, Name c

/-- Texts with an error in their grammar. -/
inductive Refused : String → Prop
  /-- The keyword without its clause. -/
  | dangling {s : String} (h : Calm s) : Refused (s ++ " where ")
  | insert {T : String} (hT : Name T) (replace : Bool) {cs : List String} (hcs : Unnamed cs)
      (post : String) :
      Refused ((Form.insert replace).text T (String.intercalate "," cs ++ (") values (" ++ post)))
  | update {T : String} (hT : Name T) {cs : List String} (hcs : Unnamed cs) (post : String) :
      Refused (Form.update.text T
        (String.intercalate "," (cs.map fun c => c ++ "=?") ++ (" " ++ post)))
  /-- Nothing to set. -/
  | setNothing {T : String} (hT : Name T) {post : String}
      (h : post = "" ∨ ∃ clause, post = " where " ++ clause) :
      Refused (Form.update.text T (" " ++ post))
  /-- A table without a name. -/
  | updateUnnamed {T : String} (hT : T = "" ∨ T = "(null)") (post : String) :
      Refused (Form.update.text T post)

/-- The conjuncts `c=?` of a clause. -/
def keyClause (cs : List String) : String :=
  cs.foldl (fun s c => s ++ ((if s.length > 0 then "and" else " where ") ++
    (" " ++ (c ++ "=? ")))) ""

/-- Queries with an error in their grammar. -/
inductive RefusedQuery : String → Prop
  | select {T : String} (hT : Name T) {cs : List String} (hcs : Unnamed cs) :
      RefusedQuery ("SELECT " ++ ("*" ++ (" FROM " ++ (T ++ keyClause cs))))

/-! ### Statements outside the fragment -/

/-- An update of some rows. -/
structure Table.UpdatesOnly (P : Row → Bool) (tbl tbl' : Table) : Prop where
  columns : tbl'.columns = tbl.columns
  primaryKey : tbl'.primaryKey = tbl.primaryKey
  rows : List.Forall₂ (fun r r' => P r = false → r' = r) tbl.rows tbl'.rows

/-- SQLite on the texts outside the fragment. -/
structure Unread (conv : Conversions) where
  /-- The database after a text with its values, or none when SQLite rejects it. -/
  update : String → List Value → Db → Option Db
  /-- The rows of a text with its values. -/
  query : String → List Value → Db → List Row
  /-- A statement does to its table what its kind does, whatever stands behind the table. -/
  acts (form : Form) (post n : String) : ∃ f : List Value → Table → Option Table,
    (∀ vs tbl tbl', f vs tbl = some tbl' → form.kind.Effect conv tbl tbl') ∧
    ∀ T, Name T → fold T = n → ∀ vs db, update (form.text T post) vs db = onTable db T (f vs)
  /-- A table is created, if there is none of its name. -/
  creates {T : String} (hT : Name T) (post : String) : ∃ o : Option Table,
    (∀ tbl, o = some tbl → tbl.Sound conv) ∧
    ∀ vs db, (update ("CREATE TABLE IF NOT EXISTS " ++ (T ++ (" (" ++ post))) vs db).getD db =
      if (db (fold T)).isSome then db
      else o.elim db fun tbl => Function.update db (fold T) (some tbl)
  /-- Any text of this kind creates its table once. -/
  once (text : String) : ∃ (n : String) (make : Option (Db → Table)),
    ∀ vs db, (update ("CREATE TABLE IF NOT EXISTS " ++ text) vs db).getD db =
      if (db n).isSome then db
      else make.elim db fun make => Function.update db n (some (make db))
  /-- Inserts and updates neither make nor remove a table. -/
  stays {keyword : String} (hkeyword : keyword = "insert " ∨ keyword = "update ") (text : String)
    {vs : List Value} {db db' : Db} (h : update (keyword ++ text) vs db = some db') (n : String) :
    (db' n).isSome = (db n).isSome
  refuses {sql : String} (h : Refused sql) (vs : List Value) (db : Db) : update sql vs db = none
  misses {sql : String} (h : RefusedQuery sql) (vs : List Value) (db : Db) : query sql vs db = []
  /-- A clause that is read selects the rows of an update, whatever is assigned. -/
  selects {T S x : String} {as : List Atom} (hT : Name T) (hS : Ground S)
    (hx : whereClause (lex x) = some as) (hwhere : ∃ clause, x = " where " ++ clause)
    {vs : List Value} {db db' : Db} {tbl : Table} (htbl : db (fold T) = some tbl)
    (h : update (Form.update.text T (S ++ (" " ++ x))) vs db = some db') :
    ∃ tbl', db' = Function.update db (fold T) (some tbl') ∧
      tbl.UpdatesOnly (satisfies conv tbl (bind as vs)) tbl'

/-- The statements outside the fragment are all rejected. -/
def Unread.none (conv : Conversions) : Unread conv where
  update _ _ _ := Option.none
  query _ _ _ := []
  acts form post n := by
    refine ⟨fun _ _ => Option.none, fun _ _ _ h => (by cases h), fun T _ _ vs db => ?_⟩
    cases hdb : db (fold T) <;> simp [onTable, hdb]
  creates _ _ := ⟨Option.none, fun _ h => (by cases h), fun _ _ => by simp⟩
  once _ := ⟨"", Option.none, fun _ _ => by simp⟩
  stays := by
    intro _ _ _ _ _ _ h
    cases h
  refuses _ _ _ := rfl
  misses _ _ _ := rfl
  selects := by
    intro _ _ _ _ _ _ _ _ _ _ _ _ _ h
    cases h

end Sql
