import NBDataBase.Sql.Lex

/-!
# SQL — statements

A fragment of SQLite's grammar with positional parameters, and its parser.

* `Stmt`: `CREATE TABLE IF NOT EXISTS`, `ALTER TABLE … ADD COLUMN`, `INSERT OR REPLACE` and
  `INSERT OR IGNORE`, `UPDATE`, `DELETE` and `SELECT *`.  A `WHERE` clause is a conjunction of
  `c = ?` and `c IN (?, …)`.
* `prepare`: the statement of a text, when it is one of the fragment.
* `parse_…`: the parser reads back the tokens of each statement.
* `parse_delete_word`, `parse_update_word`: a text that ends in a keyword is none.
-/

namespace Sql

/-- ASCII lower case. -/
def fold (s : String) : String := String.ofList (s.toList.map Char.toLower)

/-- The keywords SQLite does not take as a name. -/
def reserved : List String :=
  ["add", "all", "alter", "and", "as", "autoincrement", "between", "case", "check", "collate",
    "commit", "constraint", "create", "default", "deferrable", "delete", "distinct", "drop",
    "else", "escape", "except", "exists", "foreign", "from", "group", "having", "in", "index",
    "insert", "intersect", "into", "is", "isnull", "join", "limit", "not", "nothing", "notnull",
    "null", "on", "or", "order", "primary", "references", "returning", "select", "set", "table",
    "then", "to", "transaction", "union", "unique", "update", "using", "values", "when", "where"]

/-- What SQLite takes as an unquoted name. -/
def Name (s : String) : Prop :=
  Word s ∧ (∀ c ∈ s.toList.head?, c.isDigit = false ∧ c ≠ '$') ∧ fold s ∉ reserved

instance (s : String) : Decidable (Name s) :=
  have : Decidable (∀ c ∈ s.toList.head?, c.isDigit = false ∧ c ≠ '$') :=
    Option.decidableForallMem s.toList.head?
  inferInstanceAs (Decidable (Word s ∧ (∀ c ∈ s.toList.head?, c.isDigit = false ∧ c ≠ '$') ∧
    fold s ∉ reserved))

theorem Name.word {s : String} (h : Name s) : Word s := h.1

theorem Name.ne_keyword {s k : String} (h : Name s) (hk : k ∈ reserved) : fold s ≠ k :=
  fun e => h.2.2 (e ▸ hk)

/-- One conjunct of a `WHERE` clause. -/
inductive Atom where
  | eq (column : String)
  | isIn (column : String) (params : ℕ)
  deriving DecidableEq, Repr

namespace Atom

def column : Atom → String
  | eq c => c
  | isIn c _ => c

def params : Atom → ℕ
  | eq _ => 1
  | isIn _ n => n

end Atom

/-- The statements of the fragment.  An empty `conds` is no `WHERE` clause. -/
inductive Stmt where
  | create (table : String) (columns : List (String × String)) (primaryKey : List String)
  | addColumn (table column type : String)
  | insert (replace : Bool) (table : String) (columns : List String) (params : ℕ)
  | update (table : String) (sets : List String) (conds : List Atom)
  | delete (table : String) (conds : List Atom)
  | select (table : String) (conds : List Atom)
  deriving DecidableEq, Repr

/-! ### The parser -/

section Parser

def keyword (k : String) : List Token → Option (List Token)
  | .word s :: ts => if fold s = k then some ts else none
  | _ => none

def keywords : List String → List Token → Option (List Token)
  | [], ts => some ts
  | k :: ks, ts => (keyword k ts).bind (keywords ks)

def symbol (c : Char) : List Token → Option (List Token)
  | .sym d :: ts => if d = c then some ts else none
  | _ => none

def name : List Token → Option (String × List Token)
  | .word s :: ts => if Name s then some (s, ts) else none
  | _ => none

/-- Names with commas between them. -/
def names : List Token → Option (List String × List Token)
  | .word s :: .sym ',' :: ts =>
      if Name s then (names ts).map fun r => (s :: r.1, r.2) else none
  | .word s :: ts => if Name s then some ([s], ts) else none
  | _ => none

/-- Parameters with commas between them. -/
def marks : List Token → Option (ℕ × List Token)
  | .sym '?' :: .sym ',' :: ts => (marks ts).map fun r => (r.1 + 1, r.2)
  | .sym '?' :: ts => some (1, ts)
  | _ => none

/-- The assignments `c = ?` of an `UPDATE`. -/
def assignments : List Token → Option (List String × List Token)
  | .word s :: .sym '=' :: .sym '?' :: .sym ',' :: ts =>
      if Name s then (assignments ts).map fun r => (s :: r.1, r.2) else none
  | .word s :: .sym '=' :: .sym '?' :: ts => if Name s then some ([s], ts) else none
  | _ => none

/-- The column definitions of a `CREATE TABLE`, up to its end. -/
def definitions : List Token → Option (List (String × String) × List String)
  | .word s :: .word t :: .sym ',' :: ts =>
      if Name s ∧ Name t then (definitions ts).map fun r => ((s, t) :: r.1, r.2) else none
  | .word s :: .word t :: .sym '(' :: ts =>
      if fold s = "primary" ∧ fold t = "key" then
        match names ts with
        | some (pks, [.sym ')', .sym ')']) => some ([], pks)
        | _ => none
      else none
  | [.word s, .word t, .sym ')'] => if Name s ∧ Name t then some ([(s, t)], []) else none
  | _ => none

/-- A conjunction up to the end of the text.  The first argument is the list that is open: its
column and the parameters it has so far. -/
def conjunction : Option (String × ℕ) → List Token → Option (List Atom)
  | none, [.word c, .sym '=', .sym '?'] => if Name c then some [.eq c] else none
  | none, .word c :: .sym '=' :: .sym '?' :: .word a :: ts =>
      if Name c ∧ fold a = "and" then (conjunction none ts).map (.eq c :: ·) else none
  | none, .word c :: .word i :: .sym '(' :: ts =>
      if Name c ∧ fold i = "in" then conjunction (some (c, 0)) ts else none
  | some (c, n), .sym '?' :: .sym ',' :: ts => conjunction (some (c, n + 1)) ts
  | some (c, n), [.sym '?', .sym ')'] => some [.isIn c (n + 1)]
  | some (c, n), .sym '?' :: .sym ')' :: .word a :: ts =>
      if fold a = "and" then (conjunction none ts).map (.isIn c (n + 1) :: ·) else none
  | _, _ => none

def whereClause : List Token → Option (List Atom)
  | [] => some []
  | ts => (keyword "where" ts).bind (conjunction none)

def createBody (ts : List Token) : Option (List (String × String) × List String) := do
  let ts ← symbol '(' ts
  definitions ts

def parseCreate (ts : List Token) : Option Stmt := do
  let ts ← keywords ["create", "table", "if", "not", "exists"] ts
  let (t, ts) ← name ts
  let (columns, primaryKey) ← createBody ts
  return .create t columns primaryKey

def parseAddColumn (ts : List Token) : Option Stmt := do
  let ts ← keywords ["alter", "table"] ts
  let (t, ts) ← name ts
  let ts ← keywords ["add", "column"] ts
  let (c, ts) ← name ts
  match ← name ts with
  | (type, []) => return .addColumn t c type
  | _ => none

/-- `OR REPLACE` or `OR IGNORE`. -/
def conflict : List Token → Option (Bool × List Token)
  | .word o :: .word s :: ts =>
      if fold o ≠ "or" then none
      else if fold s = "replace" then some (true, ts)
      else if fold s = "ignore" then some (false, ts)
      else none
  | _ => none

/-- The columns and the parameters of an `INSERT`. -/
def insertBody (ts : List Token) : Option (List String × ℕ) := do
  let ts ← symbol '(' ts
  let (columns, ts) ← names ts
  let ts ← symbol ')' ts
  let ts ← keyword "values" ts
  let ts ← symbol '(' ts
  match ← marks ts with
  | (n, [.sym ')']) => if n = columns.length then return (columns, n) else none
  | _ => none

def parseInsert (ts : List Token) : Option Stmt := do
  let ts ← keyword "insert" ts
  let (replace, ts) ← conflict ts
  let ts ← keyword "into" ts
  let (t, ts) ← name ts
  let (columns, n) ← insertBody ts
  return .insert replace t columns n

/-- What an `UPDATE` sets, and its conjuncts. -/
def updateBody (ts : List Token) : Option (List String × List Atom) := do
  let ts ← keyword "set" ts
  let (sets, ts) ← assignments ts
  let conds ← whereClause ts
  return (sets, conds)

def parseUpdate (ts : List Token) : Option Stmt := do
  let ts ← keyword "update" ts
  let (t, ts) ← name ts
  let (sets, conds) ← updateBody ts
  return .update t sets conds

def parseDelete (ts : List Token) : Option Stmt := do
  let ts ← keywords ["delete", "from"] ts
  let (t, ts) ← name ts
  let conds ← whereClause ts
  return .delete t conds

def parseSelect (ts : List Token) : Option Stmt := do
  let ts ← keyword "select" ts
  let ts ← symbol '*' ts
  let ts ← keyword "from" ts
  let (t, ts) ← name ts
  let conds ← whereClause ts
  return .select t conds

def parse (ts : List Token) : Option Stmt :=
  parseCreate ts <|> parseAddColumn ts <|> parseInsert ts <|> parseUpdate ts <|>
    parseDelete ts <|> parseSelect ts

/-- The statement of a text of the fragment. -/
def prepare (sql : String) : Option Stmt := parse (lex sql)

end Parser

example : prepare "SELECT * FROM t where  a=? and b in(?,?)" =
    some (.select "t" [.eq "a", .isIn "b" 2]) := by decide

example : prepare "update t set   where  a=? " = none := by decide

/-! ### Reading a statement back -/

theorem keyword_eq {k s : String} (h : fold s = k) (ts : List Token) :
    keyword k (.word s :: ts) = some ts := by simp [keyword, h]

theorem symbol_eq (c : Char) (ts : List Token) : symbol c (.sym c :: ts) = some ts := by
  simp [symbol]

theorem name_eq {s : String} (h : Name s) (ts : List Token) :
    name (.word s :: ts) = some (s, ts) := by simp [name, h]

/-- What does not go on a list: it does not start with a comma. -/
def Ends (ts : List Token) : Prop := ∀ t ∈ ts.head?, t ≠ .sym ','

theorem names_commas {ss : List String} (hne : ss ≠ []) (h : ∀ s ∈ ss, Name s)
    {rest : List Token} (hr : Ends rest) : names (commas ss ++ rest) = some (ss, rest) := by
  induction ss with
  | nil => exact absurd rfl hne
  | cons s ts ih =>
      have hs : Name s := h s List.mem_cons_self
      cases ts with
      | nil =>
          cases rest with
          | nil => simp [commas, names, hs]
          | cons t rest =>
              have ht : t ≠ .sym ',' := hr t rfl
              simp [commas, names, hs, ht]
      | cons t ts =>
          have ih' := ih (by simp) fun s hs => h s (List.mem_cons_of_mem _ hs)
          simp [commas, names, hs, ih']

/-- A list of words that are not all names is rejected. -/
theorem names_commas_none {ss : List String} (h : ¬ ∀ s ∈ ss, Name s) {rest : List Token}
    (hr : Ends rest) : names (commas ss ++ rest) = none := by
  induction ss with
  | nil => exact absurd (by simp) h
  | cons s ts ih =>
      cases ts with
      | nil =>
          have hs : ¬ Name s := by simpa using h
          cases rest with
          | nil => simp [commas, names, hs]
          | cons t rest =>
              have ht : t ≠ .sym ',' := hr t rfl
              simp [commas, names, hs, ht]
      | cons t ts =>
          by_cases hs : Name s
          · have ih' := ih (by simpa [hs] using h)
            simp [commas, names, hs, ih']
          · simp [commas, names, hs]

/-- The tokens of `n` parameters with commas between them. -/
def markTokens : ℕ → List Token
  | 0 => []
  | 1 => [.sym '?']
  | n + 2 => .sym '?' :: .sym ',' :: markTokens (n + 1)

theorem marks_markTokens {n : ℕ} (hn : n ≠ 0) {rest : List Token} (hr : Ends rest) :
    marks (markTokens n ++ rest) = some (n, rest) := by
  induction n using markTokens.induct with
  | case1 => exact absurd rfl hn
  | case2 =>
      cases rest with
      | nil => rfl
      | cons t rest =>
          have ht : t ≠ .sym ',' := hr t rfl
          simp [markTokens, marks, ht]
  | case3 n ih => simp [markTokens, marks, ih]

/-- The tokens of the assignments of an `UPDATE`. -/
def assignTokens : List String → List Token
  | [] => []
  | [s] => [.word s, .sym '=', .sym '?']
  | s :: t :: ts => .word s :: .sym '=' :: .sym '?' :: .sym ',' :: assignTokens (t :: ts)

theorem assignments_assignTokens {ss : List String} (hne : ss ≠ []) (h : ∀ s ∈ ss, Name s)
    {rest : List Token} (hr : Ends rest) :
    assignments (assignTokens ss ++ rest) = some (ss, rest) := by
  induction ss with
  | nil => exact absurd rfl hne
  | cons s ts ih =>
      have hs : Name s := h s List.mem_cons_self
      cases ts with
      | nil =>
          cases rest with
          | nil => simp [assignTokens, assignments, hs]
          | cons t rest =>
              have ht : t ≠ .sym ',' := hr t rfl
              simp [assignTokens, assignments, hs, ht]
      | cons t ts =>
          have ih' := ih (by simp) fun s hs => h s (List.mem_cons_of_mem _ hs)
          simp [assignTokens, assignments, hs, ih']

theorem assignments_of_not_name {s : String} (h : ¬ Name s) (ts : List Token) :
    assignments (.word s :: ts) = none := by
  unfold assignments
  split <;> simp_all

theorem assignments_assignTokens_none {ss : List String} (h : ¬ ∀ s ∈ ss, Name s)
    {rest : List Token} (hr : Ends rest) : assignments (assignTokens ss ++ rest) = none := by
  induction ss with
  | nil => exact absurd (by simp) h
  | cons s ts ih =>
      cases ts with
      | nil =>
          have hs : ¬ Name s := by simpa using h
          cases rest with
          | nil => simp [assignTokens, assignments, hs]
          | cons t rest =>
              have ht : t ≠ .sym ',' := hr t rfl
              simp [assignTokens, assignments, hs, ht]
      | cons t ts =>
          by_cases hs : Name s
          · have ih' := ih (by simpa [hs] using h)
            simp [assignTokens, assignments, hs, ih']
          · simp [assignTokens, assignments, hs]

/-- The tokens of one conjunct. -/
def Atom.tokens : Atom → List Token
  | eq c => [.word c, .sym '=', .sym '?']
  | isIn c n => .word c :: .word "in" :: .sym '(' :: markTokens n ++ [.sym ')']

/-- The tokens of a conjunction. -/
def condTokens : List Atom → List Token
  | [] => []
  | [a] => a.tokens
  | a :: b :: as => a.tokens ++ .word "and" :: condTokens (b :: as)

theorem condTokens_concat {as : List Atom} (hne : as ≠ []) (a : Atom) :
    condTokens (as ++ [a]) = condTokens as ++ .word "and" :: a.tokens := by
  induction as with
  | nil => exact absurd rfl hne
  | cons b bs ih =>
      cases bs with
      | nil => rfl
      | cons c bs =>
          have ih := ih (by simp)
          simp only [List.cons_append] at ih
          simp only [List.cons_append, condTokens, ih, List.append_assoc]

/-- A conjunct the parser reads: its column is a name and its list is not empty. -/
def Atom.Proper : Atom → Prop
  | eq c => Name c
  | isIn c n => Name c ∧ n ≠ 0

theorem conjunction_list {n : ℕ} (hn : n ≠ 0) (c : String) (m : ℕ) (rest : List Token) :
    conjunction (some (c, m)) (markTokens n ++ .sym ')' :: rest) =
      conjunction (some (c, m + n - 1)) (.sym '?' :: .sym ')' :: rest) := by
  induction n using markTokens.induct generalizing m with
  | case1 => exact absurd rfl hn
  | case2 => rfl
  | case3 n ih =>
      simp only [markTokens, List.cons_append, conjunction]
      rw [ih (by simp)]
      congr 3
      omega

theorem conjunction_atom {a : Atom} (h : a.Proper) : conjunction none a.tokens = some [a] := by
  cases a with
  | eq c =>
      have hc : Name c := h
      simp [Atom.tokens, conjunction, hc]
  | isIn c n =>
      obtain ⟨hc, hn⟩ : Name c ∧ n ≠ 0 := h
      have hn' : 1 ≤ n := Nat.one_le_iff_ne_zero.mpr hn
      have hin : fold "in" = "in" := by decide
      simp only [Atom.tokens, List.cons_append, conjunction, hc, hin, and_self, if_true]
      rw [conjunction_list hn]
      simp only [conjunction, Nat.zero_add, Nat.sub_add_cancel hn']

theorem conjunction_and {a : Atom} (h : a.Proper) (ts : List Token) :
    conjunction none (a.tokens ++ .word "and" :: ts) = (conjunction none ts).map (a :: ·) := by
  have hand : fold "and" = "and" := by decide
  cases a with
  | eq c =>
      have hc : Name c := h
      simp [Atom.tokens, conjunction, hc, hand]
  | isIn c n =>
      obtain ⟨hc, hn⟩ : Name c ∧ n ≠ 0 := h
      have hn' : 1 ≤ n := Nat.one_le_iff_ne_zero.mpr hn
      have hin : fold "in" = "in" := by decide
      simp only [Atom.tokens, List.cons_append, conjunction, hc, hin, and_self, if_true,
        List.append_assoc, List.nil_append]
      rw [conjunction_list hn]
      simp only [conjunction, hand, if_true, Nat.zero_add, Nat.sub_add_cancel hn']

/-- **A conjunction is read back.** -/
theorem conjunction_condTokens {as : List Atom} (hne : as ≠ []) (h : ∀ a ∈ as, a.Proper) :
    conjunction none (condTokens as) = some as := by
  induction as with
  | nil => exact absurd rfl hne
  | cons a bs ih =>
      have ha : a.Proper := h a List.mem_cons_self
      cases bs with
      | nil => exact conjunction_atom ha
      | cons b bs =>
          rw [condTokens, conjunction_and ha, ih (by simp)
            fun a ha => h a (List.mem_cons_of_mem _ ha)]
          rfl

/-- The tokens of a `WHERE` clause. -/
def whereTokens (as : List Atom) : List Token :=
  if as = [] then [] else .word "where" :: condTokens as

theorem whereClause_whereTokens {as : List Atom} (h : ∀ a ∈ as, a.Proper) :
    whereClause (whereTokens as) = some as := by
  have hwhere : fold "where" = "where" := by decide
  by_cases ha : as = []
  · subst ha; rfl
  · simp [whereTokens, ha, whereClause, keyword, hwhere, conjunction_condTokens ha h]

/-- A `WHERE` clause ends a list. -/
theorem ends_whereTokens (as : List Atom) : Ends (whereTokens as) := by
  unfold whereTokens
  split <;> simp [Ends]

/-- The tokens of the definitions of a `CREATE TABLE`. -/
def defTokens : List (String × String) → List String → List Token
  | [], _ => []
  | [(c, t)], [] => [.word c, .word t, .sym ')']
  | [(c, t)], p :: pks =>
      .word c :: .word t :: .sym ',' :: .word "PRIMARY" :: .word "KEY" :: .sym '(' ::
        commas (p :: pks) ++ [.sym ')', .sym ')']
  | (c, t) :: d :: ds, pks => .word c :: .word t :: .sym ',' :: defTokens (d :: ds) pks

theorem definitions_defTokens {ds : List (String × String)} {pks : List String} (hne : ds ≠ [])
    (hd : ∀ d ∈ ds, Name d.1 ∧ Name d.2) (hp : ∀ p ∈ pks, Name p) :
    definitions (defTokens ds pks) = some (ds, pks) := by
  induction ds with
  | nil => exact absurd rfl hne
  | cons d ds ih =>
      obtain ⟨c, t⟩ := d
      obtain ⟨hc, ht⟩ : Name c ∧ Name t := hd (c, t) List.mem_cons_self
      cases ds with
      | nil =>
          cases pks with
          | nil => simp [defTokens, definitions, hc, ht]
          | cons p pks =>
              have hkey : fold "PRIMARY" = "primary" ∧ fold "KEY" = "key" := by decide
              have hclose : Ends [.sym ')', .sym ')'] := by simp [Ends]
              have hn := names_commas (List.cons_ne_nil p pks) hp hclose
              simp [defTokens, definitions, hc, ht, hkey, hn]
      | cons d ds =>
          have ih' := ih (by simp) fun d hd' => hd d (List.mem_cons_of_mem _ hd')
          simp [defTokens, definitions, hc, ht, ih']

/-- **The first word tells which parser reads a statement.** -/
theorem parse_first (s : String) (ts : List Token) : parse (.word s :: ts) =
    if fold s = "create" then parseCreate (.word s :: ts)
    else if fold s = "alter" then parseAddColumn (.word s :: ts)
    else if fold s = "insert" then parseInsert (.word s :: ts)
    else if fold s = "update" then parseUpdate (.word s :: ts)
    else if fold s = "delete" then parseDelete (.word s :: ts)
    else parseSelect (.word s :: ts) := by
  have hword : ∀ k, fold s ≠ k → keyword k (.word s :: ts) = none := fun k hk => if_neg hk
  have hcreate : fold s ≠ "create" → parseCreate (.word s :: ts) = none := fun h => by
    rw [parseCreate, keywords, hword _ h]
    rfl
  have halter : fold s ≠ "alter" → parseAddColumn (.word s :: ts) = none := fun h => by
    rw [parseAddColumn, keywords, hword _ h]
    rfl
  have hinsert : fold s ≠ "insert" → parseInsert (.word s :: ts) = none := fun h => by
    rw [parseInsert, hword _ h]
    rfl
  have hupdate : fold s ≠ "update" → parseUpdate (.word s :: ts) = none := fun h => by
    rw [parseUpdate, hword _ h]
    rfl
  have hdelete : fold s ≠ "delete" → parseDelete (.word s :: ts) = none := fun h => by
    rw [parseDelete, keywords, hword _ h]
    rfl
  have hselect : fold s ≠ "select" → parseSelect (.word s :: ts) = none := fun h => by
    rw [parseSelect, hword _ h]
    rfl
  simp only [parse, Option.orElse_eq_orElse, Option.orElse_eq_or]
  split
  · rename_i h
    rw [halter (by rw [h]; decide), hinsert (by rw [h]; decide), hupdate (by rw [h]; decide),
      hdelete (by rw [h]; decide), hselect (by rw [h]; decide)]
    simp only [Option.or_none]
  rename_i hc
  rw [hcreate hc, Option.none_or]
  split
  · rename_i h
    rw [hinsert (by rw [h]; decide), hupdate (by rw [h]; decide), hdelete (by rw [h]; decide),
      hselect (by rw [h]; decide)]
    simp only [Option.or_none]
  rename_i ha
  rw [halter ha, Option.none_or]
  split
  · rename_i h
    rw [hupdate (by rw [h]; decide), hdelete (by rw [h]; decide), hselect (by rw [h]; decide)]
    simp only [Option.or_none]
  rename_i hi
  rw [hinsert hi, Option.none_or]
  split
  · rename_i h
    rw [hdelete (by rw [h]; decide), hselect (by rw [h]; decide)]
    simp only [Option.or_none]
  rename_i hu
  rw [hupdate hu, Option.none_or]
  split
  · rename_i h
    rw [hselect (by rw [h]; decide), Option.or_none]
  · rename_i hd
    rw [hdelete hd, Option.none_or]

section Parse

variable {t : String} (ht : Name t)
include ht

/-! What follows the name of the table does not depend on it. -/

theorem parse_create_eq {k₁ k₂ k₃ k₄ k₅ : String} (hk : [k₁, k₂, k₃, k₄, k₅].map fold =
      ["create", "table", "if", "not", "exists"]) (ts : List Token) :
    parse (.word k₁ :: .word k₂ :: .word k₃ :: .word k₄ :: .word k₅ :: .word t :: ts) =
      (createBody ts).map fun r => .create t r.1 r.2 := by
  simp only [List.map_cons, List.map_nil, List.cons.injEq, and_true] at hk
  rw [parse_first, if_pos hk.1]
  simp [parseCreate, keywords, keyword, hk, name_eq ht, Option.map_eq_bind]

theorem parse_insert_eq {k₁ k₂ k₃ k₄ : String} (replace : Bool)
    (hk : [k₁, k₂, k₃, k₄].map fold =
      ["insert", "or", if replace then "replace" else "ignore", "into"]) (ts : List Token) :
    parse (.word k₁ :: .word k₂ :: .word k₃ :: .word k₄ :: .word t :: ts) =
      (insertBody ts).map fun r => .insert replace t r.1 r.2 := by
  simp only [List.map_cons, List.map_nil, List.cons.injEq, and_true] at hk
  have hfirst : parse (.word k₁ :: .word k₂ :: .word k₃ :: .word k₄ :: .word t :: ts) =
      parseInsert (.word k₁ :: .word k₂ :: .word k₃ :: .word k₄ :: .word t :: ts) := by
    rw [parse_first, hk.1]
    rfl
  rw [hfirst]
  cases replace <;> simp [parseInsert, keyword, conflict, hk, name_eq ht, Option.map_eq_bind]

theorem parse_update_eq {k : String} (hk : fold k = "update") (ts : List Token) :
    parse (.word k :: .word t :: ts) =
      (updateBody ts).map fun r => .update t r.1 r.2 := by
  have hfirst : parse (.word k :: .word t :: ts) = parseUpdate (.word k :: .word t :: ts) := by
    rw [parse_first, hk]
    rfl
  rw [hfirst]
  simp [parseUpdate, keyword, hk, name_eq ht, Option.map_eq_bind]

theorem parse_select_eq {k₁ k₂ : String} (hk : [k₁, k₂].map fold = ["select", "from"])
    (ts : List Token) :
    parse (.word k₁ :: .sym '*' :: .word k₂ :: .word t :: ts) =
      (whereClause ts).map (.select t) := by
  simp only [List.map_cons, List.map_nil, List.cons.injEq, and_true] at hk
  have hfirst : parse (.word k₁ :: .sym '*' :: .word k₂ :: .word t :: ts) =
      parseSelect (.word k₁ :: .sym '*' :: .word k₂ :: .word t :: ts) := by
    rw [parse_first, hk.1]
    rfl
  rw [hfirst]
  simp [parseSelect, keyword, hk, symbol_eq, name_eq ht, Option.map_eq_bind]

theorem parse_create {k₁ k₂ k₃ k₄ k₅ : String} (hk : [k₁, k₂, k₃, k₄, k₅].map fold =
      ["create", "table", "if", "not", "exists"])
    {ds : List (String × String)} {pks : List String} (hne : ds ≠ [])
    (hd : ∀ d ∈ ds, Name d.1 ∧ Name d.2) (hp : ∀ p ∈ pks, Name p) :
    parse (.word k₁ :: .word k₂ :: .word k₃ :: .word k₄ :: .word k₅ :: .word t :: .sym '(' ::
      defTokens ds pks) = some (.create t ds pks) := by
  simp [parse_create_eq ht hk, createBody, symbol_eq, definitions_defTokens hne hd hp]

theorem parse_addColumn {k₁ k₂ k₃ k₄ c type : String}
    (hk : [k₁, k₂, k₃, k₄].map fold = ["alter", "table", "add", "column"])
    (hc : Name c) (htype : Name type) :
    parse [.word k₁, .word k₂, .word t, .word k₃, .word k₄, .word c, .word type] =
      some (.addColumn t c type) := by
  simp only [List.map_cons, List.map_nil, List.cons.injEq, and_true] at hk
  rw [parse_first, hk.1]
  simp [parseAddColumn, keywords, keyword, hk, name_eq ht, name_eq hc, name_eq htype]

theorem parse_insert {k₁ k₂ k₃ k₄ : String} (replace : Bool)
    (hk : [k₁, k₂, k₃, k₄].map fold =
      ["insert", "or", if replace then "replace" else "ignore", "into"])
    {cs : List String} (hne : cs ≠ []) (hc : ∀ c ∈ cs, Name c) :
    parse (.word k₁ :: .word k₂ :: .word k₃ :: .word k₄ :: .word t :: .sym '(' ::
      commas cs ++ .sym ')' :: .word "values" :: .sym '(' :: markTokens cs.length ++ [.sym ')']) =
      some (.insert replace t cs cs.length) := by
  have hclose : Ends [.sym ')'] := by simp [Ends]
  have hafter : Ends (.sym ')' :: .word "values" :: .sym '(' ::
      (markTokens cs.length ++ [.sym ')'])) := by simp [Ends]
  have hn := names_commas hne hc hafter
  have hlen : cs.length ≠ 0 := by simpa using hne
  have hm := marks_markTokens hlen hclose
  have hvalues : fold "values" = "values" := by decide
  simp only [List.cons_append, List.append_assoc]
  rw [parse_insert_eq ht replace hk]
  simp [insertBody, symbol_eq, hn, keyword, hvalues, hm]

theorem parse_update {k₁ k₂ : String} (hk : [k₁, k₂].map fold = ["update", "set"])
    {ss : List String} (hne : ss ≠ []) (hs : ∀ s ∈ ss, Name s) {as : List Atom}
    (ha : ∀ a ∈ as, a.Proper) :
    parse (.word k₁ :: .word t :: .word k₂ :: assignTokens ss ++ whereTokens as) =
      some (.update t ss as) := by
  have hset := assignments_assignTokens hne hs (ends_whereTokens as)
  simp only [List.map_cons, List.map_nil, List.cons.injEq, and_true] at hk
  simp [parse_update_eq ht hk.1, updateBody, keyword, hk.2, hset, whereClause_whereTokens ha]

/-- The columns of an `INSERT` are names. -/
theorem parse_insert_none {k₁ k₂ k₃ k₄ : String} (replace : Bool)
    (hk : [k₁, k₂, k₃, k₄].map fold =
      ["insert", "or", if replace then "replace" else "ignore", "into"])
    {cs : List String} (hc : ¬ ∀ c ∈ cs, Name c) {rest : List Token} (hr : Ends rest) :
    parse (.word k₁ :: .word k₂ :: .word k₃ :: .word k₄ :: .word t :: .sym '(' ::
      commas cs ++ rest) = none := by
  have hn := names_commas_none hc hr
  simp [parse_insert_eq ht replace hk, insertBody, symbol_eq, hn]

/-- An `UPDATE` of these tokens assigns the columns they name, which are names. -/
theorem parse_update_inv {k₁ k₂ : String} (hk : [k₁, k₂].map fold = ["update", "set"])
    {ss : List String} {rest : List Token} (hr : rest = [] ∨ ∃ ts, rest = .word "where" :: ts)
    {st : Stmt} (h : parse (.word k₁ :: .word t :: .word k₂ :: assignTokens ss ++ rest) = some st) :
    ss ≠ [] ∧ (∀ s ∈ ss, Name s) ∧ ∃ as, st = .update t ss as := by
  simp only [List.map_cons, List.map_nil, List.cons.injEq, and_true] at hk
  have hends : Ends rest := by
    rcases hr with rfl | ⟨ts, rfl⟩ <;> simp [Ends]
  have hupdate : parse (.word k₁ :: .word t :: .word k₂ :: assignTokens ss ++ rest) =
      (assignments (assignTokens ss ++ rest)).bind fun r =>
        (whereClause r.2).map fun as => .update t r.1 as := by
    simp [parse_update_eq ht hk.1, updateBody, keyword, hk.2, Option.map_eq_bind,
      Option.bind_assoc]
  rw [hupdate] at h
  by_cases hs : ∀ s ∈ ss, Name s
  · by_cases hne : ss = []
    · -- the list ends before it begins
      subst hne
      have hnone : assignments ([] ++ rest) = none := by
        rcases hr with rfl | ⟨ts, rfl⟩
        · rfl
        · exact assignments_of_not_name (by decide) ts
      rw [assignTokens, hnone] at h
      cases h
    · rw [assignments_assignTokens hne hs hends] at h
      obtain ⟨as, -, rfl⟩ := Option.map_eq_some_iff.mp h
      exact ⟨hne, hs, as, rfl⟩
  · rw [assignments_assignTokens_none hs hends] at h
    cases h

theorem parse_delete {k₁ k₂ : String} (hk : [k₁, k₂].map fold = ["delete", "from"])
    {as : List Atom} (ha : ∀ a ∈ as, a.Proper) :
    parse (.word k₁ :: .word k₂ :: .word t :: whereTokens as) = some (.delete t as) := by
  simp only [List.map_cons, List.map_nil, List.cons.injEq, and_true] at hk
  have hfirst : parse (.word k₁ :: .word k₂ :: .word t :: whereTokens as) =
      parseDelete (.word k₁ :: .word k₂ :: .word t :: whereTokens as) := by
    rw [parse_first, hk.1]
    rfl
  rw [hfirst]
  simp [parseDelete, keywords, keyword, hk, name_eq ht, whereClause_whereTokens ha]

theorem parse_select {k₁ k₂ : String} (hk : [k₁, k₂].map fold = ["select", "from"])
    {as : List Atom} (ha : ∀ a ∈ as, a.Proper) :
    parse (.word k₁ :: .sym '*' :: .word k₂ :: .word t :: whereTokens as) =
      some (.select t as) := by
  rw [parse_select_eq ht hk, whereClause_whereTokens ha]
  rfl

end Parse

/-! ### Texts that end in a word -/

section

variable {w : String} {ts rest : List Token}

/-- A text that ends in a word, after a token that is none, goes on after it. -/
theorem getLast_tail {x u : Token} (h : ts.getLast?.getD x = u) :
    ts = [] ∨ ts.getLast? = some u := by
  cases ts with
  | nil => exact .inl rfl
  | cons t ts => exact .inr (by simpa [List.getLast?_cons] using h)

/-- No conjunction ends in a word. -/
theorem conjunction_word (h : ts.getLast? = some (.word w)) (o : Option (String × ℕ)) :
    conjunction o ts = none := by
  have hrest : ∀ {us : List Token} {x : Token} {o : Option (String × ℕ)},
      us.getLast?.getD x = .word w → (us.getLast? = some (.word w) → conjunction o us = none) →
        conjunction o us = none := by
    intro us x o h ih
    rcases getLast_tail h with rfl | h
    · cases o <;> simp [conjunction]
    · exact ih h
  fun_induction conjunction o ts with
  | case3 c a ts ha ih => simp [hrest (by simpa [List.getLast?_cons] using h) ih]
  | case5 c i ts hi ih => exact hrest (by simpa [List.getLast?_cons] using h) ih
  | case7 c n ts ih => exact hrest (by simpa [List.getLast?_cons] using h) ih
  | case9 c n a ts ha ih => simp [hrest (by simpa [List.getLast?_cons] using h) ih]
  | _ => simp_all

theorem whereClause_word (h : ts.getLast? = some (.word w)) : whereClause ts = none := by
  cases ts with
  | nil => cases h
  | cons t ts =>
      cases t with
      | sym c => rfl
      | word s =>
          by_cases hs : fold s = "where"
          · rcases getLast_tail (by simpa [List.getLast?_cons] using h) with rfl | h
            · simp [whereClause, keyword, hs, conjunction]
            · simp [whereClause, keyword, hs, conjunction_word h]
          · simp [whereClause, keyword, hs]

/-- The parser of a name leaves a word that is none. -/
theorem name_word {t : String} (h : ts.getLast? = some (.word w)) (hw : ¬ Name w)
    (hname : name ts = some (t, rest)) : rest.getLast? = some (.word w) := by
  cases ts with
  | nil => cases h
  | cons u us =>
      cases u with
      | sym c => cases hname
      | word s =>
          rw [name, Option.ite_none_right_eq_some] at hname
          obtain ⟨hs, hrest⟩ := hname
          obtain ⟨-, rfl⟩ := Prod.mk.inj (Option.some.inj hrest)
          cases us with
          | nil =>
              obtain rfl : s = w := by simpa using h
              exact absurd hs hw
          | cons v vs => rwa [List.getLast?_cons_cons] at h

theorem assignments_word {ss : List String} (h : ts.getLast? = some (.word w))
    (hset : assignments ts = some (ss, rest)) : rest.getLast? = some (.word w) := by
  have htail : ∀ {us : List Token} {c : Char}, us.getLast?.getD (.sym c) = .word w →
      us.getLast? = some (.word w) := by
    intro us c h
    rcases getLast_tail h with rfl | h
    · cases h
    · exact h
  fun_induction assignments ts generalizing ss with
  | case1 s ts hs ih =>
      obtain ⟨⟨ss', rest'⟩, hrest, heq⟩ := Option.map_eq_some_iff.mp hset
      obtain ⟨-, rfl⟩ := Prod.mk.inj heq
      exact ih (htail (by simpa [List.getLast?_cons] using h)) hrest
  | case3 s ts hs hnext =>
      obtain ⟨-, rfl⟩ := Prod.mk.inj (Option.some.inj hset)
      exact htail (by simpa [List.getLast?_cons] using h)
  | _ => simp_all

theorem updateBody_word (h : ts.getLast? = some (.word w)) : updateBody ts = none := by
  cases ts with
  | nil => cases h
  | cons t ts =>
      cases t with
      | sym c => rfl
      | word s =>
          have hkeyword : keyword "set" (.word s :: ts) =
              if fold s = "set" then some ts else none := rfl
          rw [updateBody, hkeyword]
          split
          · rcases getLast_tail (by simpa [List.getLast?_cons] using h) with rfl | h
            · rfl
            · cases hset : assignments ts with
              | none => simp [hset]
              | some r => simp [hset, whereClause_word (assignments_word h hset)]
          · rfl

/-- **No `DELETE` ends in a word** that is no name. -/
theorem parse_delete_word {k₁ k₂ : String} (hk : [k₁, k₂].map fold = ["delete", "from"])
    (h : ts.getLast? = some (.word w)) (hw : ¬ Name w) :
    parse (.word k₁ :: .word k₂ :: ts) = none := by
  simp only [List.map_cons, List.map_nil, List.cons.injEq, and_true] at hk
  have hfirst : parse (.word k₁ :: .word k₂ :: ts) = parseDelete (.word k₁ :: .word k₂ :: ts) := by
    rw [parse_first, hk.1]
    rfl
  rw [hfirst]
  cases hname : name ts with
  | none => simp [parseDelete, keywords, keyword, hk, hname]
  | some r =>
      have hwhere : whereClause r.2 = none := whereClause_word (name_word h hw hname)
      simp [parseDelete, keywords, keyword, hk, hname, hwhere]

/-- **No `UPDATE` ends in a word** that is no name. -/
theorem parse_update_word {k : String} (hk : fold k = "update")
    (h : ts.getLast? = some (.word w)) (hw : ¬ Name w) : parse (.word k :: ts) = none := by
  have hfirst : parse (.word k :: ts) = parseUpdate (.word k :: ts) := by
    rw [parse_first, hk]
    rfl
  rw [hfirst]
  cases hname : name ts with
  | none => simp [parseUpdate, keyword, hk, hname]
  | some r =>
      have hbody : updateBody r.2 = none := updateBody_word (name_word h hw hname)
      simp [parseUpdate, keyword, hk, hname, hbody]

end

end Sql
