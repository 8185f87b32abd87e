import NBDataBase.Sql.Engine

/-!
# SQL — left joins

Queries of two tables, `SELECT … FROM t LEFT JOIN u ON … WHERE …`, with columns that may be
qualified by the name of their table.

* `ColRef`, `JoinAtom`, `JoinStmt`: columns, conjuncts and queries.  A conjunct compares two
  columns, or a column with parameters.
* `prepareJoin`: the query of a text, when it is one of the fragment.  `AND`, `FROM` and `WHERE` are
  reserved, so the text is cut at them.
* `Sources.resolve`: the table a column belongs to.  A column that both tables may mean is
  ambiguous, and the query is rejected.
* `leftJoin`: every row of the one table with the rows of the other it matches, or alone.
* `selectJoin`: the rows of a query.
* `parseJoin_joinTokens`: the parser reads a query piece by piece.
-/

namespace Sql

/-- A column, qualified by a table or not. -/
structure ColRef where
  table : Option String
  column : String
  deriving DecidableEq, Repr

/-- One conjunct of an `ON` or a `WHERE` clause. -/
inductive JoinAtom where
  | same (a b : ColRef)
  | eq (a : ColRef)
  | isIn (a : ColRef) (params : ℕ)
  deriving DecidableEq, Repr

namespace JoinAtom

def refs : JoinAtom → List ColRef
  | same a b => [a, b]
  | eq a => [a]
  | isIn a _ => [a]

def params : JoinAtom → ℕ
  | same _ _ => 0
  | eq _ => 1
  | isIn _ n => n

end JoinAtom

/-- A left join.  No columns are all columns, and no conditions are no `WHERE` clause. -/
structure JoinStmt where
  columns : List ColRef
  main : String
  follow : String
  on : List JoinAtom
  conds : List JoinAtom
  deriving DecidableEq, Repr

namespace JoinStmt

/-- The columns a query names. -/
def refs (st : JoinStmt) : List ColRef :=
  st.columns ++ (st.on ++ st.conds).flatMap JoinAtom.refs

def params (st : JoinStmt) : ℕ := ((st.on ++ st.conds).map JoinAtom.params).sum

end JoinStmt

/-! ### The parser -/

section Parser

def isKeyword (k : String) : Token → Bool
  | .word s => fold s = k
  | .sym _ => false

/-- The pieces of a text between the keywords `k`. -/
def cutAt (k : String) (ts : List Token) : List (List Token) := ts.splitOnP (isKeyword k)

def colRef : List Token → Option (ColRef × List Token)
  | .word t :: .sym '.' :: .word c :: ts => if Name t ∧ Name c then some (⟨some t, c⟩, ts) else none
  | .word c :: ts => if Name c then some (⟨none, c⟩, ts) else none
  | _ => none

/-- A conjunct that is the whole text. -/
def joinAtom (ts : List Token) : Option JoinAtom :=
  match colRef ts with
  | some (a, [.sym '=', .sym '?']) => some (.eq a)
  | some (a, .sym '=' :: ts) =>
      match colRef ts with
      | some (b, []) => some (.same a b)
      | _ => none
  | some (a, .word i :: .sym '(' :: ts) =>
      if fold i = "in" then
        match marks ts with
        | some (n, [.sym ')']) => some (.isIn a n)
        | _ => none
      else none
  | _ => none

def joinConds (ts : List Token) : Option (List JoinAtom) := (cutAt "and" ts).mapM joinAtom

/-- A column that is the whole text. -/
def outputColumn (ts : List Token) : Option ColRef :=
  match colRef ts with
  | some (a, []) => some a
  | _ => none

/-- `*`, or columns with commas between them. -/
def outputColumns (ts : List Token) : Option (List ColRef) :=
  if ts = [.sym '*'] then some []
  else (ts.splitOnP fun t => t = .sym ',').mapM outputColumn

/-- The clauses of a query: `ON`, and perhaps `WHERE`. -/
def joinClauses (ts : List Token) : Option (List JoinAtom × List JoinAtom) :=
  match cutAt "where" ts with
  | [on] => (joinConds on).map fun on => (on, [])
  | [on, conds] => (joinConds on).bind fun on => (joinConds conds).map fun conds => (on, conds)
  | _ => none

/-- The tables and the clauses of a query. -/
def joinBody (columns : List ColRef) (ts : List Token) : Option JoinStmt := do
  let (main, ts) ← name ts
  let ts ← keywords ["left", "join"] ts
  let (follow, ts) ← name ts
  let ts ← keyword "on" ts
  let (on, conds) ← joinClauses ts
  return ⟨columns, main, follow, on, conds⟩

def parseJoin (ts : List Token) : Option JoinStmt := do
  let ts ← keyword "select" ts
  match cutAt "from" ts with
  | [columns, ts] => joinBody (← outputColumns columns) ts
  | _ => none

/-- The left join of a text of the fragment, with no more parameters than SQLite takes. -/
def prepareJoin (sql : String) : Option JoinStmt :=
  (parseJoin (lex sql)).filter fun st => st.params ≤ maxVariables

end Parser

example :
    prepareJoin "select t.a,u.b from t left join u on t.a=u.a  and u. b=? where t. c in(?,?)" =
    some ⟨[⟨some "t", "a"⟩, ⟨some "u", "b"⟩], "t", "u",
      [.same ⟨some "t", "a"⟩ ⟨some "u", "a"⟩, .eq ⟨some "u", "b"⟩],
      [.isIn ⟨some "t", "c"⟩ 2]⟩ := by decide +kernel

example : prepareJoin "select * from t left join u on t.a=u.a  and u." = none := by decide +kernel

/-! ### Reading a query back -/

/-- Pieces with a token between them. -/
def sepBy (t : Token) : List (List Token) → List Token
  | [] => []
  | [p] => p
  | p :: q :: ps => p ++ t :: sepBy t (q :: ps)

theorem sepBy_append {t : Token} {ps qs : List (List Token)} (hp : ps ≠ []) (hq : qs ≠ []) :
    sepBy t (ps ++ qs) = sepBy t ps ++ t :: sepBy t qs := by
  induction ps with
  | nil => exact absurd rfl hp
  | cons p ps ih =>
      cases ps with
      | nil =>
          obtain ⟨q, qs, rfl⟩ := List.exists_cons_of_ne_nil hq
          rfl
      | cons p' ps =>
          simp only [List.cons_append] at ih ⊢
          rw [sepBy, ih (by simp), sepBy, List.append_assoc, List.cons_append]

theorem mem_sepBy {t x : Token} {ps : List (List Token)} (h : x ∈ sepBy t ps) :
    x = t ∨ ∃ p ∈ ps, x ∈ p := by
  induction ps with
  | nil => cases h
  | cons p ps ih =>
      cases ps with
      | nil => exact .inr ⟨p, List.mem_cons_self, h⟩
      | cons q ps =>
          rcases List.mem_append.mp h with h | h
          · exact .inr ⟨p, List.mem_cons_self, h⟩
          · rcases List.mem_cons.mp h with h | h
            · exact .inl h
            · rcases ih h with h | ⟨p', hp', hx⟩
              · exact .inl h
              · exact .inr ⟨p', List.mem_cons_of_mem _ hp', hx⟩

/-- **Cutting** at a token gives back the pieces between its occurrences. -/
theorem splitOnP_sepBy (isSep : Token → Bool) {t : Token} (ht : isSep t = true)
    {ps : List (List Token)} (hne : ps ≠ []) (h : ∀ p ∈ ps, ∀ x ∈ p, isSep x = false) :
    (sepBy t ps).splitOnP isSep = ps := by
  induction ps with
  | nil => exact absurd rfl hne
  | cons p ps ih =>
      have hp := h p List.mem_cons_self
      cases ps with
      | nil => exact List.splitOnP_eq_singleton hp
      | cons q ps =>
          rw [sepBy, List.splitOnP_append_cons_of_forall_mem hp t ht,
            ih (by simp) fun p hp => h p (List.mem_cons_of_mem _ hp)]

theorem mapM_some {α β : Type} {f : α → Option β} {g : α → β} {xs : List α}
    (h : ∀ x ∈ xs, f x = some (g x)) : xs.mapM f = some (xs.map g) := by
  induction xs with
  | nil => rfl
  | cons x xs ih =>
      rw [List.mapM_cons, h x List.mem_cons_self, ih fun y hy => h y (List.mem_cons_of_mem _ hy)]
      rfl

theorem mapM_none {α β : Type} {f : α → Option β} {xs : List α} {x : α} (hx : x ∈ xs)
    (h : f x = none) : xs.mapM f = none := by
  induction xs with
  | nil => cases hx
  | cons y ys ih =>
      rw [List.mapM_cons]
      rcases List.mem_cons.mp hx with rfl | hx
      · rw [h]
        rfl
      · rw [ih hx]
        cases f y <;> rfl

namespace ColRef

def tokens (a : ColRef) : List Token :=
  a.table.elim [.word a.column] fun t => [.word t, .sym '.', .word a.column]

/-- The parts are names. -/
def Proper (a : ColRef) : Prop := (∀ t ∈ a.table, Name t) ∧ Name a.column

end ColRef

/-- What follows a column is no dot. -/
def Undotted (ts : List Token) : Prop := ∀ t ∈ ts.head?, t ≠ .sym '.'

theorem colRef_tokens {a : ColRef} (h : a.Proper) (ts : List Token) (hts : Undotted ts) :
    colRef (a.tokens ++ ts) = some (a, ts) := by
  obtain ⟨table, column⟩ := a
  obtain ⟨ht, hc⟩ := h
  cases table with
  | none =>
      have hc : Name column := hc
      cases ts with
      | nil => simp [ColRef.tokens, colRef, hc]
      | cons t ts =>
          have hdot : t ≠ .sym '.' := hts t rfl
          cases ts <;> simp [ColRef.tokens, colRef, hc, hdot]
  | some table =>
      have ht : Name table := ht table rfl
      have hc : Name column := hc
      simp [ColRef.tokens, colRef, ht, hc]

theorem outputColumn_tokens {a : ColRef} (h : a.Proper) : outputColumn a.tokens = some a := by
  have hread := colRef_tokens h [] (by simp [Undotted])
  rw [List.append_nil] at hread
  rw [outputColumn, hread]

namespace JoinAtom

def tokens : JoinAtom → List Token
  | same a b => a.tokens ++ .sym '=' :: b.tokens
  | eq a => a.tokens ++ [.sym '=', .sym '?']
  | isIn a n => a.tokens ++ .word "in" :: .sym '(' :: (markTokens n ++ [.sym ')'])

/-- The columns are names, and a list is not empty. -/
def Proper : JoinAtom → Prop
  | same a b => a.Proper ∧ b.Proper
  | eq a => a.Proper
  | isIn a n => a.Proper ∧ n ≠ 0

end JoinAtom

theorem joinAtom_tokens {a : JoinAtom} (h : a.Proper) : joinAtom a.tokens = some a := by
  cases a with
  | same a b =>
      obtain ⟨ha, hb⟩ : a.Proper ∧ b.Proper := h
      have hread := colRef_tokens ha (.sym '=' :: b.tokens) (by simp [Undotted])
      have hread' := colRef_tokens hb [] (by simp [Undotted])
      rw [List.append_nil] at hread'
      rw [joinAtom, JoinAtom.tokens, hread]
      -- a second column is no parameter
      obtain ⟨table, column⟩ := b
      cases table <;> simp_all [ColRef.tokens]
  | eq a =>
      have ha : a.Proper := h
      have hread := colRef_tokens ha [.sym '=', .sym '?'] (by simp [Undotted])
      unfold joinAtom
      simp [JoinAtom.tokens, hread]
  | isIn a n =>
      obtain ⟨ha, hn⟩ : a.Proper ∧ n ≠ 0 := h
      have hread := colRef_tokens ha (.word "in" :: .sym '(' :: (markTokens n ++ [.sym ')']))
        (by simp [Undotted])
      have hin : fold "in" = "in" := by decide
      have hends : Ends [.sym ')'] := by simp [Ends]
      have hmarks := marks_markTokens hn hends
      unfold joinAtom
      simp [JoinAtom.tokens, hread, hin, hmarks]

/-- No word is one of the keywords at which a query is cut. -/
def Uncut (ts : List Token) : Prop :=
  ∀ t ∈ ts, ∀ k ∈ ["from", "where", "and"], isKeyword k t = false

theorem Uncut.append {a b : List Token} (ha : Uncut a) (hb : Uncut b) : Uncut (a ++ b) := by
  intro t ht
  rcases List.mem_append.mp ht with ht | ht
  · exact ha t ht
  · exact hb t ht

theorem Uncut.cons {t : Token} {ts : List Token}
    (ht : ∀ k ∈ ["from", "where", "and"], isKeyword k t = false) (hts : Uncut ts) :
    Uncut (t :: ts) := by
  intro t' ht'
  rcases List.mem_cons.mp ht' with rfl | ht'
  · exact ht
  · exact hts t' ht'

theorem Uncut.nil : Uncut [] := fun _ ht => by cases ht

theorem uncut_name {s : String} (h : Name s) :
    ∀ k ∈ ["from", "where", "and"], isKeyword k (.word s) = false := by
  have hreserved : ∀ k ∈ ["from", "where", "and"], k ∈ reserved := by decide
  intro k hk
  simpa [isKeyword] using h.ne_keyword (hreserved k hk)

theorem uncut_sym (c : Char) : ∀ k ∈ ["from", "where", "and"], isKeyword k (.sym c) = false :=
  fun _ _ => rfl

theorem ColRef.Proper.uncut {a : ColRef} (h : a.Proper) : Uncut a.tokens := by
  obtain ⟨table, column⟩ := a
  obtain ⟨ht, hc⟩ := h
  cases table with
  | none => exact .cons (uncut_name hc) .nil
  | some table =>
      exact .cons (uncut_name (ht table rfl)) (.cons (uncut_sym _) (.cons (uncut_name hc) .nil))

theorem uncut_markTokens (n : ℕ) : Uncut (markTokens n) := by
  induction n using markTokens.induct with
  | case1 => exact .nil
  | case2 => exact .cons (uncut_sym _) .nil
  | case3 n ih => exact .cons (uncut_sym _) (.cons (uncut_sym _) ih)

theorem JoinAtom.Proper.uncut {a : JoinAtom} (h : a.Proper) : Uncut a.tokens := by
  cases a with
  | same a b =>
      exact .append (ColRef.Proper.uncut h.1) (.cons (uncut_sym _) (ColRef.Proper.uncut h.2))
  | eq a =>
      exact .append (ColRef.Proper.uncut h) (.cons (uncut_sym _) (.cons (uncut_sym _) .nil))
  | isIn a n =>
      have hin : ∀ k ∈ ["from", "where", "and"], isKeyword k (.word "in") = false := by decide
      exact .append (ColRef.Proper.uncut h.1) (.cons hin (.cons (uncut_sym _)
        (.append (uncut_markTokens n) (.cons (uncut_sym _) .nil))))

theorem cutAt_uncut {k : String} (hk : k ∈ ["from", "where", "and"]) {ts : List Token}
    (h : ∀ t ∈ ts, isKeyword k t = false) (ts' : List Token) :
    cutAt k (ts ++ .word k :: ts') = ts :: cutAt k ts' := by
  have hself : ∀ k ∈ ["from", "where", "and"], isKeyword k (.word k) = true := by decide
  exact List.splitOnP_append_cons_of_forall_mem h _ (hself k hk) ts'

/-- The conjuncts of pieces, read one by one. -/
theorem joinConds_sepBy {ps : List (List Token)} (hne : ps ≠ []) (h : ∀ p ∈ ps, Uncut p) :
    joinConds (sepBy (.word "and") ps) = ps.mapM joinAtom := by
  have hand : isKeyword "and" (.word "and") = true := by decide
  rw [joinConds, cutAt, splitOnP_sepBy _ hand hne fun p hp t ht => h p hp t ht "and" (by decide)]

/-- The tokens of a query, its clauses in pieces. -/
def joinTokens (columns : List Token) (main follow : String) (on conds : List (List Token)) :
    List Token :=
  .word "select" :: (columns ++ .word "from" :: .word main :: .word "left" :: .word "join" ::
    .word follow :: .word "on" :: (sepBy (.word "and") on ++
      if conds = [] then [] else .word "where" :: sepBy (.word "and") conds))

section Parse

variable {on conds : List (List Token)} (hon : on ≠ []) (huncut : ∀ p ∈ on ++ conds, Uncut p)
include huncut

/-- No keyword but `and` stands in the pieces of a clause. -/
theorem sepBy_keyword {ps : List (List Token)} (hps : ∀ p ∈ ps, p ∈ on ++ conds) {k : String}
    (hk : k ∈ ["from", "where"]) : ∀ t ∈ sepBy (.word "and") ps, isKeyword k t = false := by
  intro t ht
  rcases mem_sepBy ht with rfl | ⟨p, hp, ht⟩
  · have hand : ∀ k ∈ ["from", "where"], isKeyword k (.word "and") = false := by decide
    exact hand k hk
  · have hall : ∀ k ∈ ["from", "where"], k ∈ ["from", "where", "and"] := by decide
    exact huncut p (hps p hp) t ht k (hall k hk)

include hon

/-- The clauses of a query. -/
theorem joinClauses_sepBy :
    joinClauses (sepBy (.word "and") on ++
      if conds = [] then [] else .word "where" :: sepBy (.word "and") conds) =
      (on.mapM joinAtom).bind fun o => (conds.mapM joinAtom).map fun c => (o, c) := by
  have hsep : ∀ ps : List (List Token), (∀ p ∈ ps, p ∈ on ++ conds) →
      ∀ t ∈ sepBy (.word "and") ps, isKeyword "where" t = false :=
    fun ps hps => sepBy_keyword huncut hps (by decide)
  have hfirst := hsep on fun p hp => List.mem_append_left _ hp
  have hsecond := hsep conds fun p hp => List.mem_append_right _ hp
  have hreadon := joinConds_sepBy hon fun p hp => huncut p (List.mem_append_left _ hp)
  by_cases hnone : conds = []
  · have hcut : cutAt "where" (sepBy (.word "and") on) = [sepBy (.word "and") on] :=
      List.splitOnP_eq_singleton hfirst
    rw [if_pos hnone, List.append_nil, joinClauses, hcut]
    dsimp only
    rw [hreadon, hnone]
    cases on.mapM joinAtom <;> rfl
  · have hlast : cutAt "where" (sepBy (.word "and") conds) = [sepBy (.word "and") conds] :=
      List.splitOnP_eq_singleton hsecond
    have hread := joinConds_sepBy hnone fun p hp => huncut p (List.mem_append_right _ hp)
    rw [if_neg hnone, joinClauses, cutAt_uncut (by decide) hfirst, hlast]
    dsimp only
    rw [hreadon, hread]

/-- **A query is read piece by piece.** -/
theorem parseJoin_joinTokens {columns : List Token} {main follow : String} (hM : Name main)
    (hF : Name follow) (hcolumns : Uncut columns) :
    parseJoin (joinTokens columns main follow on conds) =
      (outputColumns columns).bind fun cs => (on.mapM joinAtom).bind fun o =>
        (conds.mapM joinAtom).map fun c => ⟨cs, main, follow, o, c⟩ := by
  have hfrom : ∀ t ∈ columns, isKeyword "from" t = false :=
    fun t ht => hcolumns t ht "from" (by decide)
  -- behind the one `from` there is no other
  have hrest : ∀ t ∈ Token.word main :: .word "left" :: .word "join" :: .word follow ::
      .word "on" :: (sepBy (.word "and") on ++
        if conds = [] then [] else .word "where" :: sepBy (.word "and") conds),
      isKeyword "from" t = false := by
    have hwords : ∀ s ∈ ["left", "join", "on", "where"], isKeyword "from" (.word s) = false := by
      decide
    intro t ht
    simp only [List.mem_cons, List.mem_append] at ht
    rcases ht with rfl | rfl | rfl | rfl | rfl | ht | ht
    · exact uncut_name hM "from" (by decide)
    · exact hwords "left" (by decide)
    · exact hwords "join" (by decide)
    · exact uncut_name hF "from" (by decide)
    · exact hwords "on" (by decide)
    · exact sepBy_keyword huncut (fun p hp => List.mem_append_left _ hp) (by decide) t ht
    · split at ht
      · cases ht
      · rcases List.mem_cons.mp ht with rfl | ht
        · exact hwords "where" (by decide)
        · exact sepBy_keyword huncut (fun p hp => List.mem_append_right _ hp) (by decide) t ht
  have hkeywords : fold "select" = "select" ∧ fold "left" = "left" ∧ fold "join" = "join" ∧
      fold "on" = "on" := by decide
  have hlast : cutAt "from" (Token.word main :: .word "left" :: .word "join" :: .word follow ::
      .word "on" :: (sepBy (.word "and") on ++
        if conds = [] then [] else .word "where" :: sepBy (.word "and") conds)) = [_] :=
    List.splitOnP_eq_singleton hrest
  rw [joinTokens, parseJoin, keyword_eq hkeywords.1, Option.bind_eq_bind, Option.bind_some,
    cutAt_uncut (by decide) hfrom, hlast]
  dsimp only
  cases outputColumns columns with
  | none => rfl
  | some cs =>
      simp only [Option.bind_eq_bind, Option.bind_some, joinBody, name_eq hM, name_eq hF, keywords,
        keyword_eq hkeywords.2.1, keyword_eq hkeywords.2.2.1, keyword_eq hkeywords.2.2.2,
        joinClauses_sepBy hon huncut]
      cases on.mapM joinAtom with
      | none => rfl
      | some o => cases conds.mapM joinAtom <;> rfl

end Parse

/-! ### Rows of two tables -/

/-- Every element of the one list with those of the other it matches; alone, when there is none. -/
def leftJoin {α β : Type} (l : List α) (l' : List β) (P : α → β → Bool) : List (α × Option β) :=
  l.flatMap fun a =>
    if (l'.filter (P a)).isEmpty then [(a, none)] else (l'.filter (P a)).map fun b => (a, some b)

theorem leftJoin_congr {α β : Type} {l : List α} {l' : List β} {P Q : α → β → Bool}
    (h : ∀ a b, P a b = Q a b) : leftJoin l l' P = leftJoin l l' Q := by
  rw [funext fun a => funext (h a)]

/-- The affinity under which two columns are compared: numeric, if one of them is. -/
def Affinity.ofColumns (a b : Affinity) : Affinity :=
  if a.ofComparison = .numeric ∨ b.ofComparison = .numeric then .numeric else .blob

/-- The tables of a join, each with its name. -/
structure Sources where
  main : String
  follow : String
  mainTable : Table
  followTable : Table

inductive Side where
  | main
  | follow
  deriving DecidableEq, Repr

namespace Sources

variable (src : Sources)

/-- The table a column belongs to.  One that neither has is unknown, and one that both have is
ambiguous. -/
def resolve (a : ColRef) : Option Side :=
  let inMain := (a.table.all fun t => fold t = fold src.main) && src.mainTable.has a.column
  let inFollow := (a.table.all fun t => fold t = fold src.follow) && src.followTable.has a.column
  if inMain && !inFollow then some .main
  else if inFollow && !inMain then some .follow
  else none

def table : Side → Table
  | .main => src.mainTable
  | .follow => src.followTable

/-- The affinity of a column. -/
def affinity (a : ColRef) : Affinity :=
  (src.resolve a).elim .blob fun side => (src.table side).affinity a.column

/-- What a column holds; a row alone has NULL in the columns of the other table. -/
def cell (a : ColRef) (p : Row × Option Row) : Value :=
  match src.resolve a with
  | some .main => p.1 (fold a.column)
  | some .follow => (p.2.map fun s => s (fold a.column)).getD .null
  | none => .null

/-- A pair of rows satisfies a conjunct, with the values of its parameters. -/
def holds (conv : Conversions) (p : Row × Option Row) : JoinAtom × List Value → Bool
  | (.same a b, _) =>
      let affinity := Affinity.ofColumns (src.affinity a) (src.affinity b)
      (affinity.apply conv (src.cell a p)).equals (affinity.apply conv (src.cell b p))
  | (.eq a, vs) => vs.any fun v =>
      (src.cell a p).equals ((src.affinity a).ofComparison.apply conv v)
  | (.isIn a _, vs) => vs.any fun v =>
      (src.cell a p).equals ((src.affinity a).ofComparison.apply conv v)

/-- The values of the columns of a query. -/
def output (columns : List ColRef) (p : Row × Option Row) : List Value :=
  if columns = [] then
    (src.mainTable.columns.map fun d => p.1 (fold d.1)) ++
      src.followTable.columns.map fun d => (p.2.map fun s => s (fold d.1)).getD .null
  else columns.map fun a => src.cell a p

end Sources

/-- The conjuncts take their values from the left. -/
def bindJoin : List JoinAtom → List Value → List (JoinAtom × List Value)
  | [], _ => []
  | a :: as, vs => (a, vs.take a.params) :: bindJoin as (vs.drop a.params)

/-- The rows of a left join; none, when SQLite rejects it. -/
def selectJoin (conv : Conversions) (db : Db) (st : JoinStmt) (vs : List Value) :
    Option (List (List Value)) := do
  let mainTable ← db (fold st.main)
  let followTable ← db (fold st.follow)
  let src : Sources := ⟨st.main, st.follow, mainTable, followTable⟩
  if st.refs.all fun a => (src.resolve a).isSome then
    let on := bindJoin st.on vs
    let conds := bindJoin st.conds (vs.drop (st.on.map JoinAtom.params).sum)
    let rows := leftJoin mainTable.rows followTable.rows fun r s =>
      on.all (src.holds conv (r, some s))
    return (rows.filter fun p => conds.all (src.holds conv p)).map (src.output st.columns)
  else none

/-! ### Conjuncts with their values -/

section Bound

variable {l : List (JoinAtom × List Value)} (h : ∀ a ∈ l, a.2.length = a.1.params)
include h

theorem params_sum : ((l.map (·.1)).map JoinAtom.params).sum = (l.flatMap (·.2)).length := by
  rw [List.length_flatMap, List.map_map]
  exact congrArg List.sum (List.map_congr_left fun a ha => (h a ha).symm)

/-- Every conjunct gets its own values back. -/
theorem bindJoin_values (rest : List Value) :
    bindJoin (l.map (·.1)) (l.flatMap (·.2) ++ rest) = l := by
  induction l with
  | nil => rfl
  | cons a l ih =>
      have ha := h a List.mem_cons_self
      have ih := ih fun b hb => h b (List.mem_cons_of_mem _ hb)
      rw [List.map_cons, List.flatMap_cons, List.append_assoc, bindJoin, List.take_left' ha,
        List.drop_left' ha, ih]

end Bound

/-- The rows of a query whose columns are found, its conjuncts with their values. -/
theorem selectJoin_eq (conv : Conversions) {db : Db} {columns : List ColRef} {M F : String}
    {main follow : Table} (hmain : db (fold M) = some main) (hfollow : db (fold F) = some follow)
    {on conds : List (JoinAtom × List Value)}
    (hbound : ∀ a ∈ on ++ conds, a.2.length = a.1.params)
    (hfound : ∀ a ∈ columns ++ (on ++ conds).flatMap fun a => a.1.refs,
      (Sources.resolve ⟨M, F, main, follow⟩ a).isSome = true) :
    selectJoin conv db ⟨columns, M, F, on.map (·.1), conds.map (·.1)⟩
      ((on ++ conds).flatMap (·.2)) =
      some (((leftJoin main.rows follow.rows fun r s =>
        on.all (Sources.holds ⟨M, F, main, follow⟩ conv (r, some s))).filter fun p =>
          conds.all (Sources.holds ⟨M, F, main, follow⟩ conv p)).map
            (Sources.output ⟨M, F, main, follow⟩ columns)) := by
  have hon : ∀ a ∈ on, a.2.length = a.1.params := fun a ha => hbound a (List.mem_append_left _ ha)
  have hconds : ∀ a ∈ conds, a.2.length = a.1.params :=
    fun a ha => hbound a (List.mem_append_right _ ha)
  have hvalues := bindJoin_values hconds []
  rw [List.append_nil] at hvalues
  have hrefs : ((⟨columns, M, F, on.map (·.1), conds.map (·.1)⟩ : JoinStmt).refs.all fun a =>
      (Sources.resolve ⟨M, F, main, follow⟩ a).isSome) = true := by
    rw [JoinStmt.refs, ← List.map_append, List.flatMap_map]
    exact List.all_eq_true.mpr hfound
  rw [selectJoin, hmain, Option.bind_eq_bind, Option.bind_some, hfollow, Option.bind_some,
    if_pos hrefs, List.flatMap_append]
  dsimp only
  rw [bindJoin_values hon, params_sum hon, List.drop_left, hvalues]
  rfl

/-- A query that is not rejected finds its columns. -/
theorem selectJoin_found {conv : Conversions} {db : Db} {st : JoinStmt} {vs : List Value}
    {rows : List (List Value)} {main follow : Table} (h : selectJoin conv db st vs = some rows)
    (hmain : db (fold st.main) = some main) (hfollow : db (fold st.follow) = some follow) :
    ∀ a ∈ st.refs, (Sources.resolve ⟨st.main, st.follow, main, follow⟩ a).isSome = true := by
  rw [selectJoin, hmain, Option.bind_eq_bind, Option.bind_some, hfollow, Option.bind_some] at h
  by_contra hall
  rw [← List.all_eq_true] at hall
  rw [if_neg hall] at h
  cases h

end Sql
