import NBDataBase.Orm.Singles
import NBDataBase.Sql.Literal

/-!
# Orm — strings

An array of strings is inserted by texts with the string between quotes.

* `readInsert`: the insert of one literal that SQLite reads in a text.
* `readInsert_splice_iff`: the text of a string is read as the insert of the string exactly when
  the string has neither a quote nor a NUL.
* `insertStrings`: the strings branch of `insertToDBWithDataArray:tableName:columns:replace:`.
* `Holds`: a row of the table has the string in its column.  A step of the batch stores its string
  (`insertRow_holds`) and keeps the strings that are there (`insertRow_keeps`).
* `IsRowid`: a column declared `INTEGER PRIMARY KEY` is the `rowid`, which takes integers only.
* `storesStrings_iff`: the batch stores its strings, and does nothing else, exactly when none has
  a quote or a NUL and the column, no `rowid`, stores texts as they are.
* `quoted_string_lost`: a string that closes its literal.
-/

namespace NBDataBase
open Sql (Db Table Row Token Affinity Name fold lex)

/-! ### What SQLite reads -/

/-- An insert of one value. -/
structure LiteralInsert where
  replace : Bool
  table : String
  column : String
  value : String
  deriving DecidableEq

/-- What stands before the literal. -/
def insertHead (ts : List Token) : Option (Bool × String × String) := do
  let (replace, ts) ← ((Sql.keyword "replace" ts).map fun ts => (true, ts)) <|>
    ((Sql.keywords ["insert", "or", "ignore"] ts).map fun ts => (false, ts))
  let ts ← Sql.keyword "into" ts
  let (table, ts) ← Sql.name ts
  let ts ← Sql.symbol '(' ts
  let (column, ts) ← Sql.name ts
  let ts ← Sql.symbol ')' ts
  let ts ← Sql.keyword "values" ts
  match ← Sql.symbol '(' ts with
  | [] => return (replace, table, column)
  | _ => none

/-- What stands behind the literal.  SQLite reads one statement and leaves what is behind it. -/
def endsInsert : List Token → Bool
  | [.sym ')'] => true
  | .sym ')' :: .sym ';' :: _ => true
  | _ => false

/-- The insert of one literal that is read in a text.  The text ends at its first NUL. -/
def readInsert (sql : String) : Option LiteralInsert :=
  let chars := (cString sql).toList
  match insertHead (lex (String.ofList (chars.takeWhile (· ≠ '\'')))),
    Sql.literal ((chars.dropWhile (· ≠ '\'')).drop 1) with
  | some (replace, table, column), some (value, rest) =>
      if endsInsert (lex (String.ofList rest)) then
        some ⟨replace, table, column, String.ofList value⟩
      else none
  | _, _ => none

/-- The text of the insert of a string. -/
def stringText (tableName columns : String) (replace : Bool) (data : String) : String :=
  insertValueText tableName columns ("'" ++ (data ++ "'")) replace

example : readInsert (stringText "t" "c" false "it's") = none := by decide +kernel

example : readInsert (stringText "t" "c" false "a'); drop table t; --") =
    some ⟨false, "t", "c", "a"⟩ := by decide +kernel

variable {T C : String}

/-- The text before the literal. -/
def headText (T C : String) (replace : Bool) : String :=
  (if replace then "replace" else "insert or ignore") ++ (" into " ++ (T ++ (" (" ++
    (C ++ ") values ("))))

theorem stringText_eq (T C : String) (replace : Bool) (s : String) :
    (stringText T C replace s).toList =
      (headText T C replace).toList ++ '\'' :: (s.toList ++ ['\'', ')']) := by
  simp only [stringText, insertValueText, headText, String.toList_append, List.append_assoc]
  rfl

/-- The tokens of the head. -/
theorem lex_headText (hT : Name T) (hC : Name C) (replace : Bool) :
    insertHead (lex (headText T C replace)) = some (replace, T, C) := by
  have hinto : ∀ y : String, lex (" into " ++ y) = .word "into" :: lex y := fun y => by
    rw [Sql.lex_closed (by decide)]
    rfl
  have hopen : ∀ y : String, lex (" (" ++ y) = .sym '(' :: lex y := fun y => by
    rw [Sql.lex_closed (by decide)]
    rfl
  have hvalues : lex ") values (" = [.sym ')', .word "values", .sym '('] := by decide
  have hrest : lex (" into " ++ (T ++ (" (" ++ (C ++ ") values (")))) =
      [.word "into", .word T, .sym '(', .word C, .sym ')', .word "values", .sym '('] := by
    rw [hinto, Sql.lex_word_opened hT.word (Sql.Opened.append (by decide) (by decide) _), hopen,
      Sql.lex_word_opened hC.word (by decide), hvalues]
  have hopened : Sql.Opened (" into " ++ (T ++ (" (" ++ (C ++ ") values (")))) :=
    Sql.Opened.append (by decide) (by decide) _
  -- what is read behind the first words
  have hreads : ∀ k : String, fold k = k → ∀ ts, Sql.keyword k (.word k :: ts) = some ts :=
    fun k hk ts => Sql.keyword_eq hk ts
  have hinto' := hreads "into" (by decide)
  have hvalues' := hreads "values" (by decide)
  cases replace with
  | true =>
      have hword : lex "replace" = [.word "replace"] := by decide
      have hreplace := hreads "replace" (by decide)
      have hlex : lex (headText T C true) = .word "replace" :: lex (" into " ++ (T ++ (" (" ++
          (C ++ ") values (")))) := by
        rw [headText, if_pos rfl, Sql.lex_opened hopened, hword]
        rfl
      rw [hlex, hrest]
      simp only [insertHead, hreplace, hinto', hvalues', Sql.symbol_eq, Sql.name_eq hT,
        Sql.name_eq hC, Option.map_some, Option.orElse_eq_orElse, Option.orElse_some,
        Option.bind_eq_bind, Option.bind_some]
      rfl
  | false =>
      have hword : lex "insert or ignore" = [.word "insert", .word "or", .word "ignore"] := by
        decide
      have hlex : lex (headText T C false) = .word "insert" :: .word "or" :: .word "ignore" ::
          lex (" into " ++ (T ++ (" (" ++ (C ++ ") values (")))) := by
        rw [headText, if_neg (by simp), Sql.lex_opened hopened, hword]
        rfl
      have hreplace : ∀ ts, Sql.keyword "replace" (.word "insert" :: ts) = none := by
        intro ts
        rw [Sql.keyword, if_neg (by decide)]
      have hignore : ∀ ts, Sql.keywords ["insert", "or", "ignore"]
          (.word "insert" :: .word "or" :: .word "ignore" :: ts) = some ts := by
        intro ts
        simp only [Sql.keywords, hreads "insert" (by decide), hreads "or" (by decide),
          hreads "ignore" (by decide), Option.bind_some]
      rw [hlex, hrest]
      simp only [insertHead, hreplace, hignore, hinto', hvalues', Sql.symbol_eq, Sql.name_eq hT,
        Sql.name_eq hC, Option.map_some, Option.map_none, Option.orElse_eq_orElse,
        Option.orElse_none, Option.bind_eq_bind, Option.bind_some]
      rfl

/-- A word has neither a quote nor a NUL. -/
theorem word_plain {w : String} (hw : Sql.Word w) {c : Char} (hc : c ∈ w.toList) :
    c ≠ '\'' ∧ c ≠ '\x00' := by
  have hchar := hw.2 c hc
  constructor
  · rintro rfl
    exact absurd hchar (by decide)
  · rintro rfl
    exact absurd hchar (by decide)

/-- The text before the column has neither a quote nor a NUL. -/
theorem intoText_plain (hT : Name T) (replace : Bool) :
    ∀ c ∈ ((if replace then "replace" else "insert or ignore") ++ (" into " ++
      (T ++ " ("))).toList, c ≠ '\'' ∧ c ≠ '\x00' := by
  intro c hc
  have hfixed : ∀ x : String, x.toList.all (fun c => c ≠ '\'' && c ≠ '\x00') = true →
      c ∈ x.toList → c ≠ '\'' ∧ c ≠ '\x00' := by
    intro x hx hcx
    simpa using List.all_eq_true.mp hx c hcx
  simp only [String.toList_append, List.mem_append] at hc
  rcases hc with hc | hc | hc | hc
  · cases replace with
    | true => exact hfixed "replace" (by decide) hc
    | false => exact hfixed "insert or ignore" (by decide) hc
  · exact hfixed " into " (by decide) hc
  · exact word_plain hT.word hc
  · exact hfixed " (" (by decide) hc

/-- The head has neither a quote nor a NUL. -/
theorem headText_plain (hT : Name T) (hC : Name C) (replace : Bool) :
    ∀ c ∈ (headText T C replace).toList, c ≠ '\'' ∧ c ≠ '\x00' := by
  intro c hc
  have hinto := intoText_plain hT replace c
  have hvalues : c ∈ (") values (" : String).toList → c ≠ '\'' ∧ c ≠ '\x00' := by
    intro hc
    have hall : (") values (" : String).toList.all (fun c => c ≠ '\'' && c ≠ '\x00') = true := by
      decide
    simpa using List.all_eq_true.mp hall c hc
  simp only [headText, String.toList_append, List.mem_append] at hc
  simp only [String.toList_append, List.mem_append] at hinto
  rcases hc with hc | hc | hc | hc | hc | hc
  · exact hinto (.inl hc)
  · exact hinto (.inr (.inl hc))
  · exact hinto (.inr (.inr (.inl hc)))
  · exact hinto (.inr (.inr (.inr hc)))
  · exact word_plain hC.word hc
  · exact hvalues hc

/-- What is left of a text up to its first NUL. -/
def uncut (x : List Char) : List Char := x.takeWhile (· ≠ '\x00')

theorem uncut_plain {x : List Char} (h : '\x00' ∉ x) : uncut x = x :=
  List.takeWhile_eq_self_iff.mpr fun c hc => by
    have hne : c ≠ '\x00' := fun e => h (e ▸ hc)
    simpa using hne

/-- The literal that is read in the text of a string. -/
theorem readInsert_eq (hT : Name T) (hC : Name C) (replace : Bool) (s : String) :
    readInsert (stringText T C replace s) =
      (Sql.literal (uncut (s.toList ++ ['\'', ')']))).bind fun r =>
        if endsInsert (lex (String.ofList r.2)) then
          some ⟨replace, T, C, String.ofList r.1⟩
        else none := by
  have hplain := headText_plain hT hC replace
  have hchars : (cString (stringText T C replace s)).toList =
      (headText T C replace).toList ++ '\'' :: uncut (s.toList ++ ['\'', ')']) := by
    rw [cString, String.toList_ofList, stringText_eq,
      List.takeWhile_append_of_pos fun c hc => by simpa using (hplain c hc).2]
    rfl
  have hquote : ∀ c ∈ (headText T C replace).toList, decide (c ≠ '\'') = true := fun c hc => by
    simpa using (hplain c hc).1
  have htake : ∀ x : List Char, ((headText T C replace).toList ++ '\'' :: x).takeWhile
      (· ≠ '\'') = (headText T C replace).toList := by
    intro x
    rw [List.takeWhile_append_of_pos hquote]
    simp
  have hdrop : ∀ x : List Char, (((headText T C replace).toList ++ '\'' :: x).dropWhile
      (· ≠ '\'')).drop 1 = x := by
    intro x
    rw [List.dropWhile_append_of_pos hquote]
    rfl
  unfold readInsert
  simp only [hchars, htake, hdrop, String.ofList_toList, lex_headText hT hC]
  cases Sql.literal (uncut (s.toList ++ ['\'', ')'])) with
  | none => rfl
  | some r => rfl

theorem mem_escape {c : Char} {x : List Char} (h : c ∈ x) : c ∈ Sql.escape x := by
  induction x with
  | nil => cases h
  | cons d ds ih =>
      rw [Sql.escape]
      rcases List.mem_cons.mp h with rfl | h
      · split
        · simp_all
        · exact List.mem_cons_self
      · split
        · exact List.mem_cons_of_mem _ (List.mem_cons_of_mem _ (ih h))
        · exact List.mem_cons_of_mem _ (ih h)

/-- **A string is read as itself** exactly when it has neither a quote nor a NUL. -/
theorem readInsert_splice_iff (hT : Name T) (hC : Name C) (replace : Bool) (s : String) :
    readInsert (stringText T C replace s) = some ⟨replace, T, C, s⟩ ↔
      '\'' ∉ s.toList ∧ '\x00' ∉ s.toList := by
  have hend : ∀ x : List Char, '\x00' ∉ x → uncut (x ++ ['\'', ')']) = x ++ ['\'', ')'] := by
    intro x hx
    refine uncut_plain fun hm => ?_
    rcases List.mem_append.mp hm with hm | hm
    · exact hx hm
    · exact absurd hm (by decide)
  rw [readInsert_eq hT hC]
  constructor
  · intro h
    obtain ⟨⟨value, rest⟩, hliteral, h⟩ := Option.bind_eq_some_iff.mp h
    split at h
    · have hvalue : String.ofList value = s :=
        congrArg LiteralInsert.value (Option.some.inj h)
      have hvalue : value = s.toList := by rw [← hvalue, String.toList_ofList]
      subst hvalue
      -- the text is cut at a NUL, so no NUL comes through
      have hnul : '\x00' ∉ s.toList := by
        intro hm
        have hin : '\x00' ∈ uncut (s.toList ++ ['\'', ')']) := by
          rw [Sql.literal_eq_some hliteral]
          exact List.mem_append_left _ (mem_escape hm)
        simpa using List.mem_takeWhile_imp hin
      rw [hend _ hnul] at hliteral
      exact ⟨(Sql.literal_self (by simp) hliteral).1, hnul⟩
    · cases h
  · rintro ⟨hquote, hnul⟩
    have hliteral : Sql.literal (s.toList ++ '\'' :: [')']) = some (s.toList, [')']) :=
      Sql.literal_plain hquote (by simp)
    have hclose : endsInsert (lex (String.ofList [')'])) = true := by decide
    rw [hend _ hnul, hliteral, Option.bind_some, if_pos hclose, String.ofList_toList]

/-! ### The batch -/

/-- The declared type of a column. -/
def declaredType (tbl : Table) (c : String) : Option String :=
  (tbl.columns.find? fun d => fold d.1 = fold c).map (·.2)

/-- A column of the type is the `rowid` under the key: the key itself, and declared `INTEGER`. -/
def IsRowid (c type : String) (key : List String) : Prop :=
  key.map fold = [fold c] ∧ fold type = "integer"

instance (c type : String) (key : List String) : Decidable (IsRowid c type key) :=
  inferInstanceAs (Decidable (_ ∧ _))

def isInteger : Sql.Value → Bool
  | .num (.int _) => true
  | _ => false

/-- The datatype of the value mismatches: a `rowid` takes what its affinity makes an integer. -/
def mismatches (conv : Sql.Conversions) (tbl : Table) (c : String) (v : Sql.Value) : Bool :=
  ((declaredType tbl c).any fun type => IsRowid c type tbl.primaryKey) &&
    !isInteger ((tbl.affinity c).apply conv v)

section

variable (R : Runtime) (other : String → Action Bool)

/-- Execute a text: the insert of one literal, or any other statement. -/
def executeText (sql : String) : Action Bool :=
  match readInsert sql with
  | none => other sql
  | some i => fun db =>
      if (db (fold i.table)).any fun tbl => mismatches R.conv tbl i.column (.text i.value) then
        (.ok false, db)
      else
        match Sql.exec R.conv db (.insert i.replace i.table [i.column] 1) [.text i.value] with
        | some db' => (.ok true, db')
        | none => (.ok false, db)

/-- `insertToDBWithDataArray:tableName:columns:replace:` of strings; `dataClass` is the class of
the first. -/
def insertStrings (execute : String → Action Bool) (dataClass : ModelClass)
    (array : List String) (tableName columns : String) (replace : Bool) (conn : DbConnection) :
    Except Fault Unit × DbConnection :=
  match array with
  | [] => (.ok (), conn)
  | [data] => ArrayWrite.onConnection (inDatabase do
      createTableIfNotExists R dataClass tableName
      ignore (execute (stringText tableName columns replace data))) conn
  | _ => (BatchWrite.insertStrings dataClass tableName columns replace).run R execute array conn

end

/-- A row has the string in the column. -/
def Holds (C : String) (tbl : Table) (s : String) : Prop := ∃ r ∈ tbl.rows, r (fold C) = .text s

/-- The column is the only one with a constraint. -/
def OnlyKey (C : String) (tbl : Table) : Prop := ∀ c ∈ tbl.primaryKey, fold c = fold C

/-- With every table that has the column with the type, and the key: each element is the one insert
that it is meant to be, every string is in the table afterwards, and the other tables are as they
were. -/
def StoresStrings (R : Runtime) (other : String → Action Bool) (dataClass : ModelClass)
    (array : List String) (T C : String) (replace : Bool) (type : String) (key : List String) :
    Prop :=
  ∀ db tbl, db (fold T) = some tbl → declaredType tbl C = some type → tbl.primaryKey = key →
    (∀ s ∈ array, readInsert (stringText T C replace s) = some ⟨replace, T, C, s⟩) ∧
    ∃ db' tbl', insertStrings R (executeText R other) dataClass array T C replace ⟨db, none⟩ =
        (.ok (), ⟨db', none⟩) ∧
      db' (fold T) = some tbl' ∧ (∀ s ∈ array, Holds C tbl' s) ∧ ∀ n, n ≠ fold T → db' n = db n

/-- What the batch asks of a string, and of the column. -/
structure KeptText (R : Runtime) (C type : String) (key : List String) (s : String) : Prop where
  quote : '\'' ∉ s.toList
  nul : '\x00' ∉ s.toList
  asItIs : (Sql.affinityOf type).apply R.conv (.text s) = .text s
  noRowid : ¬ IsRowid C type key

/-! ### One insert -/

variable {R : Runtime} {other : String → Action Bool} {dataClass : ModelClass} {replace : Bool}
  {tbl tbl' : Table} {s : String}

/-- What the insert of a string does to the table. -/
structure Inserted (R : Runtime) (C s : String) (tbl tbl' : Table) : Prop where
  columns : tbl'.columns = tbl.columns
  primaryKey : tbl'.primaryKey = tbl.primaryKey
  rows : ∀ r ∈ tbl'.rows, r ∈ tbl.rows ∨ mismatches R.conv tbl C (.text s) = false ∧
    r (fold C) = (tbl.affinity C).apply R.conv (.text s)
  holds : OnlyKey C tbl → (tbl.affinity C).apply R.conv (.text s) = .text s →
    mismatches R.conv tbl C (.text s) = false →
    Holds C tbl' s ∧ ∀ t, Holds C tbl t → Holds C tbl' t

/-- A refused insert does nothing. -/
theorem Inserted.refused (h : mismatches R.conv tbl C (.text s) = true) :
    Inserted R C s tbl tbl where
  columns := rfl
  primaryKey := rfl
  rows r hr := .inl hr
  holds _ _ hno := by
    rw [h] at hno
    cases hno

theorem newRow_column (v : Sql.Value) :
    Sql.newRow R.conv tbl [C] [v] (fold C) = (tbl.affinity C).apply R.conv v := by
  simp [Sql.newRow]

/-- A row that clashes on the column has the text of the other. -/
theorem text_of_sameKey (hkey : OnlyKey C tbl) {row r : Row} (hrow : row (fold C) = .text s)
    (h : tbl.sameKey row r = true) : r (fold C) = .text s := by
  simp only [Table.sameKey, Bool.and_eq_true, Bool.not_eq_true', List.isEmpty_eq_false_iff,
    List.all_eq_true] at h
  obtain ⟨hne, hall⟩ := h
  obtain ⟨c, hc⟩ := List.exists_mem_of_ne_nil _ hne
  have hequals := hall c hc
  rw [hkey c hc, hrow] at hequals
  cases hr : r (fold C) with
  | text t =>
      rw [hr] at hequals
      have hst : s = t := by simpa [Sql.Value.equals] using hequals
      rw [hst]
  | null => rw [hr] at hequals; cases hequals
  | num n => rw [hr] at hequals; cases hequals
  | blob b => rw [hr] at hequals; cases hequals

/-- **The insert of a string** adds its row or finds one with the string. -/
theorem insertRow_inserted (hhas : tbl.has C = true) (replace : Bool)
    (hno : mismatches R.conv tbl C (.text s) = false) :
    ∃ tbl', Sql.insertRow R.conv replace [C] [.text s] tbl = some tbl' ∧
      Inserted R C s tbl tbl' := by
  have hall : [C].all tbl.has = true := by simpa using hhas
  have hnew : Sql.newRow R.conv tbl [C] [.text s] (fold C) =
      (tbl.affinity C).apply R.conv (.text s) := newRow_column _
  unfold Sql.insertRow
  rw [if_pos hall]
  generalize Sql.newRow R.conv tbl [C] [.text s] = row at hnew ⊢
  have hadded : ∀ rows : List Row, (∀ r ∈ rows, r ∈ tbl.rows) →
      ∀ r ∈ rows ++ [row], r ∈ tbl.rows ∨ mismatches R.conv tbl C (.text s) = false ∧
        r (fold C) = (tbl.affinity C).apply R.conv (.text s) := by
    intro rows hrows r hr
    rcases List.mem_append.mp hr with hr | hr
    · exact .inl (hrows r hr)
    · rw [List.mem_singleton.mp hr]
      exact .inr ⟨hno, hnew⟩
  cases replace with
  | true =>
      refine ⟨_, rfl, rfl, rfl, hadded _ fun r hr => (List.mem_filter.mp hr).1,
        fun hkey hkept _ => ?_⟩
      rw [hkept] at hnew
      have hrow : Holds C { tbl with
          rows := tbl.rows.filter (fun r => !tbl.sameKey row r) ++ [row] } s :=
        ⟨row, by simp, hnew⟩
      refine ⟨hrow, ?_⟩
      rintro t ⟨r, hr, ht⟩
      by_cases hclash : tbl.sameKey row r
      · -- the row is replaced by one with the same text
        have hs := text_of_sameKey hkey hnew hclash
        rw [ht] at hs
        obtain rfl : t = s := by simpa using hs
        exact hrow
      · exact ⟨r, List.mem_append_left _ (List.mem_filter.mpr ⟨hr, by simpa using hclash⟩), ht⟩
  | false =>
      by_cases hclash : tbl.rows.any (tbl.sameKey row)
      · refine ⟨tbl, by simp [hclash], rfl, rfl, fun r hr => .inl hr, fun hkey hkept _ => ?_⟩
        rw [hkept] at hnew
        obtain ⟨r, hr, hsame⟩ := List.any_eq_true.mp hclash
        exact ⟨⟨r, hr, text_of_sameKey hkey hnew hsame⟩, fun t ht => ht⟩
      · refine ⟨{ tbl with rows := tbl.rows ++ [row] }, by simp [hclash], rfl, rfl,
          hadded _ fun r hr => hr, fun hkey hkept _ => ?_⟩
        rw [hkept] at hnew
        refine ⟨⟨row, by simp, hnew⟩, ?_⟩
        rintro t ⟨r, hr, ht⟩
        exact ⟨r, List.mem_append_left _ hr, ht⟩

theorem Inserted.has (h : Inserted R C s tbl tbl') : tbl'.has C = tbl.has C := by
  rw [Table.has, Table.has, h.columns]

theorem Inserted.affinity (h : Inserted R C s tbl tbl') : tbl'.affinity C = tbl.affinity C := by
  rw [Table.affinity, Table.affinity, h.columns]

theorem Inserted.mismatches (h : Inserted R C s tbl tbl') (v : Sql.Value) :
    mismatches R.conv tbl' C v = mismatches R.conv tbl C v := by
  rw [NBDataBase.mismatches, NBDataBase.mismatches, h.affinity, h.primaryKey, declaredType,
    declaredType, h.columns]

theorem Inserted.onlyKey (h : Inserted R C s tbl tbl') (hkey : OnlyKey C tbl) :
    OnlyKey C tbl' := by
  intro c hc
  rw [h.primaryKey] at hc
  exact hkey c hc

/-! ### The strings of an array -/

/-- What the inserts of some strings do to the table. -/
structure Filled (R : Runtime) (C : String) (array : List String) (tbl tbl' : Table) : Prop where
  rows : ∀ r ∈ tbl'.rows, r ∈ tbl.rows ∨ ∃ s ∈ array, mismatches R.conv tbl C (.text s) = false ∧
    r (fold C) = (tbl.affinity C).apply R.conv (.text s)
  holds : OnlyKey C tbl → (∀ s ∈ array, (tbl.affinity C).apply R.conv (.text s) = .text s) →
    (∀ s ∈ array, mismatches R.conv tbl C (.text s) = false) →
    (∀ s ∈ array, Holds C tbl' s) ∧ ∀ t, Holds C tbl t → Holds C tbl' t

variable {array : List String} {db : Db}

theorem executeText_run (hT : Name T) (hC : Name C) (hdb : db (fold T) = some tbl)
    (hhas : tbl.has C = true) (hs : '\'' ∉ s.toList ∧ '\x00' ∉ s.toList) :
    ∃ done tbl', Inserted R C s tbl tbl' ∧ executeText R other (stringText T C replace s) db =
      (.ok done, Function.update db (fold T) (some tbl')) := by
  unfold executeText
  rw [(readInsert_splice_iff hT hC replace s).mpr hs]
  dsimp only
  rw [hdb, Option.any_some]
  cases hno : mismatches R.conv tbl C (.text s) with
  | true => exact ⟨false, tbl, .refused hno, by rw [if_pos rfl, ← hdb, Function.update_eq_self]⟩
  | false =>
      obtain ⟨tbl', hrow, hinserted⟩ := insertRow_inserted (R := R) hhas replace hno
      have hexec : Sql.exec R.conv db (.insert replace T [C] 1) [.text s] =
          some (Function.update db (fold T) (some tbl')) := Sql.onTable_of_some hdb hrow
      exact ⟨true, tbl', hinserted, by rw [if_neg (by decide), hexec]⟩

theorem mapAll_cons_ok {α β : Type} {f : α → Action β} {x : α} {xs : List α} {y : β}
    {ys : List β} {db db₁ db' : Db} (hx : f x db = (.ok y, db₁))
    (hxs : Action.mapAll f xs db₁ = (.ok ys, db')) :
    Action.mapAll f (x :: xs) db = (.ok (y :: ys), db') := by
  have hfirst : Action.mapAll f (x :: xs) db =
      (Action.mapAll f xs >>= fun ys => pure (y :: ys)) db₁ := Action.bind_ok hx
  rw [hfirst, Action.bind_ok hxs]
  rfl

theorem mapAll_single {α β : Type} {f : α → Action β} {x : α} {y : β} {db db' : Db}
    (h : Action.mapAll f [x] db = (.ok [y], db')) : f x db = (.ok y, db') := by
  rcases hx : f x db with ⟨e | z, db₁⟩
  · have herror : Action.mapAll f [x] db = (.error e, db₁) := Action.bind_error hx
    rw [herror] at h
    cases h
  · have hall : Action.mapAll f [x] db = (.ok [z], db₁) := mapAll_cons_ok hx rfl
    rw [hall] at h
    cases h
    rfl

/-- An action that inserts the string into the table called `T`, or is refused. -/
def InsertsInto (R : Runtime) (T C : String) (f : String → Action Bool) (s : String) : Prop :=
  ∀ db tbl, db (fold T) = some tbl → tbl.has C = true → ∃ done tbl', Inserted R C s tbl tbl' ∧
    f s db = (.ok done, Function.update db (fold T) (some tbl'))

/-- **The strings one after another.** -/
theorem strings_run {f : String → Action Bool} (hdb : db (fold T) = some tbl)
    (hhas : tbl.has C = true) (hf : ∀ s ∈ array, InsertsInto R T C f s) :
    ∃ outcomes db' tbl', outcomes.length = array.length ∧
      Action.mapAll f array db = (.ok outcomes, db') ∧ db' (fold T) = some tbl' ∧
      (∀ n, n ≠ fold T → db' n = db n) ∧ Filled R C array tbl tbl' := by
  induction array generalizing db tbl with
  | nil =>
      exact ⟨[], db, tbl, rfl, rfl, hdb, fun _ _ => rfl, fun r hr => .inl hr,
        fun _ _ _ => ⟨fun s hs => (List.not_mem_nil hs).elim, fun t ht => ht⟩⟩
  | cons s array ih =>
      obtain ⟨done, tbl₁, hinserted, hstep⟩ := hf s List.mem_cons_self db tbl hdb hhas
      have hself : Function.update db (fold T) (some tbl₁) (fold T) = some tbl₁ :=
        Function.update_self ..
      obtain ⟨outcomes, db', tbl', hlen, hrun, hdb', hframe, hfilled⟩ := ih hself
        (by rw [hinserted.has, hhas]) fun t ht => hf t (List.mem_cons_of_mem _ ht)
      refine ⟨done :: outcomes, db', tbl', congrArg Nat.succ hlen, mapAll_cons_ok hstep hrun, hdb',
        fun n hn => ?_, fun r hr => ?_, fun hkey hkept hno => ?_⟩
      · rw [hframe n hn, Function.update_of_ne hn]
      · rcases hfilled.rows r hr with hr | ⟨t, ht, hrow⟩
        · rcases hinserted.rows r hr with hr | hrow
          · exact .inl hr
          · exact .inr ⟨s, List.mem_cons_self, hrow⟩
        · rw [hinserted.affinity, hinserted.mismatches] at hrow
          exact .inr ⟨t, List.mem_cons_of_mem _ ht, hrow⟩
      · obtain ⟨hself, hkeep⟩ := hinserted.holds hkey (hkept s List.mem_cons_self)
          (hno s List.mem_cons_self)
        obtain ⟨hrest, hkeep'⟩ := hfilled.holds (hinserted.onlyKey hkey) (fun t ht => by
          rw [hinserted.affinity]
          exact hkept t (List.mem_cons_of_mem _ ht)) fun t ht => by
          rw [hinserted.mismatches]
          exact hno t (List.mem_cons_of_mem _ ht)
        refine ⟨fun t ht => ?_, fun t ht => hkeep' t (hkeep t ht)⟩
        rcases List.mem_cons.mp ht with rfl | ht
        · exact hkeep' t hself
        · exact hrest t ht

theorem created_there (hT : Name T) (h : (db (fold T)).isSome) :
    created R dataClass T db = db := by
  obtain ⟨o, ho⟩ := created_eq hT R dataClass
  rw [ho, if_pos (.inr h)]

/-- Both branches of the method insert the strings one after another. -/
theorem insertStrings_run {execute : String → Action Bool} {outcomes : List Bool} {db' : Db}
    (hcreate : createTableIfNotExists R dataClass T db = (.ok (), db))
    (hlen : outcomes.length = array.length)
    (hrun : Action.mapAll (fun s => execute (stringText T C replace s)) array db =
      (.ok outcomes, db')) :
    insertStrings R execute dataClass array T C replace ⟨db, none⟩ = (.ok (), ⟨db', none⟩) := by
  match array, outcomes, hlen with
  | [], [], _ =>
      cases hrun
      rfl
  | [s], [o], _ =>
      have haction : (createTableIfNotExists R dataClass T >>= fun _ =>
          ignore (execute (stringText T C replace s))) db = (.ok (), db') :=
        (Action.bind_ok hcreate).trans (ignore_ok (mapAll_single hrun))
      show ArrayWrite.onConnection (createTableIfNotExists R dataClass T >>= fun _ =>
        ignore (execute (stringText T C replace s))) ⟨db, none⟩ = _
      rw [ArrayWrite.onConnection, haction]
  | s :: s' :: array, outcomes, _ =>
      have hresults : (BatchWrite.insertStrings dataClass T C replace).results R execute
          (s :: s' :: array) db = (.ok outcomes, db') := (Action.bind_ok hcreate).trans hrun
      exact run_done hresults

/-! ### What is stored -/

/-- A text that a column stores of some text is one that it stores as it is. -/
theorem apply_text_idem {conv : Sql.Conversions} {a : Affinity} {t : String}
    (h : a.apply conv (.text t) = .text s) : a.apply conv (.text s) = .text s := by
  have hnumeric : Affinity.applyNumeric conv (.text t) = .text s →
      Affinity.applyNumeric conv (.text s) = .text s := by
    intro h
    cases ht : conv.ofText t with
    | some n => simp [Affinity.applyNumeric, ht] at h
    | none =>
        have hts : t = s := by simpa [Affinity.applyNumeric, ht] using h
        rw [← hts]
        simp [Affinity.applyNumeric, ht]
  cases a with
  | text => rfl
  | blob => rfl
  | numeric => exact hnumeric h
  | integer => exact hnumeric h
  | real =>
      have hread : Affinity.applyNumeric conv (.text t) = .text s := by
        rw [Affinity.apply] at h
        split at h
        · cases h
        · exact h
      have hs := hnumeric hread
      rw [Affinity.apply, hs]

/-- What the declared type of a column says of it. -/
theorem declaredType_facts {type : String} (h : declaredType tbl C = some type) :
    tbl.has C = true ∧ tbl.affinity C = Sql.affinityOf type ∧ ∀ v,
      mismatches R.conv tbl C v = (decide (IsRowid C type tbl.primaryKey) &&
        !isInteger ((Sql.affinityOf type).apply R.conv v)) := by
  obtain ⟨d, hd, rfl⟩ := Option.map_eq_some_iff.mp h
  have haffinity : tbl.affinity C = Sql.affinityOf d.2 := by rw [Table.affinity, hd]
  have hname := List.find?_some hd
  have hhas : tbl.has C = true := List.any_eq_true.mpr ⟨d, List.mem_of_find?_eq_some hd, hname⟩
  refine ⟨hhas, haffinity, fun v => ?_⟩
  rw [mismatches, h, Option.any_some, haffinity]

/-- **Plain strings** are inserted one after another. -/
theorem insertStrings_plain (R : Runtime) (other : String → Action Bool) (dataClass : ModelClass)
    (replace : Bool) (hT : Name T) (hC : Name C) (hdb : db (fold T) = some tbl)
    (hhas : tbl.has C = true) (hplain : ∀ s ∈ array, '\'' ∉ s.toList ∧ '\x00' ∉ s.toList) :
    ∃ db' tbl', insertStrings R (executeText R other) dataClass array T C replace ⟨db, none⟩ =
        (.ok (), ⟨db', none⟩) ∧ db' (fold T) = some tbl' ∧
      (∀ n, n ≠ fold T → db' n = db n) ∧ Filled R C array tbl tbl' := by
  obtain ⟨outcomes, db', tbl', hlen, hmap, hdb', hframe, hfilled⟩ := strings_run (R := R) (T := T)
    (C := C) (f := fun s => executeText R other (stringText T C replace s)) hdb hhas
    fun s hs db tbl hdb hhas => executeText_run hT hC hdb hhas (hplain s hs)
  have hcreate : createTableIfNotExists R dataClass T db = (.ok (), db) := by
    rw [create_run, created_there hT (by rw [hdb]; rfl)]
  exact ⟨db', tbl', insertStrings_run hcreate hlen hmap, hdb', hframe, hfilled⟩

/-- **An array of strings is stored**, and nothing else done, exactly when no string has a quote
or a NUL and the column, no `rowid`, stores each as it is. -/
theorem storesStrings_iff (R : Runtime) (other : String → Action Bool) (dataClass : ModelClass)
    (array : List String) (T C : String) (replace : Bool) (type : String) (key : List String)
    (hT : Name T) (hC : Name C) (hkey : ∀ c ∈ key, fold c = fold C) :
    StoresStrings R other dataClass array T C replace type key ↔
      ∀ s ∈ array, KeptText R C type key s := by
  constructor
  · intro h s hs
    -- a table with the column alone and no row
    obtain ⟨tbl, htbl⟩ : ∃ tbl : Table, tbl = ⟨[(C, type)], key, []⟩ := ⟨_, rfl⟩
    obtain ⟨db, hdb⟩ : ∃ db : Db, db (fold T) = some tbl := ⟨fun _ => some tbl, rfl⟩
    have htype : declaredType tbl C = some type := by simp [htbl, declaredType]
    obtain ⟨hhas, haffinity, hmismatch⟩ := declaredType_facts (R := R) htype
    obtain ⟨hread, db', tbl', hrun, hdb', hholds, -⟩ := h db tbl hdb htype (by rw [htbl])
    have hplain : ∀ s ∈ array, '\'' ∉ s.toList ∧ '\x00' ∉ s.toList := fun t ht =>
      (readInsert_splice_iff hT hC replace t).mp (hread t ht)
    obtain ⟨db₁, tbl₁, hsame, hdb₁, -, hfilled⟩ :=
      insertStrings_plain R other dataClass replace hT hC hdb hhas hplain
    rw [hrun] at hsame
    obtain rfl : db' = db₁ := congrArg DbConnection.db (Prod.mk.inj hsame).2
    obtain rfl := Option.some.inj (hdb'.symm.trans hdb₁)
    obtain ⟨r, hr, hrs⟩ := hholds s hs
    obtain ⟨t, hno, hrow⟩ : ∃ t, mismatches R.conv tbl C (.text t) = false ∧
        r (fold C) = (tbl.affinity C).apply R.conv (.text t) := by
      rcases hfilled.rows r hr with hr | ⟨t, -, hrow⟩
      · rw [htbl] at hr
        exact (List.not_mem_nil hr).elim
      · exact ⟨t, hrow⟩
    rw [hrs, haffinity] at hrow
    refine ⟨(hplain s hs).1, (hplain s hs).2, apply_text_idem hrow.symm, fun hrowid => ?_⟩
    -- what the `rowid` takes is no text
    rw [hmismatch, ← hrow, htbl] at hno
    simp [hrowid, isInteger] at hno
  · intro h db tbl hdb htype hprimary
    have hplain : ∀ s ∈ array, '\'' ∉ s.toList ∧ '\x00' ∉ s.toList := fun s hs =>
      ⟨(h s hs).quote, (h s hs).nul⟩
    obtain ⟨hhas, haffinity, hmismatch⟩ := declaredType_facts (R := R) htype
    refine ⟨fun s hs => (readInsert_splice_iff hT hC replace s).mpr (hplain s hs), ?_⟩
    obtain ⟨db', tbl', hrun, hdb', hframe, hfilled⟩ :=
      insertStrings_plain R other dataClass replace hT hC hdb hhas hplain
    have honly : OnlyKey C tbl := by
      rw [OnlyKey, hprimary]
      exact hkey
    refine ⟨db', tbl', hrun, hdb',
      (hfilled.holds honly (fun s hs => ?_) fun s hs => ?_).1, hframe⟩
    · rw [haffinity]
      exact (h s hs).asItIs
    · rw [hmismatch, hprimary, decide_eq_false (h s hs).noRowid]
      rfl

/-- Two plain strings, which are the key of their table. -/
theorem plain_strings_stored :
    StoresStrings demoRuntime (fun _ => return false) bookClass ["a b", "7"] "tb_words" "word" true
      "TEXT" ["word"] :=
  (storesStrings_iff demoRuntime (fun _ => return false) bookClass ["a b", "7"] "tb_words" "word"
    true "TEXT" ["word"] (by decide) (by decide) (by decide)).mpr fun s hs => by
      have hs : s = "a b" ∨ s = "7" := by simpa using hs
      rcases hs with rfl | rfl
      · exact ⟨by decide, by decide, rfl, by decide⟩
      · exact ⟨by decide, by decide, rfl, by decide⟩

/-- A string that closes its literal: its rest is a statement of its own. -/
theorem quoted_string_lost :
    readInsert (stringText "tb_words" "word" false "a'); drop table tb_words; --") =
        some ⟨false, "tb_words", "word", "a"⟩ ∧
      ¬ StoresStrings demoRuntime (fun _ => return false) bookClass
        ["a'); drop table tb_words; --"] "tb_words" "word" false "TEXT" [] := by
  refine ⟨by decide +kernel, fun h => ?_⟩
  obtain ⟨hread, -⟩ := h
    (fun n => if n = "tb_words" then some ⟨[("word", "TEXT")], [], []⟩ else none)
    ⟨[("word", "TEXT")], [], []⟩ (if_pos (by decide)) (by decide) rfl
  have hself := hread _ List.mem_cons_self
  revert hself
  decide +kernel

end NBDataBase
