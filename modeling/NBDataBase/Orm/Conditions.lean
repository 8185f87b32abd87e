import NBDataBase.Orm.Texts

/-!
# Orm — dictionary conditions

What a `where` dictionary selects.

* `EntryHolds`: what one entry says of a row.  `DictionaryHolds`: every entry that is no empty
  array holds; the helpers skip an empty array.
* `dictionaryToSqlWhere_isClause`: the clause has one conjunct for each entry that is not skipped.
* `satisfies_dictionary`: it selects the rows for which the dictionary holds.
-/

namespace NBDataBase
open Sql

/-! ### What a dictionary says -/

section Meaning

variable (R : Runtime) (tbl : Table) (r : Row)

/-- The column `k` of the row is `v`, as SQLite compares them. -/
def columnIs (k : String) (v : Obj) : Bool :=
  (r (fold k)).equals ((tbl.affinity k).ofComparison.apply R.conv (bindObject R v))

/-- What an entry says: the column is the value, or one of the values. -/
def EntryHolds : String × WhereValue → Bool
  | (k, .scalar v) => columnIs R tbl r k v
  | (k, .array vlist) => vlist.any (columnIs R tbl r k)

/-- Every entry that is no empty array holds. -/
def DictionaryHolds (dic : NSDictionary WhereValue) : Bool :=
  dic.entries.all fun e => e.2 = .array [] || EntryHolds R tbl r e

end Meaning

/-- The values that a dictionary binds, one after the other. -/
def boundValues (dic : NSDictionary WhereValue) : List Obj :=
  dic.entries.flatMap fun e => match e.2 with
    | .scalar v => [v]
    | .array vlist => vlist

/-! ### The conjuncts of a dictionary -/

/-- The conjunct of an entry, with its values; an empty array has none. -/
def entryAtom : String × WhereValue → Option (Atom × List Obj)
  | (_, .array []) => none
  | (k, .array vlist) => some (.isIn k vlist.length, vlist)
  | (k, .scalar v) => some (.eq k, [v])

/-- The conjuncts of a dictionary. -/
def dictionaryAtoms (entries : List (String × WhereValue)) : List (Atom × List Obj) :=
  entries.filterMap entryAtom

/-- The text of a conjunct. -/
def atomText : Atom → String
  | .eq k => " " ++ (k ++ "=?")
  | .isIn k n =>
      " " ++ (k ++ (" in(" ++ (String.intercalate "," ((List.replicate n ()).map fun _ => "?") ++
        ")")))

theorem atomText_ne (a : Atom) : atomText a ≠ "" := by
  cases a <;> exact append_ne_left (by decide)

theorem atomText_opened (a : Atom) : Opened (atomText a) := by
  cases a <;> exact Opened.append (by decide) (by decide) _

theorem atomText_closed (a : Atom) : Closed (atomText a) := by
  cases a with
  | eq k =>
      exact Closed.append (Closed.append (by decide) (by decide) _) (append_ne_right (by decide)) _
  | isIn k n =>
      exact Closed.append (Closed.append (Closed.append (Closed.append (by decide) (by decide) _)
        (append_ne_right (by decide)) _) (append_ne_left (by decide)) _)
        (append_ne_right (append_ne_left (by decide))) _

theorem lex_atomText {a : Atom} (h : a.Proper) : lex (atomText a) = a.tokens := by
  cases a with
  | eq k =>
      have hk : Name k := h
      rw [atomText, lex_closed (by decide), lex_assignment hk.word]
      rfl
  | isIn k n =>
      have hk : Name k := h.1
      have hin : lex " in(" = [.word "in", .sym '('] := by decide
      have hclose : lex ")" = [.sym ')'] := by decide
      rw [atomText, lex_closed (by decide),
        lex_word_opened hk.word (Opened.append (by decide) (by decide) _), lex_closed (by decide),
        lex_opened (by decide), lex_marks, hin, hclose, List.length_replicate]
      rfl

/-- A clause and its values after one conjunct more. -/
def clauseAppend (s : String × List Obj) (a : Atom × List Obj) : String × List Obj :=
  (s.1 ++ ((if s.1.length > 0 then " and" else "") ++ atomText a.1), s.2 ++ a.2)

theorem dictionaryStep_eq (s : String × List Obj) (e : String × WhereValue) :
    dictionaryStep s e = (entryAtom e).elim s (clauseAppend s) := by
  obtain ⟨k, va⟩ := e
  cases va with
  | scalar v =>
      have hand : " and " = " and" ++ " " := by decide
      unfold dictionaryStep entryAtom
      simp only [Option.elim, clauseAppend, atomText]
      split
      · rw [hand, String.append_assoc]
      · rw [String.empty_append]
  | array vlist =>
      cases vlist with
      | nil => rfl
      | cons v vs =>
          simp only [dictionaryStep, entryAtom, Option.elim, clauseAppend, atomText,
            String.append_assoc, List.map_replicate, List.map_const']

theorem dictionaryToSqlWhere_eq (dic : NSDictionary WhereValue) :
    dictionaryToSqlWhere dic = (dictionaryAtoms dic.entries).foldl clauseAppend ("", []) := by
  have hstep : dictionaryStep = fun s e => (entryAtom e).elim s (clauseAppend s) :=
    funext fun s => funext fun e => dictionaryStep_eq s e
  rw [dictionaryToSqlWhere, hstep]
  exact Loop.foldl_filterMap entryAtom clauseAppend dic.entries ("", [])

theorem clause_values (l : List (Atom × List Obj)) :
    (l.foldl clauseAppend ("", [])).2 = l.flatMap (·.2) := by
  induction l using List.reverseRecOn with
  | nil => rfl
  | append_singleton l a ih => simp [List.foldl_append, clauseAppend, ih]

theorem dictionaryToSqlWhere_values (dic : NSDictionary WhereValue) :
    (dictionaryToSqlWhere dic).2 = boundValues dic := by
  rw [dictionaryToSqlWhere_eq, clause_values, boundValues, dictionaryAtoms]
  induction dic.entries with
  | nil => rfl
  | cons e es ih =>
      rw [List.flatMap_cons, ← ih]
      obtain ⟨k, va⟩ := e
      cases va with
      | scalar v => rfl
      | array vlist => cases vlist <;> rfl

/-- The tokens of a clause, of which a cut after it cuts no word. -/
theorem lex_clause {l : List (Atom × List Obj)} (h : ∀ a ∈ l, a.1.Proper) :
    Closed (l.foldl clauseAppend ("", [])).1 ∧
      lex (l.foldl clauseAppend ("", [])).1 = condTokens (l.map (·.1)) ∧
      (l ≠ [] → (l.foldl clauseAppend ("", [])).1 ≠ "") := by
  induction l using List.reverseRecOn with
  | nil => exact ⟨by decide, rfl, fun h => absurd rfl h⟩
  | append_singleton l a ih =>
      obtain ⟨hclosed, hlex, hne⟩ := ih fun x hx => h x (List.mem_append_left _ hx)
      have ha : a.1.Proper := h a (by simp)
      rw [List.foldl_append, List.foldl_cons, List.foldl_nil, clauseAppend]
      refine ⟨?_, ?_, fun _ => append_ne_right (append_ne_right (atomText_ne _))⟩
      · exact Closed.append (Closed.append (atomText_closed _) (atomText_ne _) _)
          (append_ne_right (atomText_ne _)) _
      · by_cases hl : l = []
        · subst hl
          simpa [condTokens] using lex_atomText ha
        · have hlen : (l.foldl clauseAppend ("", [])).1.length > 0 :=
            Nat.pos_of_ne_zero fun e => hne hl (String.length_eq_zero_iff.mp e)
          have hand : lex " and" = [.word "and"] := by decide
          rw [if_pos hlen, lex_closed hclosed, lex_opened (atomText_opened _), lex_atomText ha,
            hlex, hand, List.map_append, List.map_singleton, condTokens_concat (by simpa using hl)]
          rfl

theorem entryAtom_proper {e : String × WhereValue} {a : Atom × List Obj} (hk : Name e.1)
    (h : entryAtom e = some a) : a.1.Proper := by
  obtain ⟨k, va⟩ := e
  cases va with
  | scalar v => cases h; exact hk
  | array vlist =>
      cases vlist with
      | nil => cases h
      | cons v vs => cases h; exact ⟨hk, by simp⟩

/-- **The clause of a dictionary is well formed**: the conjuncts of its entries. -/
theorem dictionaryToSqlWhere_isClause {dic : NSDictionary WhereValue}
    (hne : dictionaryAtoms dic.entries ≠ []) (h : ∀ e ∈ dic.entries, Name e.1) :
    IsClause (" where " ++ (dictionaryToSqlWhere dic).1)
      ((dictionaryAtoms dic.entries).map (·.1)) := by
  have hproper : ∀ a ∈ dictionaryAtoms dic.entries, a.1.Proper := by
    intro a ha
    obtain ⟨e, he, hea⟩ := List.mem_filterMap.mp ha
    exact entryAtom_proper (h e he) hea
  refine ⟨Opened.append (by decide) (by decide) _, ?_, ?_⟩
  · have hwhere : lex " where " = [.word "where"] := by decide
    rw [lex_closed (by decide), dictionaryToSqlWhere_eq, (lex_clause hproper).2.1, hwhere,
      whereTokens, if_neg (by simpa using hne)]
    rfl
  · intro a ha
    obtain ⟨x, hx, rfl⟩ := List.mem_map.mp ha
    exact hproper x hx

/-! ### What the clause selects -/

variable {R : Runtime} {tbl : Table} {r : Row}

theorem entryAtom_params {e : String × WhereValue} {a : Atom × List Obj}
    (h : entryAtom e = some a) : a.2.length = a.1.params := by
  unfold entryAtom at h
  split at h <;> cases h <;> rfl

theorem entryAtom_column {e : String × WhereValue} {a : Atom × List Obj}
    (h : entryAtom e = some a) : a.1.column = e.1 := by
  unfold entryAtom at h
  split at h <;> cases h <;> rfl

/-- The conjunct of an entry says what the entry says. -/
theorem entryAtom_holds {e : String × WhereValue} {a : Atom × List Obj}
    (h : entryAtom e = some a) :
    (a.2.any (columnIs R tbl r a.1.column)) = EntryHolds R tbl r e := by
  unfold entryAtom at h
  split at h <;> cases h
  · rfl
  · simp [EntryHolds, Atom.column]

theorem satisfies_atoms {l : List (Atom × List Obj)} (h : ∀ a ∈ l, a.2.length = a.1.params) :
    satisfies R.conv tbl (bind (l.map (·.1)) ((l.flatMap (·.2)).map (bindObject R))) r =
      l.all fun a => a.2.any (columnIs R tbl r a.1.column) := by
  induction l with
  | nil => rfl
  | cons a l ih =>
      have ha : a.2.length = a.1.params := h a List.mem_cons_self
      have ih := ih fun x hx => h x (List.mem_cons_of_mem _ hx)
      simp only [List.map_cons, List.flatMap_cons, List.map_append, Sql.bind, satisfies,
        List.all_cons]
      rw [List.take_left' (by simpa using ha), List.drop_left' (by simpa using ha)]
      simp only [satisfies] at ih
      rw [ih, List.any_map]
      rfl

theorem dictionaryAtoms_holds (entries : List (String × WhereValue)) :
    ((dictionaryAtoms entries).all fun a => a.2.any (columnIs R tbl r a.1.column)) =
      entries.all fun e => e.2 = .array [] || EntryHolds R tbl r e := by
  induction entries with
  | nil => rfl
  | cons e es ih =>
      rw [dictionaryAtoms] at ih ⊢
      cases he : entryAtom e with
      | none =>
          have hempty : e.2 = .array [] := by
            unfold entryAtom at he
            split at he
            · rfl
            · cases he
            · cases he
          simp [he, ih, hempty]
      | some a =>
          have hne : e.2 ≠ .array [] := by
            rintro hempty
            obtain ⟨k, va⟩ := e
            obtain rfl : va = .array [] := hempty
            cases he
          simp [he, ih, hne, entryAtom_holds he]

/-- **The clause of a dictionary selects the rows for which the dictionary holds.** -/
theorem satisfies_dictionary (dic : NSDictionary WhereValue) :
    satisfies R.conv tbl (bind ((dictionaryAtoms dic.entries).map (·.1))
      ((dictionaryToSqlWhere dic).2.map (bindObject R))) r = DictionaryHolds R tbl r dic := by
  have hparams : ∀ a ∈ dictionaryAtoms dic.entries, a.2.length = a.1.params := by
    intro a ha
    obtain ⟨e, -, hea⟩ := List.mem_filterMap.mp ha
    exact entryAtom_params hea
  rw [dictionaryToSqlWhere_eq, clause_values, satisfies_atoms hparams, dictionaryAtoms_holds]
  rfl

/-- The order of the entries does not matter. -/
theorem dictionaryHolds_perm {dic dic' : NSDictionary WhereValue}
    (h : dic.entries.Perm dic'.entries) :
    DictionaryHolds R tbl r dic = DictionaryHolds R tbl r dic' :=
  h.all_eq

end NBDataBase
