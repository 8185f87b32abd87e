import NBDataBase.Sql.Statement

/-!
# SQL — assignments

The `SET` clause of an `UPDATE`, with any text on the right of an assignment.  Comments are
outside the fragment.

* `Scan`: where a text stands: in what is quoted, and how deep in brackets.
* `pieces`: a text cut at its commas outside quotes and brackets.
* `setClause`: the columns that a clause assigns, each with the text it is assigned.
* `setClause_marks`: the clause that assigns a parameter to each of some names.
-/

namespace Sql

/-- Where a text stands: the mark that closes the quotes it is in, and the open brackets. -/
structure Scan where
  quote : Option Char := none
  depth : ℕ := 0
  deriving DecidableEq

/-- The mark that closes what a character opens. -/
def closing (c : Char) : Option Char :=
  if c = '\'' ∨ c = '"' ∨ c = '\x60' then some c else if c = '[' then some ']' else none

/-- After one more character; none when it closes a bracket that is not open. -/
def Scan.next (s : Scan) (c : Char) : Option Scan :=
  match s.quote with
  | some q => some (if c = q then { s with quote := none } else s)
  | none =>
      match closing c with
      | some q => some { s with quote := some q }
      | none =>
          if c = '(' then some { s with depth := s.depth + 1 }
          else if c = ')' then if s.depth = 0 then none else some { s with depth := s.depth - 1 }
          else some s

/-- A text cut at its commas outside quotes and brackets; none when these are left open. -/
def pieces : Scan → List Char → Option (List (List Char))
  | s, [] => if s = {} then some [[]] else none
  | s, c :: cs =>
      if c = ',' ∧ s = {} then (pieces {} cs).map ([] :: ·)
      else (s.next c).bind fun s => (pieces s cs).map fun ps => (c :: ps.headD []) :: ps.tail

/-- One assignment: a name, and some text after `=`. -/
def assignment (p : List Char) : Option (String × String) :=
  let c := String.ofList (((p.takeWhile (· ≠ '=')).dropWhile isBlank).rdropWhile isBlank)
  let e := (p.dropWhile (· ≠ '=')).drop 1
  if Name c ∧ e.all isBlank = false then some (c, String.ofList e) else none

/-- The assignments of a `SET` clause. -/
def setClause (s : String) : Option (List (String × String)) :=
  (pieces {} s.toList).bind fun ps => ps.mapM assignment

example : setClause "a=1, b = max(c,'x,y')" = some [("a", "1"), ("b", " max(c,'x,y')")] := by
  decide +kernel

/-- Without a comma there is one piece. -/
theorem pieces_whole {x : List Char} (hx : ',' ∉ x) {s : Scan} {ps : List (List Char)}
    (h : pieces s x = some ps) : ps = [x] := by
  induction x generalizing s ps with
  | nil =>
      rw [pieces] at h
      split at h <;> cases h
      rfl
  | cons c cs ih =>
      obtain ⟨hc, hcs⟩ := not_or.mp (fun e => hx (List.mem_cons.mpr e))
      rw [pieces, if_neg fun e => hc e.1.symm] at h
      obtain ⟨s', -, h⟩ := Option.bind_eq_some_iff.mp h
      obtain ⟨qs, hqs, rfl⟩ := Option.map_eq_some_iff.mp h
      rw [ih hcs hqs]
      rfl

theorem eq_mem_of_assignment {p : List Char} {e : String × String} (h : assignment p = some e) :
    '=' ∈ p := by
  by_contra hp
  have hdrop : p.dropWhile (· ≠ '=') = [] :=
    List.dropWhile_eq_nil_iff.mpr fun c hc => by
      have hne : c ≠ '=' := fun e => hp (e ▸ hc)
      simpa using hne
  rw [assignment, hdrop] at h
  exact absurd h (by simp)

/-- A clause without a comma is one assignment. -/
theorem setClause_single {s : String} (h : (setClause s).isSome) (hs : ',' ∉ s.toList) :
    '=' ∈ s.toList ∧ ∃ e, setClause s = some [e] := by
  obtain ⟨l, hl⟩ := Option.isSome_iff_exists.mp h
  obtain ⟨ps, hps, hmap⟩ := Option.bind_eq_some_iff.mp hl
  obtain rfl := pieces_whole hs hps
  rw [List.mapM_cons] at hmap
  obtain ⟨e, he, hrest⟩ := Option.bind_eq_some_iff.mp hmap
  cases hrest
  exact ⟨eq_mem_of_assignment he, e, hl⟩

/-! ### Parameters -/

/-- A character that neither cuts a text nor opens or closes anything. -/
def Inert (c : Char) : Prop := c ≠ ',' ∧ Scan.next {} c = some {}

theorem isWordChar_ne {c d : Char} (h : isWordChar c = true) (hd : isWordChar d = false) :
    c ≠ d := fun e => by
  rw [e, hd] at h
  cases h

theorem closing_wordChar {c : Char} (h : isWordChar c = true) : closing c = none := by
  rw [closing, if_neg, if_neg (isWordChar_ne h (by decide))]
  simp only [not_or]
  exact ⟨isWordChar_ne h (by decide), isWordChar_ne h (by decide), isWordChar_ne h (by decide)⟩

theorem Inert.of_wordChar {c : Char} (h : isWordChar c = true) : Inert c := by
  refine ⟨isWordChar_ne h (by decide), ?_⟩
  simp [Scan.next, closing_wordChar h, isWordChar_ne h (d := '(') (by decide),
    isWordChar_ne h (d := ')') (by decide)]

theorem pieces_inert {x : List Char} (h : ∀ c ∈ x, Inert c) (rest : List Char) :
    pieces {} (x ++ rest) =
      (pieces {} rest).map fun ps => (x ++ ps.headD []) :: ps.tail := by
  induction x with
  | nil =>
      cases rest with
      | nil => rfl
      | cons c cs =>
          -- a text that is cut has a first piece
          have hcons : ∀ ps ∈ pieces {} (c :: cs), ps.headD [] :: ps.tail = ps := by
            intro ps hps
            rw [pieces] at hps
            split at hps
            · obtain ⟨qs, -, rfl⟩ := Option.map_eq_some_iff.mp hps
              rfl
            · obtain ⟨s, -, hps⟩ := Option.bind_eq_some_iff.mp hps
              obtain ⟨qs, -, rfl⟩ := Option.map_eq_some_iff.mp hps
              rfl
          show pieces {} (c :: cs) = (pieces {} (c :: cs)).map _
          cases hp : pieces {} (c :: cs) with
          | none => rfl
          | some ps => exact congrArg some (hcons ps hp).symm
  | cons c cs ih =>
      obtain ⟨hcomma, hnext⟩ := h c List.mem_cons_self
      rw [List.cons_append, pieces, if_neg fun e => hcomma e.1, hnext]
      simp [ih fun d hd => h d (List.mem_cons_of_mem _ hd), Function.comp_def]

theorem mark_inert {k : String} (hk : Word k) : ∀ c ∈ (k ++ "=?").toList, Inert c := by
  intro c hc
  rw [String.toList_append, List.mem_append] at hc
  rcases hc with hc | hc
  · exact .of_wordChar (hk.2 c hc)
  · have hc : c = '=' ∨ c = '?' := by simpa using hc
    rcases hc with rfl | rfl <;> exact ⟨by decide, by decide⟩

theorem assignment_mark {k : String} (hk : Name k) :
    assignment (k ++ "=?").toList = some (k, "?") := by
  have heq : ∀ c ∈ k.toList, c ≠ '=' := fun c hc e => by
    have := hk.word.2 c hc
    rw [e] at this
    exact absurd this (by decide)
  have hblank : ∀ c ∈ k.toList, isBlank c = false := fun c hc => by
    have := hk.word.2 c hc
    by_contra hb
    rw [Bool.not_eq_false] at hb
    simp only [isBlank, Bool.or_eq_true, beq_iff_eq] at hb
    rcases hb with (((rfl | rfl) | rfl) | rfl) | rfl <;> exact absurd this (by decide)
  have hchars : (k ++ "=?").toList = k.toList ++ ['=', '?'] := by rw [String.toList_append]; rfl
  have htake : (k.toList ++ ['=', '?']).takeWhile (· ≠ '=') = k.toList := by
    rw [List.takeWhile_append_of_pos (by simpa using heq)]
    simp
  have hdrop : (k.toList ++ ['=', '?']).dropWhile (· ≠ '=') = ['=', '?'] := by
    rw [List.dropWhile_append_of_pos (by simpa using heq)]
    rfl
  have htrim : (k.toList.dropWhile isBlank).rdropWhile isBlank = k.toList := by
    have hleft : k.toList.dropWhile isBlank = k.toList := by
      cases hl : k.toList with
      | nil => rfl
      | cons c cs =>
          rw [hl] at hblank
          rw [List.dropWhile_cons_of_neg (by simp [hblank c List.mem_cons_self])]
    rw [hleft, List.rdropWhile_eq_self_iff]
    intro hne
    simp [hblank _ (List.getLast_mem hne)]
  rw [hchars, assignment, htake, hdrop, htrim, String.ofList_toList]
  exact if_pos ⟨hk, by decide⟩

theorem pieces_marks {ks : List String} (hne : ks ≠ []) (h : ∀ k ∈ ks, Word k) :
    pieces {} (String.intercalate "," (ks.map fun k => k ++ "=?")).toList =
      some (ks.map fun k => (k ++ "=?").toList) := by
  induction ks with
  | nil => exact absurd rfl hne
  | cons k ks ih =>
      have hk := mark_inert (h k List.mem_cons_self)
      cases ks with
      | nil =>
          have hlast := pieces_inert hk []
          rw [List.append_nil, pieces, if_pos rfl, Option.map_some, List.headD_cons,
            List.append_nil] at hlast
          exact hlast
      | cons k' ks =>
          have ih := ih (by simp) fun x hx => h x (List.mem_cons_of_mem _ hx)
          have hcomma (x : String) : ("," ++ x).toList = ',' :: x.toList := by
            rw [String.toList_append]
            rfl
          rw [List.map_cons] at ih
          rw [List.map_cons, List.map_cons, String.intercalate_cons_cons, String.append_assoc,
            String.toList_append, pieces_inert hk, hcomma, pieces, if_pos ⟨rfl, rfl⟩, ih,
            Option.map_some, Option.map_some, List.headD_cons, List.append_nil]
          rfl

/-- **Parameters.**  The clause that assigns a parameter to each of some names. -/
theorem setClause_marks {ks : List String} (hne : ks ≠ []) (h : ∀ k ∈ ks, Name k) :
    setClause (String.intercalate "," (ks.map fun k => k ++ "=?")) =
      some (ks.map fun k => (k, "?")) := by
  rw [setClause, pieces_marks hne fun k hk => (h k hk).word, Option.bind_some]
  clear hne
  induction ks with
  | nil => rfl
  | cons k ks ih =>
      rw [List.map_cons, List.mapM_cons, assignment_mark (h k List.mem_cons_self),
        ih fun x hx => h x (List.mem_cons_of_mem _ hx)]
      rfl

end Sql
