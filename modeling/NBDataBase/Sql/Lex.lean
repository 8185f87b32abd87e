import Mathlib

/-!
# SQL — tokens

The words and symbols of a SQL text.  A word is a maximal run of identifier characters; every
other character that is not blank is a symbol of its own.  Quoted literals and comments are
outside the fragment: their marks are symbols that no statement of the fragment has.

* `lex_append`: a text cut where no word is cut is lexed part by part.
* `lex_word`, `lex_words`: the tokens of a word, and of words joined by commas.
* `Name`: the words SQLite takes as the name of a table or a column.
-/

namespace Sql

inductive Token where
  | word (s : String)
  | sym (c : Char)
  deriving DecidableEq, Repr

/-- The characters SQLite allows inside an identifier. -/
def isWordChar (c : Char) : Bool :=
  c.isAlphanum || c == '_' || c == '$' || decide (128 ≤ c.toNat)

def isBlank (c : Char) : Bool :=
  c == ' ' || c == '\t' || c == '\n' || c == '\r' || c == '\x0c'

/-- The token of the word read so far, kept in reverse. -/
def flush (w : List Char) : List Token :=
  if w = [] then [] else [.word (String.ofList w.reverse)]

def lexFrom : List Char → List Char → List Token
  | w, [] => flush w
  | w, c :: cs =>
      if isWordChar c then lexFrom (c :: w) cs
      else if isBlank c then flush w ++ lexFrom [] cs
      else flush w ++ .sym c :: lexFrom [] cs

def lex (s : String) : List Token := lexFrom [] s.toList

/-! ### Lexing part by part -/

/-- No word runs over the cut between two texts. -/
def Cut (a b : List Char) : Prop :=
  (∀ c ∈ a.getLast?, isWordChar c = false) ∨ (∀ c ∈ b.head?, isWordChar c = false)

instance (a b : List Char) : Decidable (Cut a b) := by unfold Cut; infer_instance

theorem lexFrom_stop {b : List Char} (h : ∀ c ∈ b.head?, isWordChar c = false) (w : List Char) :
    lexFrom w b = flush w ++ lexFrom [] b := by
  cases b with
  | nil => simp [lexFrom, flush]
  | cons c cs =>
      have hc : isWordChar c = false := h c rfl
      by_cases hb : isBlank c <;> simp [lexFrom, hc, hb, flush]

theorem lexFrom_append {a b : List Char} (h : Cut a b) (ha : a ≠ []) (w : List Char) :
    lexFrom w (a ++ b) = lexFrom w a ++ lexFrom [] b := by
  induction a generalizing w with
  | nil => exact absurd rfl ha
  | cons c cs ih =>
      by_cases hcs : cs = []
      · subst hcs
        by_cases hc : isWordChar c
        · have hb : ∀ c ∈ b.head?, isWordChar c = false := by
            rcases h with h | h
            · exact absurd hc (by simpa using h c rfl)
            · exact h
          simp only [List.cons_append, List.nil_append, lexFrom, hc, if_true]
          exact lexFrom_stop hb _
        · by_cases hb : isBlank c <;> simp [lexFrom, hc, hb, flush]
      · have hcut : Cut cs b := by
          rcases h with h | h
          · obtain ⟨d, ds, rfl⟩ := List.exists_cons_of_ne_nil hcs
            rw [List.getLast?_cons_cons] at h
            exact .inl h
          · exact .inr h
        have ih' := ih hcut hcs
        by_cases hc : isWordChar c
        · simp [lexFrom, hc, ih']
        · by_cases hb : isBlank c <;> simp [lexFrom, hc, hb, ih']

/-- **A text is lexed part by part** when it is cut between words. -/
theorem lex_append {a b : String} (h : Cut a.toList b.toList) : lex (a ++ b) = lex a ++ lex b := by
  by_cases ha : a.toList = []
  · simp [lex, String.toList_append, ha, lexFrom, flush]
  · simp only [lex, String.toList_append, lexFrom_append h ha]

/-- A text that ends outside a word. -/
def Closed (a : String) : Prop := ∀ c ∈ a.toList.getLast?, isWordChar c = false

/-- A text that starts outside a word. -/
def Opened (b : String) : Prop := ∀ c ∈ b.toList.head?, isWordChar c = false

-- By the one character: characters as a whole are too many to go through.
instance (a : String) : Decidable (Closed a) := Option.decidableForallMem a.toList.getLast?
instance (b : String) : Decidable (Opened b) := Option.decidableForallMem b.toList.head?

theorem lex_closed {a b : String} (h : Closed a) : lex (a ++ b) = lex a ++ lex b :=
  lex_append (.inl h)

theorem lex_opened {a b : String} (h : Opened b) : lex (a ++ b) = lex a ++ lex b :=
  lex_append (.inr h)

/-! ### Words -/

/-- A non-empty run of identifier characters. -/
def Word (s : String) : Prop := s ≠ "" ∧ ∀ c ∈ s.toList, isWordChar c = true

instance (s : String) : Decidable (Word s) :=
  have := List.decidableBAll (fun c => isWordChar c = true) s.toList
  inferInstanceAs (Decidable (s ≠ "" ∧ ∀ c ∈ s.toList, isWordChar c = true))

theorem lexFrom_word {s : List Char} (h : ∀ c ∈ s, isWordChar c = true) (w : List Char) :
    lexFrom w s = flush (s.reverse ++ w) := by
  induction s generalizing w with
  | nil => simp [lexFrom]
  | cons c cs ih =>
      have hc : isWordChar c = true := h c List.mem_cons_self
      simp [lexFrom, hc, ih fun d hd => h d (List.mem_cons_of_mem _ hd)]

theorem lex_word {s : String} (h : Word s) : lex s = [.word s] := by
  have hs : s.toList.reverse ≠ [] := by simpa using h.1
  simp [lex, lexFrom_word h.2, flush, hs]

/-- Words with commas between them. -/
def commas : List String → List Token
  | [] => []
  | [s] => [.word s]
  | s :: t :: ts => .word s :: .sym ',' :: commas (t :: ts)

/-- A comma cuts on both sides. -/
theorem lex_intercalate (s t : String) (ts : List String) :
    lex (String.intercalate "," (s :: t :: ts)) =
      lex s ++ .sym ',' :: lex (String.intercalate "," (t :: ts)) := by
  have hcomma : Opened ("," ++ String.intercalate "," (t :: ts)) := by
    intro c hc
    rw [String.toList_append, List.head?_append] at hc
    have hc : c = ',' := by simpa using hc.symm
    subst hc
    decide
  rw [String.intercalate_cons_cons, String.append_assoc, lex_opened hcomma,
    lex_closed (a := ",") (by decide)]
  rfl

theorem lex_words {ss : List String} (h : ∀ s ∈ ss, Word s) :
    lex (String.intercalate "," ss) = commas ss := by
  induction ss with
  | nil => rfl
  | cons s ts ih =>
      have hs : Word s := h s List.mem_cons_self
      cases ts with
      | nil => simpa [commas] using lex_word hs
      | cons t ts =>
          rw [lex_intercalate, lex_word hs, ih fun s hs => h s (List.mem_cons_of_mem _ hs)]
          rfl

/-! ### Texts that start or end outside a word -/

theorem Opened.append {a : String} (h : Opened a) (ha : a ≠ "") (b : String) :
    Opened (a ++ b) := by
  intro c hc
  obtain ⟨d, ds, hd⟩ := List.exists_cons_of_ne_nil (fun e => ha (String.toList_eq_nil_iff.mp e))
  rw [String.toList_append, hd] at hc
  exact h c (by rw [hd]; exact hc)

theorem Closed.append {b : String} (h : Closed b) (hb : b ≠ "") (a : String) :
    Closed (a ++ b) := by
  intro c hc
  obtain ⟨ds, d, hd⟩ := List.eq_nil_or_concat b.toList |>.resolve_left
    fun e => hb (String.toList_eq_nil_iff.mp e)
  rw [String.toList_append, hd, List.concat_eq_append, ← List.append_assoc,
    List.getLast?_concat] at hc
  exact h c (by rw [hd, List.concat_eq_append, List.getLast?_concat]; exact hc)

/-- A word before a text that starts outside a word. -/
theorem lex_word_opened {w b : String} (hw : Word w) (hb : Opened b) :
    lex (w ++ b) = .word w :: lex b := by
  rw [lex_opened hb, lex_word hw]
  rfl

end Sql
