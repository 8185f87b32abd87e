import Mathlib

/-!
# Sql — string literals

A SQL string literal is closed by a `'` that no second `'` follows; inside it, `''` stands for
`'`.

* `literal`: the contents of a literal whose opening quote has been read, and the text after it.
* `escape`: the contents with every quote doubled.  `literal_eq_some` says that a literal is
  read back exactly from its escaped contents.
* `Plain`: contents without a quote, which need no escaping (`literal_plain`).
* `literal_self`: contents spliced in without escaping are read back as themselves only if they
  are plain, when the text after the splice does not begin with a quote.
-/

namespace Sql

/-- The contents of a string literal whose opening quote has been read, and the text after its
closing quote. -/
def literal : List Char → Option (List Char × List Char)
  | [] => none
  | '\'' :: '\'' :: cs => (literal cs).map fun r => ('\'' :: r.1, r.2)
  | '\'' :: cs => some ([], cs)
  | c :: cs => (literal cs).map fun r => (c :: r.1, r.2)

/-- The contents of a literal, with every quote doubled. -/
def escape : List Char → List Char
  | [] => []
  | c :: cs => if c = '\'' then '\'' :: '\'' :: escape cs else c :: escape cs

/-- No quote. -/
def Plain (cs : List Char) : Prop := '\'' ∉ cs

instance (cs : List Char) : Decidable (Plain cs) := inferInstanceAs (Decidable (_ ∉ _))

theorem plain_cons {c : Char} {cs : List Char} : Plain (c :: cs) ↔ c ≠ '\'' ∧ Plain cs := by
  simp [Plain, eq_comm]

theorem literal_quote_quote (cs : List Char) :
    literal ('\'' :: '\'' :: cs) = (literal cs).map fun r => ('\'' :: r.1, r.2) := by
  rw [literal]

theorem literal_close {cs : List Char} (h : cs.head? ≠ some '\'') :
    literal ('\'' :: cs) = some ([], cs) := by
  cases cs with
  | nil => rfl
  | cons d ds =>
      have hd : d ≠ '\'' := fun e => h (by rw [e]; rfl)
      rw [literal]
      exact fun _ e => hd (List.cons.inj e).1

theorem literal_char {c : Char} {cs : List Char} (h : c ≠ '\'') :
    literal (c :: cs) = (literal cs).map fun r => (c :: r.1, r.2) := by
  rw [literal]
  · exact fun _ e _ => h e
  · exact h

/-- What a literal reads is its escaped contents and a closing quote. -/
theorem literal_eq_some {cs x r : List Char} (h : literal cs = some (x, r)) :
    cs = escape x ++ '\'' :: r := by
  induction cs using literal.induct generalizing x with
  | case1 => simp [literal] at h
  | case2 cs ih =>
      rw [literal_quote_quote, Option.map_eq_some_iff] at h
      obtain ⟨⟨y, s⟩, hy, he⟩ := h
      obtain ⟨rfl, rfl⟩ := Prod.mk.inj he
      simp [escape, ih hy]
  | case3 cs hne =>
      rw [literal_close (by cases cs with | nil => simp | cons d ds => simpa using hne ds)] at h
      obtain ⟨rfl, rfl⟩ := Prod.mk.inj (Option.some.inj h)
      rfl
  | case4 c cs h₁ h₂ ih =>
      have hc : c ≠ '\'' := fun e => h₂ e
      rw [literal_char hc, Option.map_eq_some_iff] at h
      obtain ⟨⟨y, s⟩, hy, he⟩ := h
      obtain ⟨rfl, rfl⟩ := Prod.mk.inj he
      simp [escape, hc, ih hy]

/-- Plain contents are read back. -/
theorem literal_plain {x r : List Char} (hx : Plain x) (hr : r.head? ≠ some '\'') :
    literal (x ++ '\'' :: r) = some (x, r) := by
  induction x with
  | nil => exact literal_close hr
  | cons c cs ih =>
      obtain ⟨hc, hcs⟩ := plain_cons.mp hx
      rw [List.cons_append, literal_char hc, ih hcs]
      rfl

/-- A run of quotes before escaped contents is not matched by the contents themselves and a
closing quote. -/
theorem splice_ne_quotes {r s : List Char} (hr : r.head? ≠ some '\'') :
    ∀ (x : List Char) (n : ℕ),
      x ++ '\'' :: r ≠ List.replicate (n + 1) '\'' ++ (escape x ++ '\'' :: s)
  | [], n, h => by
      cases n with
      | zero =>
          have : r = '\'' :: s := by simpa [escape] using h
          exact hr (by rw [this]; rfl)
      | succ n =>
          have : r = '\'' :: (List.replicate n '\'' ++ '\'' :: s) := by
            simpa [escape, List.replicate_succ] using h
          exact hr (by rw [this]; rfl)
  | c :: cs, n, h => by
      have hc : c = '\'' := by
        simpa [List.replicate_succ] using congrArg List.head? h
      subst hc
      refine splice_ne_quotes (s := s) hr cs (n + 1) ?_
      have : cs ++ '\'' :: r
          = List.replicate n '\'' ++ ('\'' :: '\'' :: (escape cs ++ '\'' :: s)) := by
        simpa [List.replicate_succ, escape] using h
      rw [this, List.replicate_succ', List.replicate_succ']
      simp

/-- Contents spliced in as they are, and read back as themselves, are plain. -/
theorem literal_self {x r s : List Char} (hr : r.head? ≠ some '\'')
    (h : literal (x ++ '\'' :: r) = some (x, s)) : Plain x ∧ s = r := by
  have he := literal_eq_some h
  clear h
  induction x with
  | nil => exact ⟨by simp [Plain], (List.cons.inj he).2.symm⟩
  | cons c cs ih =>
      by_cases hc : c = '\''
      · subst hc
        refine absurd ?_ (splice_ne_quotes (s := s) hr cs 0)
        simpa [escape] using he
      · rw [escape, if_neg hc] at he
        obtain ⟨hp, rfl⟩ := ih (List.cons.inj he).2
        exact ⟨plain_cons.mpr ⟨hc, hp⟩, rfl⟩

/-! ### Fixed text -/

/-- The text after a fixed prefix. -/
def after : List Char → List Char → Option (List Char)
  | [], cs => some cs
  | p :: ps, c :: cs => if p = c then after ps cs else none
  | _ :: _, [] => none

@[simp] theorem after_append (p cs : List Char) : after p (p ++ cs) = some cs := by
  induction p with
  | nil => rfl
  | cons c p ih => simpa [after] using ih

theorem after_eq_some {p cs r : List Char} (h : after p cs = some r) : cs = p ++ r := by
  induction p generalizing cs with
  | nil => exact Option.some.inj h
  | cons c p ih =>
      cases cs with
      | nil => simp [after] at h
      | cons d ds =>
          rw [after] at h
          split at h
          · subst c
            rw [ih h, List.cons_append]
          · simp at h

end Sql
