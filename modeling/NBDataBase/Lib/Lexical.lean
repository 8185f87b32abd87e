import Mathlib.Data.List.Lex
import Mathlib.Data.Nat.Basic
import Mathlib.Order.Monotone.Basic
import Mathlib.Tactic.Ring
import Mathlib.Tactic.Linarith

/-!
# Lib — Lexical

Lists in their lexicographic order, joined by a separator or read as numerals.

* `joinWith`: lists with a separator between them.  `joinWith_lt_iff`: a separator below every
  element compares the joined lists as it compares the list of them.
* `numeral`: the number of a list of digits.  `numeral_lt_iff`: numerals of one width are in the
  order of their numbers.
-/

namespace Lexical

variable {α : Type} [LinearOrder α]

/-! ### Joined lists -/

/-- Lists with a separator between them. -/
def joinWith (sep : α) : List (List α) → List α
  | [] => []
  | [a] => a
  | a :: b :: as => a ++ sep :: joinWith sep (b :: as)

/-- What follows an item in a joined list: nothing, or the separator and more. -/
def Tail (sep : α) (t : List α) : Prop := t = [] ∨ ∃ u, t = sep :: u

/-- **An item decides**, unless the items are the same. -/
theorem append_lt_append_iff {sep : α} {a b t u : List α} (ha : ∀ x ∈ a, sep < x)
    (hb : ∀ x ∈ b, sep < x) (ht : Tail sep t) (hu : Tail sep u) :
    a ++ t < b ++ u ↔ a < b ∨ a = b ∧ t < u := by
  induction a generalizing b with
  | nil =>
      cases b with
      | nil => simp
      | cons y b =>
          have hy : sep < y := hb y List.mem_cons_self
          rcases ht with rfl | ⟨t, rfl⟩
          · simp
          · simp [List.cons_lt_cons_iff, hy]
  | cons x a ih =>
      have hx : sep < x := ha x List.mem_cons_self
      cases b with
      | nil =>
          rcases hu with rfl | ⟨u, rfl⟩
          · simp
          · simp [List.cons_lt_cons_iff, hx.not_gt, hx.ne']
      | cons y b =>
          have ih := ih (b := b) (fun z hz => ha z (List.mem_cons_of_mem _ hz))
            fun z hz => hb z (List.mem_cons_of_mem _ hz)
          rw [List.cons_append, List.cons_append, List.cons_lt_cons_iff, List.cons_lt_cons_iff, ih,
            List.cons.injEq]
          tauto

/-- **Joined lists compare as the lists of their items.** -/
theorem joinWith_lt_iff {sep : α} {as bs : List (List α)} (has : as ≠ []) (hbs : bs ≠ [])
    (ha : ∀ a ∈ as, ∀ x ∈ a, sep < x) (hb : ∀ b ∈ bs, ∀ x ∈ b, sep < x) :
    joinWith sep as < joinWith sep bs ↔ as < bs := by
  -- an item, with what follows it
  have hcons : ∀ (c : List α) (cs : List (List α)), ∃ t, Tail sep t ∧
      joinWith sep (c :: cs) = c ++ t ∧
        (t = [] ↔ cs = []) ∧ ∀ u, t = sep :: u → u = joinWith sep cs := by
    intro c cs
    cases cs with
    | nil => exact ⟨[], .inl rfl, by simp [joinWith], by simp, by simp⟩
    | cons d cs => exact ⟨_, .inr ⟨_, rfl⟩, rfl, by simp, by simp⟩
  induction as generalizing bs with
  | nil => exact absurd rfl has
  | cons a as ih =>
      obtain ⟨b, bs, rfl⟩ := List.exists_cons_of_ne_nil hbs
      obtain ⟨t, ht, hat, htnil, htail⟩ := hcons a as
      obtain ⟨u, hu, hbu, hunil, hutail⟩ := hcons b bs
      rw [hat, hbu, append_lt_append_iff (ha a List.mem_cons_self) (hb b List.mem_cons_self) ht hu,
        List.cons_lt_cons_iff]
      refine or_congr_right (and_congr_right fun _ => ?_)
      rcases ht with rfl | ⟨t, rfl⟩
      · obtain rfl := htnil.mp rfl
        rcases hu with rfl | ⟨u, rfl⟩
        · obtain rfl := hunil.mp rfl
          simp
        · have hne : bs ≠ [] := fun h => absurd (hunil.mpr h) (List.cons_ne_nil _ _)
          obtain ⟨d, ds, rfl⟩ := List.exists_cons_of_ne_nil hne
          simp
      · have hne : as ≠ [] := fun h => absurd (htnil.mpr h) (List.cons_ne_nil _ _)
        rcases hu with rfl | ⟨u, rfl⟩
        · obtain rfl := hunil.mp rfl
          simp
        · have hne' : bs ≠ [] := fun h => absurd (hunil.mpr h) (List.cons_ne_nil _ _)
          rw [htail t rfl, hutail u rfl, List.cons_lt_cons_iff]
          simpa using ih hne hne' (fun c hc => ha c (List.mem_cons_of_mem _ hc))
            fun c hc => hb c (List.mem_cons_of_mem _ hc)

/-! ### Numerals -/

/-- The number of a list of digits to a base; `digit` is what a digit stands for. -/
def numeral (digit : α → ℕ) (base : ℕ) (ds : List α) : ℕ :=
  ds.foldl (fun n d => base * n + digit d) 0

section Numerals

variable {digit : α → ℕ} {base : ℕ}

omit [LinearOrder α] in
theorem foldl_numeral (ds : List α) (n : ℕ) :
    ds.foldl (fun n d => base * n + digit d) n =
      n * base ^ ds.length + numeral digit base ds := by
  unfold numeral
  induction ds generalizing n with
  | nil => simp
  | cons d ds ih =>
      rw [List.foldl_cons, List.foldl_cons, ih, ih (base * 0 + digit d), List.length_cons, pow_succ]
      ring

omit [LinearOrder α] in
theorem numeral_cons (d : α) (ds : List α) :
    numeral digit base (d :: ds) = digit d * base ^ ds.length + numeral digit base ds := by
  rw [numeral, List.foldl_cons, foldl_numeral, Nat.mul_zero, Nat.zero_add]

omit [LinearOrder α] in
theorem numeral_lt {ds : List α} (h : ∀ d ∈ ds, digit d < base) :
    numeral digit base ds < base ^ ds.length := by
  induction ds with
  | nil => simp [numeral]
  | cons d ds ih =>
      have hd : digit d + 1 ≤ base := h d List.mem_cons_self
      have hds := ih fun x hx => h x (List.mem_cons_of_mem _ hx)
      have hmul := Nat.mul_le_mul_right (base ^ ds.length) hd
      rw [numeral_cons, List.length_cons, pow_succ']
      linarith

/-- **Numerals of one width** are in the order of their numbers. -/
theorem numeral_lt_iff {S : Set α} (hdigit : StrictMonoOn digit S) (hbase : ∀ d ∈ S, digit d < base)
    {ds es : List α} (hlen : ds.length = es.length) (hd : ∀ d ∈ ds, d ∈ S) (he : ∀ e ∈ es, e ∈ S) :
    ds < es ↔ numeral digit base ds < numeral digit base es := by
  induction ds generalizing es with
  | nil =>
      obtain rfl := List.length_eq_zero_iff.mp hlen.symm
      simp
  | cons d ds ih =>
      obtain ⟨e, es, rfl⟩ := List.exists_cons_of_length_eq_add_one hlen.symm
      obtain ⟨hdS, hds⟩ := List.forall_mem_cons.mp hd
      obtain ⟨heS, hes⟩ := List.forall_mem_cons.mp he
      have hlen : ds.length = es.length := Nat.succ.inj hlen
      have hltd := numeral_lt fun x hx => hbase x (hds x hx)
      have hlte := numeral_lt fun x hx => hbase x (hes x hx)
      rw [List.cons_lt_cons_iff, ih hlen hds hes, numeral_cons, numeral_cons, hlen]
      rw [hlen] at hltd
      -- the first digits decide, unless they are the same
      rcases lt_trichotomy d e with hde | rfl | hde
      · have hlt : digit d + 1 ≤ digit e := hdigit hdS heS hde
        have hmul := Nat.mul_le_mul_right (base ^ es.length) hlt
        exact iff_of_true (.inl hde) (by linarith)
      · simp
      · have hlt : digit e + 1 ≤ digit d := hdigit heS hdS hde
        have hmul := Nat.mul_le_mul_right (base ^ es.length) hlt
        have hno : ¬ (d < e ∨ d = e ∧ numeral digit base ds < numeral digit base es) := by
          rintro (h | ⟨rfl, -⟩)
          · exact hde.not_gt h
          · exact lt_irrefl _ hde
        exact iff_of_false hno (by linarith)

end Numerals

end Lexical
