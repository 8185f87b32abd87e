import Mathlib.Data.List.Chain
import Mathlib.Data.List.Forall2
import Mathlib.Data.List.Infix

/-!
# Occurrences — parts of a text and what takes their place

A part of a text is found where the text agrees with it up to `f` (the identity, or the case of
letters).

* `Starts`, `Occurs`: the part stands at the start, or anywhere.
* `replaced`: the text with another one in place of each occurrence, from the left, so that
  occurrences that overlap an earlier one stay.
* `Apart`: two symbols in a row at which no occurrence starts.  A run of such pairs is kept
  (`replaced_run`), and an occurrence is behind it (`occurs_run`).
* `filter_replaced_eq_iff`: the symbols of a kind in a text are unchanged exactly when there is no
  occurrence, unless the part is put in place of itself.
* `Sealed`: no occurrence goes over the cut of two texts.  They are replaced one by one
  (`replaced_append`).
-/

namespace Occurrences

variable {α : Type} {f : α → α} {part str s t w : List α} {a b c : α}

/-! ### Occurrences -/

/-- The text starts with the part. -/
def Starts (f : α → α) (part s : List α) : Prop := part.map f <+: s.map f

instance [DecidableEq α] (f : α → α) (part s : List α) : Decidable (Starts f part s) :=
  inferInstanceAs (Decidable (part.map f <+: s.map f))

/-- The part stands somewhere in the text. -/
def Occurs (f : α → α) (part s : List α) : Prop := part.map f <:+: s.map f

instance [DecidableEq α] (f : α → α) (part s : List α) : Decidable (Occurs f part s) :=
  inferInstanceAs (Decidable (part.map f <:+: s.map f))

theorem occurs_cons : Occurs f part (c :: s) ↔ Starts f part (c :: s) ∨ Occurs f part s := by
  rw [Occurs, List.map_cons, List.infix_cons_iff, Starts, List.map_cons, Occurs]

theorem not_occurs_nil (hne : part ≠ []) : ¬ Occurs f part [] := by
  simpa [Occurs] using hne

theorem Occurs.append_left (h : Occurs f part t) (s : List α) : Occurs f part (s ++ t) := by
  rw [Occurs, List.map_append]
  exact h.trans (List.suffix_append _ _).isInfix

theorem Occurs.append_right (h : Occurs f part s) (t : List α) : Occurs f part (s ++ t) := by
  rw [Occurs, List.map_append]
  exact h.trans (List.prefix_append _ _).isInfix

theorem Occurs.of_suffix (h : Occurs f part t) (hts : t <:+ s) : Occurs f part s :=
  h.trans (hts.map f).isInfix

/-! ### Pairs at which no occurrence starts -/

/-- The part does not start with these two symbols. -/
def Apart (f : α → α) (part : List α) (a b : α) : Prop :=
  match part with
  | p :: q :: _ => f a = f p → f b ≠ f q
  | _ => False

instance [DecidableEq α] (f : α → α) (part : List α) (a b : α) : Decidable (Apart f part a b) :=
  match part with
  | p :: q :: _ => inferInstanceAs (Decidable (f a = f p → f b ≠ f q))
  | [] => .isFalse id
  | [_] => .isFalse id

theorem Apart.not_starts (h : Apart f part a b) (s : List α) :
    ¬ Starts f part (a :: b :: s) := by
  rintro ⟨rest, hrest⟩
  rcases part with _ | ⟨p, _ | ⟨q, part⟩⟩
  · exact h
  · exact h
  · simp only [List.map_cons, List.cons_append, List.cons.injEq] at hrest
    exact h hrest.1.symm hrest.2.1.symm

/-- Behind a run of such pairs. -/
theorem occurs_run (h : (w ++ [c]).IsChain (Apart f part)) :
    Occurs f part (w ++ c :: s) ↔ Occurs f part (c :: s) := by
  induction w with
  | nil => rfl
  | cons a w ih =>
      have htail := h.tail
      have hnot : ¬ Starts f part (a :: (w ++ c :: s)) := by
        cases w with
        | nil => exact Apart.not_starts (List.isChain_cons_cons.mp h).1 s
        | cons b w => exact Apart.not_starts (List.isChain_cons_cons.mp h).1 (w ++ c :: s)
      rw [List.cons_append, occurs_cons, ih htail]
      exact or_iff_right hnot

/-! ### Symbols of a kind -/

/-- Texts that agree up to `f` agree in the symbols of a kind that `f` respects. -/
theorem map_filter_of_map {p : α → Bool} (hp : ∀ a b, f a = f b → p a = p b)
    (h : s.map f = t.map f) : (s.filter p).map f = (t.filter p).map f := by
  induction s generalizing t with
  | nil =>
      obtain rfl : t = [] := by simpa using h.symm
      rfl
  | cons a s ih =>
      obtain ⟨b, t, rfl⟩ : ∃ b t', t = b :: t' := by
        cases t with
        | nil => cases h
        | cons b t' => exact ⟨b, t', rfl⟩
      obtain ⟨hab, hst⟩ := List.cons.inj h
      rw [List.filter_cons, List.filter_cons, hp a b hab]
      split
      · rw [List.map_cons, List.map_cons, hab, ih hst]
      · exact ih hst

/-- Two rows of pieces, each of the first no longer than that of the second, that make one
text. -/
theorem eq_of_flatten_eq {as bs : List (List α)}
    (h : List.Forall₂ (fun a b => a.length ≤ b.length) as bs) (heq : as.flatten = bs.flatten) :
    as = bs := by
  have hlen : ∀ {as bs : List (List α)}, List.Forall₂ (fun a b => a.length ≤ b.length) as bs →
      as.flatten.length ≤ bs.flatten.length := by
    intro as bs h
    induction h with
    | nil => exact Nat.le_refl _
    | cons hab _ ih =>
        rw [List.flatten_cons, List.flatten_cons, List.length_append, List.length_append]
        exact Nat.add_le_add hab ih
  induction h with
  | nil => rfl
  | cons hab hrest ih =>
      rw [List.flatten_cons, List.flatten_cons] at heq
      have htotal := congrArg List.length heq
      rw [List.length_append, List.length_append] at htotal
      have hle := hlen hrest
      obtain ⟨rfl, hflat⟩ := List.append_inj heq (by omega)
      rw [ih hflat]

/-! ### Replacing -/

section Replaced

variable [DecidableEq α]

/-- The text with `str` in place of each occurrence, from the left; `skip` symbols of an occurrence
are still to go. -/
def replaced (f : α → α) (part str : List α) : ℕ → List α → List α
  | _, [] => []
  | skip + 1, _ :: s => replaced f part str skip s
  | 0, c :: s =>
      if part ≠ [] ∧ Starts f part (c :: s) then str ++ replaced f part str (part.length - 1) s
      else c :: replaced f part str 0 s

theorem replaced_skip (n : ℕ) (s : List α) :
    replaced f part str n s = replaced f part str 0 (s.drop n) := by
  induction n generalizing s with
  | zero => rfl
  | succ n ih =>
      cases s with
      | nil => rfl
      | cons c s => exact ih s

theorem replaced_cons (h : ¬ Starts f part (c :: s)) :
    replaced f part str 0 (c :: s) = c :: replaced f part str 0 s := by
  rw [replaced, if_neg fun hc => h hc.2]

/-- An occurrence at the start goes. -/
theorem replaced_starts (hne : part ≠ []) (hw : w.map f = part.map f) (s : List α) :
    replaced f part str 0 (w ++ s) = str ++ replaced f part str 0 s := by
  have hlen : w.length = part.length := by simpa using congrArg List.length hw
  cases w with
  | nil => exact absurd (List.length_eq_zero_iff.mp hlen.symm) hne
  | cons c w =>
      have hstarts : Starts f part (c :: (w ++ s)) := by
        rw [Starts, ← hw, ← List.cons_append, List.map_append]
        exact List.prefix_append _ _
      rw [List.length_cons] at hlen
      rw [List.cons_append, replaced, if_pos ⟨hne, hstarts⟩, replaced_skip,
        List.drop_left' (by omega)]

/-- A run at which no occurrence starts is kept. -/
theorem replaced_run (h : (w ++ [c]).IsChain (Apart f part)) :
    replaced f part str 0 (w ++ c :: s) = w ++ replaced f part str 0 (c :: s) := by
  induction w with
  | nil => rfl
  | cons a w ih =>
      have hnot : ¬ Starts f part (a :: (w ++ c :: s)) := by
        cases w with
        | nil => exact Apart.not_starts (List.isChain_cons_cons.mp h).1 s
        | cons b w => exact Apart.not_starts (List.isChain_cons_cons.mp h).1 (w ++ c :: s)
      rw [List.cons_append, replaced_cons hnot, ih h.tail, List.cons_append]

theorem replaced_of_free (h : ¬ Occurs f part s) : replaced f part str 0 s = s := by
  induction s with
  | nil => rfl
  | cons c s ih =>
      obtain ⟨hstarts, hrest⟩ := not_or.mp fun hc => h (occurs_cons.mpr hc)
      rw [replaced_cons hstarts, ih hrest]

/-- Either an occurrence starts the text, or its first symbol is kept. -/
theorem replaced_cases (f : α → α) (part s : List α) :
    s = [] ∨ (∃ w t, s = w ++ t ∧ w.map f = part.map f) ∨
      ∃ c t, s = c :: t ∧ ¬ Starts f part s := by
  by_cases hstarts : Starts f part s
  · obtain ⟨rest, hrest⟩ := hstarts
    obtain ⟨w, t, rfl, hw, -⟩ := List.map_eq_append_iff.mp hrest.symm
    exact .inr (.inl ⟨w, t, rfl, hw⟩)
  · cases s with
    | nil => exact .inl rfl
    | cons c t => exact .inr (.inr ⟨c, t, rfl, hstarts⟩)

/-- Each of the occurrences replaced changes the number of symbols of a kind by as much. -/
theorem length_filter_replaced (f : α → α) (str : List α) (p : α → Bool)
    (hp : ∀ a b, f a = f b → p a = p b) (hne : part ≠ []) (s : List α) :
    ∃ n, ((replaced f part str 0 s).filter p).length + n * (part.filter p).length =
      (s.filter p).length + n * (str.filter p).length := by
  induction hn : s.length using Nat.strong_induction_on generalizing s with
  | _ n ih =>
      rcases replaced_cases f part s with rfl | ⟨w, t, rfl, hw⟩ | ⟨c, t, rfl, hnot⟩
      · exact ⟨0, by simp [replaced]⟩
      · have hlen : w.length = part.length := by simpa using congrArg List.length hw
        have hkind : (w.filter p).length = (part.filter p).length := by
          simpa using congrArg List.length (map_filter_of_map hp hw)
        have hpos := List.length_pos_iff.mpr hne
        rw [List.length_append] at hn
        obtain ⟨k, hk⟩ := ih t.length (by omega) t rfl
        refine ⟨k + 1, ?_⟩
        rw [replaced_starts hne hw, List.filter_append, List.filter_append, List.length_append,
          List.length_append, Nat.add_mul, Nat.add_mul]
        omega
      · rw [List.length_cons] at hn
        obtain ⟨k, hk⟩ := ih t.length (by omega) t rfl
        refine ⟨k, ?_⟩
        rw [replaced_cons hnot, List.filter_cons, List.filter_cons]
        split
        · rw [List.length_cons, List.length_cons]
          omega
        · exact hk

/-- With more of a kind, `str` leaves no text with less of it. -/
theorem le_length_filter_replaced {p : α → Bool} (hp : ∀ a b, f a = f b → p a = p b)
    (hne : part ≠ []) (hle : (part.filter p).length ≤ (str.filter p).length) (s : List α) :
    (s.filter p).length ≤ ((replaced f part str 0 s).filter p).length := by
  obtain ⟨n, hn⟩ := length_filter_replaced f str p hp hne s
  have hmul := Nat.mul_le_mul_left n hle
  omega

/-- With less of it, `str` leaves none with more. -/
theorem length_filter_replaced_le {p : α → Bool} (hp : ∀ a b, f a = f b → p a = p b)
    (hne : part ≠ []) (hle : (str.filter p).length ≤ (part.filter p).length) (s : List α) :
    ((replaced f part str 0 s).filter p).length ≤ (s.filter p).length := by
  obtain ⟨n, hn⟩ := length_filter_replaced f str p hp hne s
  have hmul := Nat.mul_le_mul_left n hle
  omega

/-- A shorter `str` makes no text longer. -/
theorem length_replaced_le (hne : part ≠ []) (hle : str.length ≤ part.length) (s : List α) :
    (replaced f part str 0 s).length ≤ s.length := by
  have h := length_filter_replaced_le (f := f) (p := fun _ => true) (fun _ _ _ => rfl) hne
    (by simpa using hle) s
  simpa using h

/-- **The symbols of a kind are unchanged** exactly when the part is not in the text. -/
theorem filter_replaced_eq_iff {p : α → Bool} (hp : ∀ a b, f a = f b → p a = p b) (hne : part ≠ [])
    (hstr : (str.filter p).map f ≠ (part.filter p).map f) (s : List α) :
    (replaced f part str 0 s).filter p = s.filter p ↔ ¬ Occurs f part s := by
  refine ⟨fun h => ?_, fun h => by rw [replaced_of_free h]⟩
  -- an occurrence at the start would have to be `str`, or change how much there is
  have hstart : ∀ w t, w.map f = part.map f →
      (replaced f part str 0 (w ++ t)).filter p ≠ (w ++ t).filter p := by
    intro w t hw heq
    have hkind : (w.filter p).map f = (part.filter p).map f := map_filter_of_map hp hw
    have hlen : (w.filter p).length = (part.filter p).length := by
      simpa using congrArg List.length hkind
    rw [replaced_starts hne hw, List.filter_append, List.filter_append] at heq
    have htotal := congrArg List.length heq
    rw [List.length_append, List.length_append] at htotal
    rcases lt_trichotomy (str.filter p).length (part.filter p).length with hlt | hsame | hgt
    · have hle := length_filter_replaced_le hp hne hlt.le t
      omega
    · obtain ⟨hfilter, -⟩ := List.append_inj heq (hsame.trans hlen.symm)
      exact hstr (by rw [hfilter, hkind])
    · have hle := le_length_filter_replaced hp hne hgt.le t
      omega
  induction s with
  | nil => exact not_occurs_nil hne
  | cons c t ih =>
      have hnot : ¬ Starts f part (c :: t) := by
        rintro ⟨rest, hrest⟩
        obtain ⟨w, u, hwu, hw, -⟩ := List.map_eq_append_iff.mp hrest.symm
        rw [hwu] at h
        exact hstart w u hw h
      have htail : (replaced f part str 0 t).filter p = t.filter p := by
        rw [replaced_cons hnot, List.filter_cons, List.filter_cons] at h
        split at h
        · exact (List.cons.inj h).2
        · exact h
      rw [occurs_cons]
      exact not_or.mpr ⟨hnot, ih htail⟩

/-! ### Texts in a row -/

/-- No occurrence starts in `s` and ends behind it. -/
def Sealed (f : α → α) (part s t : List α) : Prop :=
  ∀ w, w <:+ s → w ≠ [] → w.length < part.length → ¬ Starts f part (w ++ t)

/-- Behind a sealed text the replacing starts again. -/
theorem replaced_append (hne : part ≠ []) (h : Sealed f part s t) :
    replaced f part str 0 (s ++ t) = replaced f part str 0 s ++ replaced f part str 0 t := by
  induction hn : s.length using Nat.strong_induction_on generalizing s with
  | _ n ih =>
      rcases replaced_cases f part s with rfl | ⟨w, u, rfl, hw⟩ | ⟨c, u, rfl, hnot⟩
      · rfl
      · have hlen : w.length = part.length := by simpa using congrArg List.length hw
        have hpos := List.length_pos_iff.mpr hne
        rw [List.length_append] at hn
        have hrest : Sealed f part u t := fun v hv => h v (hv.trans (List.suffix_append w u))
        rw [List.append_assoc, replaced_starts hne hw, replaced_starts hne hw, List.append_assoc,
          ih u.length (by omega) hrest rfl]
      · have hboth : ¬ Starts f part ((c :: u) ++ t) := by
          intro hstarts
          by_cases hlong : part.length ≤ (c :: u).length
          · rw [Starts, List.map_append] at hstarts
            exact hnot (List.prefix_of_prefix_length_le hstarts (List.prefix_append _ _)
              (by simpa using hlong))
          · exact h (c :: u) List.suffix_rfl (by simp) (by omega) hstarts
        rw [List.length_cons] at hn
        have hrest : Sealed f part u t := fun v hv => h v (hv.trans (List.suffix_cons c u))
        rw [List.cons_append] at hboth ⊢
        rw [replaced_cons hboth, replaced_cons hnot, ih u.length (by omega) hrest rfl,
          List.cons_append]

end Replaced

end Occurrences
