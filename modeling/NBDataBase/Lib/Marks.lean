import Mathlib.Data.List.Forall2
import Mathlib.Data.List.Infix

/-!
# Marks — values and the marks that stand for them

A text with marks in it, and a list of values for them.

* `before m s`: for each mark `m` of the text `s`, from the left, what stands before it.
* `Aligned m P s vs`: there are as many marks as values, and `P` holds of what stands before
  the i-th mark and the i-th value.
* `Forward P`: `P` still holds when more text is put in front.  Such a `P` is aligned of two texts
  in a row when it is aligned of each (`Aligned.append`).
* `Aligned.rewrite`: a text whose pieces are replaced by others, none of them with a mark.
-/

namespace Marks

variable {α β : Type} [DecidableEq α] {m : α} {P Q : List α → β → Prop}
variable {s t : List α} {vs ws : List β}

/-! ### What stands before each mark -/

/-- What stands before each mark. -/
def before (m : α) : List α → List (List α)
  | [] => []
  | c :: s => (if c = m then [[]] else []) ++ (before m s).map (c :: ·)

theorem before_append (m : α) (s t : List α) :
    before m (s ++ t) = before m s ++ (before m t).map (s ++ ·) := by
  induction s with
  | nil => simp [before]
  | cons c s ih => simp [before, ih, Function.comp_def]

theorem before_of_not_mem (h : m ∉ s) : before m s = [] := by
  induction s with
  | nil => rfl
  | cons c s ih =>
      obtain ⟨hc, hs⟩ := List.ne_and_not_mem_of_not_mem_cons h
      simp [before, ih hs, hc.symm]

theorem before_mark (m : α) : before m [m] = [[]] := by simp [before]

/-- There is one entry for each mark. -/
theorem length_before (m : α) (s : List α) : (before m s).length = s.count m := by
  induction s with
  | nil => rfl
  | cons c s ih =>
      by_cases hc : c = m
      · subst hc; simp [before, ih]
      · simp [before, ih, hc]

/-! ### Alignment -/

/-- The i-th mark and the i-th value belong together, and none is left over. -/
def Aligned (m : α) (P : List α → β → Prop) (s : List α) (vs : List β) : Prop :=
  List.Forall₂ P (before m s) vs

/-- `P` does not look at how the text begins. -/
def Forward (P : List α → β → Prop) : Prop := ∀ pre s v, P s v → P (pre ++ s) v

theorem Aligned.count_eq (h : Aligned m P s vs) : s.count m = vs.length := by
  rw [← length_before]
  exact h.length_eq

theorem Aligned.mono (hPQ : ∀ s v, P s v → Q s v) (h : Aligned m P s vs) : Aligned m Q s vs :=
  List.Forall₂.imp (fun s v => hPQ s v) h

theorem aligned_plain (h : m ∉ s) : Aligned m P s [] := by
  rw [Aligned, before_of_not_mem h]
  exact .nil

/-- One mark at the end. -/
theorem aligned_mark {v : β} (hs : m ∉ s) (h : P s v) : Aligned m P (s ++ [m]) [v] := by
  rw [Aligned, before_append, before_of_not_mem hs, before_mark]
  exact .cons (by simpa using h) .nil

theorem Aligned.append_of (hs : Aligned m P s vs)
    (ht : Aligned m (fun pre v => P (s ++ pre) v) t ws) : Aligned m P (s ++ t) (vs ++ ws) := by
  rw [Aligned, before_append]
  exact List.rel_append hs (List.forall₂_map_left_iff.mpr ht)

/-- **Two aligned texts in a row are aligned.** -/
theorem Aligned.append (hP : Forward P) (hs : Aligned m P s vs) (ht : Aligned m P t ws) :
    Aligned m P (s ++ t) (vs ++ ws) :=
  hs.append_of (ht.mono fun pre v => hP s pre v)

/-- A text without marks in front. -/
theorem Aligned.after (hP : Forward P) (hs : m ∉ s) (ht : Aligned m P t ws) :
    Aligned m P (s ++ t) ws :=
  (aligned_plain hs).append hP ht

/-- A text without marks behind. -/
theorem Aligned.then_plain (hs : Aligned m P s vs) (ht : m ∉ t) : Aligned m P (s ++ t) vs := by
  have h : Aligned m P (s ++ t) (vs ++ []) := hs.append_of (aligned_plain ht)
  rwa [List.append_nil] at h

/-- A list of marks, with `sep` between them. -/
theorem aligned_list {sep : List α} (hsep : m ∉ sep)
    (h : ∀ i v, vs[i]? = some v → P (List.replicate i (m :: sep)).flatten v) :
    Aligned m P (sep.intercalate (vs.map fun _ => [m])) vs := by
  induction vs generalizing P with
  | nil => exact aligned_plain (by simp)
  | cons v vs ih =>
      have hv : P [] v := h 0 v rfl
      have hmark : Aligned m P [m] [v] := aligned_mark (s := []) (by simp) hv
      cases vs with
      | nil => simpa using hmark
      | cons w vs =>
          have hrest := ih (P := fun pre v => P (m :: sep ++ pre) v) fun i x hx => by
            have := h (i + 1) x hx
            rwa [List.replicate_succ, List.flatten_cons] at this
          have h := (hmark.then_plain hsep).append_of hrest
          simpa [List.intercalate_cons_cons] using h

/-! ### Texts that are rewritten -/

/-- A piece that is kept, or one that is replaced: neither it nor what replaces it has a mark. -/
def Piece (m : α) (g : List α × List α) : Prop :=
  (∃ c, g = ([c], [c])) ∨ (m ∉ g.1 ∧ m ∉ g.2)

omit [DecidableEq α] in
theorem flatMap_concat {γ : Type} (f : γ → List α) (done : List γ) (g : γ) (s : List α) :
    (done ++ [g]).flatMap f ++ s = done.flatMap f ++ (f g ++ s) := by simp

/-- What is aligned of a text is aligned of the rewritten text, when at each mark it follows from
the pieces that stand before the mark. -/
theorem Aligned.rewrite {segs : List (List α × List α)} {Good : List α × List α → Prop}
    (hpiece : ∀ g, Good g → Piece m g) (hgood : ∀ g ∈ segs, Good g)
    (hPQ : ∀ done : List (List α × List α), (∀ g ∈ done, Good g) → ∀ v,
      P (done.flatMap (·.1)) v → Q (done.flatMap (·.2)) v)
    (h : Aligned m P (segs.flatMap (·.1)) vs) : Aligned m Q (segs.flatMap (·.2)) vs := by
  -- The pieces before the current one are carried along.
  suffices key : ∀ done : List (List α × List α), (∀ g ∈ done, Good g) →
      Aligned m (fun pre v => P (done.flatMap (·.1) ++ pre) v) (segs.flatMap (·.1)) vs →
      Aligned m (fun pre v => Q (done.flatMap (·.2) ++ pre) v) (segs.flatMap (·.2)) vs from
    key [] (fun g hg => by cases hg) h
  clear h
  induction segs generalizing vs with
  | nil => exact fun done _ h => by cases h; exact .nil
  | cons g segs ih =>
      intro done hdone h
      have hg : Good g := hgood g List.mem_cons_self
      have hmore : ∀ x ∈ done ++ [g], Good x := by
        intro x hx
        rcases List.mem_append.mp hx with hx | hx
        · exact hdone x hx
        · exact List.mem_singleton.mp hx ▸ hg
      have ih := fun {vs : List β} => @ih vs (fun x hx => hgood x (List.mem_cons_of_mem _ hx))
        (done ++ [g]) hmore
      simp only [flatMap_concat] at ih
      simp only [Aligned, List.flatMap_cons, before_append] at h ih ⊢
      have hplain : m ∉ g.1 → m ∉ g.2 → List.Forall₂ (fun pre v => Q (done.flatMap (·.2) ++ pre) v)
          (before m g.2 ++ (before m (segs.flatMap (·.2))).map (g.2 ++ ·)) vs := by
        intro h₁ h₂
        rw [before_of_not_mem h₁, List.nil_append, List.forall₂_map_left_iff] at h
        rw [before_of_not_mem h₂, List.nil_append, List.forall₂_map_left_iff]
        exact ih h
      rcases hpiece g hg with ⟨c, rfl⟩ | ⟨h₁, h₂⟩
      · by_cases hc : c = m
        · subst hc
          rw [before_mark, List.singleton_append] at h ⊢
          obtain _ | ⟨hhead, htail⟩ := h
          rw [List.append_nil] at hhead
          have htail := List.forall₂_map_left_iff.mp htail
          refine .cons ?_ (List.forall₂_map_left_iff.mpr (ih htail))
          rw [List.append_nil]
          exact hPQ done hdone _ hhead
        · exact hplain (by simpa using Ne.symm hc) (by simpa using Ne.symm hc)
      · exact hplain h₁ h₂

end Marks
