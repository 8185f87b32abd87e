import Mathlib.Data.List.Basic

/-!
# Fill — partial functions that keep what they have

`fill f g` answers what `f` answers, and otherwise what `g` answers.  A sequence of fills takes
the first answer there is (`foldl_fill_apply`), so that its order does not matter when no two of
the functions answer differently where `f` does not answer (`foldl_fill_perm`), nor do fills that
others keep (`foldl_fill_kept`).
-/

namespace Fill

variable {κ ν : Type} {f g : κ → Option ν} {gs gs' : List (κ → Option ν)}

/-- What `f` answers, and otherwise what `g` answers. -/
def fill (f g : κ → Option ν) : κ → Option ν := fun k => (f k).or (g k)

theorem foldl_fill_apply (f : κ → Option ν) (gs : List (κ → Option ν)) (k : κ) :
    gs.foldl fill f k = (f k).or (gs.findSome? fun g => g k) := by
  induction gs generalizing f with
  | nil => simp
  | cons g gs ih =>
      rw [List.foldl_cons, ih, fill, Option.or_assoc, List.findSome?_cons]
      cases g k <;> rfl

/-- No two of the functions answer differently where `f` does not answer. -/
def Compatible (f : κ → Option ν) (gs : List (κ → Option ν)) : Prop :=
  ∀ k, f k = none → ∀ g ∈ gs, ∀ g' ∈ gs, ∀ v w, g k = some v → g' k = some w → v = w

/-- What a compatible sequence of fills answers. -/
theorem findSome_iff (h : Compatible f gs) {k : κ} (hk : f k = none) {v : ν} :
    gs.findSome? (fun g => g k) = some v ↔ ∃ g ∈ gs, g k = some v := by
  refine ⟨fun hv => List.exists_of_findSome?_eq_some hv, fun ⟨g, hg, hv⟩ => ?_⟩
  cases hfind : gs.findSome? fun g => g k with
  | none =>
      rw [List.findSome?_eq_none_iff.mp hfind g hg] at hv
      cases hv
  | some w =>
      obtain ⟨g', hg', hw⟩ := List.exists_of_findSome?_eq_some hfind
      rw [h k hk g' hg' g hg w v hw hv]

/-- **The order of compatible fills does not matter.** -/
theorem foldl_fill_perm (hperm : gs.Perm gs') (h : Compatible f gs) :
    gs.foldl fill f = gs'.foldl fill f := by
  have h' : Compatible f gs' := fun k hk g hg g' hg' =>
    h k hk g (hperm.mem_iff.mpr hg) g' (hperm.mem_iff.mpr hg')
  funext k
  rw [foldl_fill_apply, foldl_fill_apply]
  cases hk : f k with
  | some v => rfl
  | none =>
      refine Option.ext fun v => ?_
      rw [Option.none_or, Option.none_or, findSome_iff h hk, findSome_iff h' hk]
      exact exists_congr fun g => and_congr_left fun _ => hperm.mem_iff

/-- **Only the last fills matter**: those of `gs'` are among them, and keep what each one
answers. -/
theorem foldl_fill_kept (hsub : ∀ g ∈ gs', g ∈ gs)
    (hkept : ∀ g ∈ gs, ∃ g' ∈ gs', ∀ k v, g k = some v → g' k = some v)
    (h : Compatible f gs') : gs.foldl fill f = gs'.foldl fill f := by
  have hall : Compatible f gs := by
    intro k hk g hg g' hg' v w hv hw
    obtain ⟨x, hx, hgx⟩ := hkept g hg
    obtain ⟨y, hy, hgy⟩ := hkept g' hg'
    exact h k hk x hx y hy v w (hgx k v hv) (hgy k w hw)
  funext k
  rw [foldl_fill_apply, foldl_fill_apply]
  cases hk : f k with
  | some v => rfl
  | none =>
      refine Option.ext fun v => ?_
      rw [Option.none_or, Option.none_or, findSome_iff hall hk, findSome_iff h hk]
      constructor
      · rintro ⟨g, hg, hv⟩
        obtain ⟨g', hg', hgg'⟩ := hkept g hg
        exact ⟨g', hg', hgg' k v hv⟩
      · rintro ⟨g, hg, hv⟩
        exact ⟨g, hsub g hg, hv⟩

end Fill
