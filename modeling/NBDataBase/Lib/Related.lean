import Mathlib.Data.List.Forall2

/-!
# Related — two computations that go the same way

Two computations that may end in an error, on related inputs: both end in the same error, or both
return, and their results are related.

* `Related`: the relation of results, on computations.
* `Related.bind`, `Related.foldlM`: one after another, and loops over lists related item by item.
-/

/-- Both end in the same error, or both return related results. -/
inductive Related {ε α β : Type} (r : α → β → Prop) : Except ε α → Except ε β → Prop
  | ok {a : α} {b : β} (h : r a b) : Related r (.ok a) (.ok b)
  | error (e : ε) : Related r (.error e) (.error e)

namespace Related

variable {ε α β γ δ σ τ : Type} {r r' : α → β → Prop} {q : γ → δ → Prop}

theorem pure {a : α} {b : β} (h : r a b) :
    Related r (Pure.pure a : Except ε α) (Pure.pure b) := .ok h

theorem bind {x : Except ε α} {y : Except ε β} {f : α → Except ε γ} {g : β → Except ε δ}
    (h : Related r x y) (hfg : ∀ a b, r a b → Related q (f a) (g b)) :
    Related q (x >>= f) (y >>= g) := by
  cases h with
  | ok h => exact hfg _ _ h
  | error e => exact .error e

theorem refl {r : α → α → Prop} (hr : ∀ a, r a a) (x : Except ε α) : Related r x x := by
  cases x with
  | ok a => exact .ok (hr a)
  | error e => exact .error e

theorem mono {x : Except ε α} {y : Except ε β} (h : Related r x y) (hr : ∀ a b, r a b → r' a b) :
    Related r' x y := by
  cases h with
  | ok h => exact .ok (hr _ _ h)
  | error e => exact .error e

/-- Loops whose bodies keep a relation between their states. -/
theorem foldlM {s : σ → τ → Prop} {f : σ → α → Except ε σ} {g : τ → β → Except ε τ}
    (hfg : ∀ a b, s a b → ∀ x y, r x y → Related s (f a x) (g b y)) {xs : List α} {ys : List β}
    (h : List.Forall₂ r xs ys) {a : σ} {b : τ} (hab : s a b) :
    Related s (xs.foldlM f a) (ys.foldlM g b) := by
  induction h generalizing a b with
  | nil => exact .ok hab
  | cons hxy _ ih =>
      rw [List.foldlM_cons, List.foldlM_cons]
      exact (hfg a b hab _ _ hxy).bind fun _ _ h => ih h

/-- Loops over one list. -/
theorem foldlM_same {s : σ → τ → Prop} {f : σ → α → Except ε σ} {g : τ → α → Except ε τ}
    (hfg : ∀ a b, s a b → ∀ x, Related s (f a x) (g b x)) (xs : List α) {a : σ} {b : τ}
    (hab : s a b) : Related s (xs.foldlM f a) (xs.foldlM g b) :=
  foldlM (r := Eq) (fun a b h x _ hxy => hxy ▸ hfg a b h x) (List.forall₂_same.mpr fun _ _ => rfl)
    hab

end Related
