import Mathlib.Logic.Relation

/-!
# Steps — what computations do to a state

A computation reads and changes a state, and returns or fails.  `Within S x` says that the state
it leaves is reached from the one it found by steps of `S`, whichever way it ends.

* `andThen`: one computation after another; a failure ends both.
* `Within.andThen`: the steps of a sequence are those of its parts.
* `runAll`: computations in a row, whether they fail or not, seen through a view of the state.
  `runAll_steps`: the steps of a run are those of its computations.
* `relates`: a preorder that every step respects holds from end to end.  `invariant`: what every
  step keeps is kept.
-/

namespace Steps
open Relation

variable {σ τ ε α β ι : Type} {S S' : σ → σ → Prop}

/-- One computation after another. -/
def andThen (x : σ → Except ε α × σ) (f : α → σ → Except ε β × σ) : σ → Except ε β × σ := fun s =>
  match x s with
  | (.ok a, s') => f a s'
  | (.error e, s') => (.error e, s')

/-- The computation changes its state by steps of `S` only. -/
def Within (S : σ → σ → Prop) (x : σ → Except ε α × σ) : Prop := ∀ s, ReflTransGen S s (x s).2

namespace Within

variable {x : σ → Except ε α × σ} {f : α → σ → Except ε β × σ}

/-- A computation that leaves the state as it is takes no step. -/
theorem of_unchanged (h : ∀ s, (x s).2 = s) : Within S x := by
  intro s
  rw [h s]

theorem of_step (h : ∀ s, (x s).2 = s ∨ S s (x s).2) : Within S x := by
  intro s
  rcases h s with heq | hstep
  · rw [heq]
  · exact .single hstep

theorem mono (hS : ∀ s s', S s s' → S' s s') (hx : Within S x) : Within S' x :=
  fun s => ReflTransGen.mono hS _ _ (hx s)

/-- **The steps of a sequence** are those of its parts. -/
theorem andThen (hx : Within S x) (hf : ∀ a, Within S (f a)) : Within S (andThen x f) := by
  intro s
  have hfirst := hx s
  unfold Steps.andThen
  rcases hrun : x s with ⟨e | a, s'⟩
  · rw [hrun] at hfirst
    exact hfirst
  · rw [hrun] at hfirst
    exact hfirst.trans (hf a s')

end Within

/-! ### From end to end -/

/-- Steps that each respect a preorder respect it together. -/
theorem relates {G : σ → σ → Prop} (hrefl : ∀ s, G s s)
    (htrans : ∀ s s' s'', G s s' → G s' s'' → G s s'') (hS : ∀ s s', S s s' → G s s') {s s' : σ}
    (h : ReflTransGen S s s') : G s s' := by
  induction h with
  | refl => exact hrefl s
  | tail _ hstep ih => exact htrans _ _ _ ih (hS _ _ hstep)

/-- Steps that each keep an invariant keep it together. -/
theorem invariant {I : σ → Prop} (hS : ∀ s s', S s s' → I s → I s') {s s' : σ}
    (h : ReflTransGen S s s') (hs : I s) : I s' :=
  relates (G := fun s s' => I s → I s') (fun _ => id) (fun _ _ _ h h' => h' ∘ h) hS h hs

/-! ### Runs -/

/-- Computations in a row; each starts where the one before ended. -/
def runAll (f : ι → σ → Except ε α × σ) (is : List ι) (s : σ) : σ :=
  is.foldl (fun s i => (f i s).2) s

/-- **The steps of a run**, seen through a view of the state, are those of its computations. -/
theorem runAll_steps {f : ι → σ → Except ε α × σ} {view : σ → τ} {S : ι → τ → τ → Prop}
    {is : List ι} (h : ∀ i ∈ is, ∀ s, ReflTransGen (S i) (view s) (view (f i s).2)) (s : σ) :
    ReflTransGen (fun t t' => ∃ i ∈ is, S i t t') (view s) (view (runAll f is s)) := by
  induction is generalizing s with
  | nil => exact .refl
  | cons i is ih =>
      refine (ReflTransGen.mono (fun t t' hstep => ?_) _ _ (h i List.mem_cons_self s)).trans
        (ReflTransGen.mono (fun t t' hstep => ?_) _ _
          (ih (fun j hj => h j (List.mem_cons_of_mem _ hj)) (f i s).2))
      · exact ⟨i, List.mem_cons_self, hstep⟩
      · obtain ⟨j, hj, hstep⟩ := hstep
        exact ⟨j, List.mem_cons_of_mem _ hj, hstep⟩

end Steps
