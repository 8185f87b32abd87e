import Mathlib.Data.List.Basic

/-!
# Lib — Trail

A computation on a state `σ` that performs atomic effects one after another.  Its *trail* is
the list of the effects it performed, each labelled with an event of `ε` and paired with the
state it left.  A process may be stopped between any two effects: what it leaves is the state
at the end of a prefix of its trail.

* `Trail ε σ α`: from a state, a trail and a result.  A monad; `Trail.final` is the state a
  computation ends in, and `run_bind` is how trails compose.
* `endOf`: the state at the end of a trail.  `endOf_take_of_forall`: an invariant of every
  state of a trail holds wherever the trail is cut.
* `Keeps I`: a computation whose trail stays in `I`; `Keeps.bind` composes.
* `Linked G`: each two consecutive states of a trail are related by `G`.  A guarantee on the
  trail is a guarantee on every cut of it (`Linked.take`).
-/

/-- A computation on `σ` that logs each atomic effect with an event and the state after it. -/
def Trail (ε σ α : Type) : Type := σ → List (ε × σ) × α

namespace Trail

variable {ε σ α β : Type}

/-- The state at the end of a trail that starts at `s`. -/
def endOf (s : σ) : List (ε × σ) → σ
  | [] => s
  | (_, s') :: l => endOf s' l

@[simp] theorem endOf_nil (s : σ) : endOf s ([] : List (ε × σ)) = s := rfl

@[simp] theorem endOf_cons (s s' : σ) (e : ε) (l : List (ε × σ)) :
    endOf s ((e, s') :: l) = endOf s' l := rfl

theorem endOf_append (s : σ) (l l' : List (ε × σ)) :
    endOf s (l ++ l') = endOf (endOf s l) l' := by
  induction l generalizing s with
  | nil => rfl
  | cons p l ih => exact ih p.2

/-- The state a computation ends in. -/
def final (m : Trail ε σ α) (s : σ) : σ := endOf s (m s).1

/-- One atomic effect. -/
def effect (e : ε) (f : σ → σ) : Trail ε σ Unit := fun s => ([(e, f s)], ())

/-- Reading the state is no effect. -/
def read (f : σ → α) : Trail ε σ α := fun s => ([], f s)

instance : Monad (Trail ε σ) where
  pure a := fun _ => ([], a)
  bind m f := fun s =>
    ((m s).1 ++ (f (m s).2 (m.final s)).1, (f (m s).2 (m.final s)).2)

theorem run_pure (a : α) (s : σ) : (pure a : Trail ε σ α) s = ([], a) := rfl

theorem run_bind (m : Trail ε σ α) (f : α → Trail ε σ β) (s : σ) :
    (m >>= f) s = ((m s).1 ++ (f (m s).2 (m.final s)).1, (f (m s).2 (m.final s)).2) := rfl

theorem run_read (f : σ → α) (s : σ) : (read f : Trail ε σ α) s = ([], f s) := rfl

theorem final_bind (m : Trail ε σ α) (f : α → Trail ε σ β) (s : σ) :
    (m >>= f).final s = (f (m s).2).final (m.final s) := endOf_append s _ _

/-- An invariant of the start and of every state of a trail holds at the end of every cut. -/
theorem endOf_take_of_forall {I : σ → Prop} {s : σ} {l : List (ε × σ)} (hs : I s)
    (hl : ∀ p ∈ l, I p.2) (n : ℕ) : I (endOf s (l.take n)) := by
  induction l generalizing s n with
  | nil => simpa using hs
  | cons p l ih =>
      cases n with
      | zero => exact hs
      | succ n =>
          exact ih (hl p List.mem_cons_self) (fun q hq => hl q (List.mem_cons_of_mem _ hq)) n

theorem endOf_of_forall {I : σ → Prop} {s : σ} {l : List (ε × σ)} (hs : I s)
    (hl : ∀ p ∈ l, I p.2) : I (endOf s l) := by
  simpa using endOf_take_of_forall hs hl l.length

/-! ### Invariants of a computation -/

/-- From a state of `I`, every state of the trail is one. -/
def Keeps (I : σ → Prop) (m : Trail ε σ α) : Prop := ∀ s, I s → ∀ p ∈ (m s).1, I p.2

namespace Keeps

variable {I : σ → Prop} {m : Trail ε σ α}

theorem final (h : Keeps I m) {s : σ} (hs : I s) : I (m.final s) := endOf_of_forall hs (h s hs)

theorem pure (I : σ → Prop) (a : α) : Keeps I (Pure.pure a : Trail ε σ α) := by
  intro s _ p hp
  cases hp

theorem read (I : σ → Prop) (f : σ → α) : Keeps I (Trail.read f : Trail ε σ α) := by
  intro s _ p hp
  cases hp

theorem bind {f : α → Trail ε σ β} (hm : Keeps I m) (hf : ∀ a, Keeps I (f a)) :
    Keeps I (m >>= f) := by
  intro s hs p hp
  rcases List.mem_append.mp hp with hp | hp
  · exact hm s hs p hp
  · exact hf _ _ (hm.final hs) p hp

end Keeps

/-! ### Guarantees on consecutive states -/

/-- Each two consecutive states of the trail `l` from `s` are related by `G`. -/
def Linked (G : σ → σ → Prop) : σ → List (ε × σ) → Prop
  | _, [] => True
  | s, (_, s') :: l => G s s' ∧ Linked G s' l

@[simp] theorem linked_nil {G : σ → σ → Prop} {s : σ} :
    Linked G s ([] : List (ε × σ)) := trivial

@[simp] theorem linked_cons {G : σ → σ → Prop} {s s' : σ} {e : ε} {l : List (ε × σ)} :
    Linked G s ((e, s') :: l) ↔ G s s' ∧ Linked G s' l := Iff.rfl

/-- A process stopped early keeps the guarantee its whole trail has. -/
theorem Linked.take {G : σ → σ → Prop} {s : σ} {l : List (ε × σ)} (h : Linked G s l) (n : ℕ) :
    Linked G s (l.take n) := by
  induction l generalizing s n with
  | nil => simp
  | cons p l ih =>
      cases n with
      | zero => exact linked_nil
      | succ n => exact ⟨h.1, ih h.2 n⟩

/-- A relation that holds from every state of `A` to every state of `B` links a trail that
starts in `A` and stays in `A` and `B`. -/
theorem linked_of_forall {G : σ → σ → Prop} {A : σ → Prop} (hG : ∀ s s', A s → A s' → G s s')
    {s : σ} {l : List (ε × σ)} (hs : A s) (hl : ∀ p ∈ l, A p.2) : Linked G s l := by
  induction l generalizing s with
  | nil => exact linked_nil
  | cons p l ih =>
      have hp : A p.2 := hl p List.mem_cons_self
      exact ⟨hG s p.2 hs hp, ih hp fun q hq => hl q (List.mem_cons_of_mem _ hq)⟩

end Trail
