import Mathlib.Data.List.Basic

/-!
# Loop — loops that may raise

`List.foldlM` in `Except`: a loop whose body never raises is a fold, and a loop whose body raises
at one element raises.  What the body keeps, the loop keeps (`foldlM_invariant`).  A step that keeps
an invariant where a condition on the state before it holds keeps it over every run along which the
condition does (`Along.invariant`).
-/

namespace Loop

variable {ε σ α β : Type} {f : σ → α → Except ε σ} {g : σ → α → σ} {xs : List α}

/-- A block that returned has returned from each of its parts. -/
theorem of_bind_ok {x : Except ε α} {k : α → Except ε β} {b : β} (h : x >>= k = .ok b) :
    ∃ a, x = .ok a ∧ k a = .ok b := by
  cases x with
  | error e => cases h
  | ok a => exact ⟨a, rfl, h⟩

/-- A loop whose body does not raise is a fold. -/
theorem foldlM_ok (h : ∀ s, ∀ x ∈ xs, f s x = .ok (g s x)) (s : σ) :
    xs.foldlM f s = .ok (xs.foldl g s) := by
  induction xs generalizing s with
  | nil => rfl
  | cons x xs ih =>
      rw [List.foldlM_cons, h s x List.mem_cons_self]
      exact ih (fun s y hy => h s y (List.mem_cons_of_mem _ hy)) (g s x)

/-- A loop that returned is a fold. -/
theorem foldl_of_ok (h : ∀ s, ∀ x ∈ xs, ∀ s', f s x = .ok s' → s' = g s x) {s s' : σ}
    (hok : xs.foldlM f s = .ok s') : s' = xs.foldl g s := by
  induction xs generalizing s with
  | nil => cases hok; rfl
  | cons x xs ih =>
      rw [List.foldlM_cons] at hok
      cases hx : f s x with
      | error e => rw [hx] at hok; cases hok
      | ok t =>
          rw [hx] at hok
          obtain rfl := h s x List.mem_cons_self t hx
          exact ih (fun s y hy => h s y (List.mem_cons_of_mem _ hy)) hok

/-- What the body keeps, a loop that returned has kept. -/
theorem foldlM_invariant {I : σ → Prop}
    (h : ∀ s, ∀ x ∈ xs, ∀ s', I s → f s x = .ok s' → I s') {s s' : σ} (hs : I s)
    (hok : xs.foldlM f s = .ok s') : I s' := by
  induction xs generalizing s with
  | nil => cases hok; exact hs
  | cons x xs ih =>
      rw [List.foldlM_cons] at hok
      cases hx : f s x with
      | error e => rw [hx] at hok; cases hok
      | ok t =>
          rw [hx] at hok
          exact ih (fun s y hy => h s y (List.mem_cons_of_mem _ hy))
            (h s x List.mem_cons_self t hs hx) hok

/-- A loop raises `e` when its body raises `e` at one element and raises nothing else. -/
theorem foldlM_error {e : ε} (h : ∀ s, ∀ x ∈ xs, (∃ s', f s x = .ok s') ∨ f s x = .error e)
    (hx : ∃ x ∈ xs, ∀ s, f s x = .error e) (s : σ) : xs.foldlM f s = .error e := by
  induction xs generalizing s with
  | nil => obtain ⟨x, hx, -⟩ := hx; cases hx
  | cons x xs ih =>
      rw [List.foldlM_cons]
      rcases h s x List.mem_cons_self with ⟨s', hok⟩ | herr
      · obtain ⟨y, hy, hbad⟩ := hx
        rcases List.mem_cons.mp hy with rfl | hy
        · rw [hbad s] at hok; cases hok
        · rw [hok]
          exact ih (fun s z hz => h s z (List.mem_cons_of_mem _ hz)) ⟨y, hy, hbad⟩ s'
      · rw [herr]; rfl

/-- When it hangs on the element alone whether the body raises, a loop returns exactly when the
body does at every element. -/
theorem foldlM_ok_iff {P : α → Prop} (h : ∀ s, ∀ x ∈ xs, (∃ s', f s x = .ok s') ↔ P x) (s : σ) :
    (∃ s', xs.foldlM f s = .ok s') ↔ ∀ x ∈ xs, P x := by
  induction xs generalizing s with
  | nil => simp [pure, Except.pure]
  | cons x xs ih =>
      have ih := ih fun s y hy => h s y (List.mem_cons_of_mem _ hy)
      rw [List.forall_mem_cons, ← h s x List.mem_cons_self]
      constructor
      · rintro ⟨s'', hs''⟩
        rw [List.foldlM_cons] at hs''
        obtain ⟨s', hs', hrest⟩ := of_bind_ok hs''
        exact ⟨⟨s', hs'⟩, (ih s').mp ⟨s'', hrest⟩⟩
      · rintro ⟨⟨s', hs'⟩, hrest⟩
        rw [List.foldlM_cons, hs']
        exact (ih s').mpr hrest

/-- `mapM` with a body that does not raise is `map`. -/
theorem mapM_ok {f : α → Except ε β} {g : α → β} (h : ∀ x ∈ xs, f x = .ok (g x)) :
    xs.mapM f = .ok (xs.map g) := by
  induction xs with
  | nil => rfl
  | cons x xs ih =>
      rw [List.mapM_cons, h x List.mem_cons_self, ih fun y hy => h y (List.mem_cons_of_mem _ hy)]
      rfl

/-- `mapM` returns exactly when its body does at every element. -/
theorem mapM_ok_iff {f : α → Except ε β} :
    (∃ ys, xs.mapM f = .ok ys) ↔ ∀ x ∈ xs, ∃ y, f x = .ok y := by
  induction xs with
  | nil => exact iff_of_true ⟨[], rfl⟩ (by simp)
  | cons x xs ih =>
      rw [List.forall_mem_cons, ← ih, List.mapM_cons]
      constructor
      · rintro ⟨ys, h⟩
        obtain ⟨y, hy, hrest⟩ := of_bind_ok h
        obtain ⟨zs, hzs, -⟩ := of_bind_ok hrest
        exact ⟨⟨y, hy⟩, zs, hzs⟩
      · rintro ⟨⟨y, hy⟩, zs, hzs⟩
        rw [hy, hzs]
        exact ⟨y :: zs, rfl⟩

theorem length_of_mapM_ok {f : α → Except ε β} {ys : List β} (h : xs.mapM f = .ok ys) :
    ys.length = xs.length := by
  induction xs generalizing ys with
  | nil =>
      obtain rfl := Except.ok.inj h
      rfl
  | cons x xs ih =>
      rw [List.mapM_cons] at h
      obtain ⟨y, -, hrest⟩ := of_bind_ok h
      obtain ⟨zs, hzs, hys⟩ := of_bind_ok hrest
      obtain rfl := Except.ok.inj hys
      exact congrArg (· + 1) (ih hzs)

/-- What `mapM` returned, its body returned at some element. -/
theorem of_mapM_ok {f : α → Except ε β} {ys : List β} (h : xs.mapM f = .ok ys) :
    ∀ y ∈ ys, ∃ x ∈ xs, f x = .ok y := by
  induction xs generalizing ys with
  | nil =>
      obtain rfl := Except.ok.inj h
      simp
  | cons x xs ih =>
      rw [List.mapM_cons] at h
      obtain ⟨y, hy, hrest⟩ := of_bind_ok h
      obtain ⟨zs, hzs, hys⟩ := of_bind_ok hrest
      obtain rfl := Except.ok.inj hys
      rintro z (_ | ⟨_, hz⟩)
      · exact ⟨x, List.mem_cons_self, hy⟩
      · obtain ⟨x', hx', hz⟩ := ih hzs z hz
        exact ⟨x', List.mem_cons_of_mem _ hx', hz⟩

/-- A fold that adds what `p` gives is a fold over what `p` gives. -/
theorem foldl_filterMap (p : α → Option β) (add : σ → β → σ) (xs : List α) (s : σ) :
    xs.foldl (fun s x => (p x).elim s (add s)) s = (xs.filterMap p).foldl add s := by
  induction xs generalizing s with
  | nil => rfl
  | cons x xs ih =>
      rw [List.foldl_cons, ih]
      cases hp : p x <;> simp [hp]

/-- Before each element of a loop, the condition on the state and the element holds. -/
def Along (C : σ → α → Prop) (g : σ → α → σ) : σ → List α → Prop
  | _, [] => True
  | s, x :: xs => C s x ∧ Along C g (g s x) xs

instance (C : σ → α → Prop) [∀ s x, Decidable (C s x)] (g : σ → α → σ) :
    (s : σ) → (xs : List α) → Decidable (Along C g s xs)
  | _, [] => .isTrue trivial
  | s, x :: xs =>
      have := instDecidableAlong C g (g s x) xs
      inferInstanceAs (Decidable (C s x ∧ Along C g (g s x) xs))

theorem Along.invariant {C : σ → α → Prop} {I : σ → Prop}
    (h : ∀ s x, I s → C s x → I (g s x)) {s : σ} (hs : I s) (hxs : Along C g s xs) :
    I (xs.foldl g s) := by
  induction xs generalizing s with
  | nil => exact hs
  | cons x xs ih => exact ih (h s x hs hxs.1) hxs.2

theorem Along.take {C : σ → α → Prop} {s : σ} {ys : List α} (h : Along C g s xs)
    (hys : ys <+: xs) : Along C g s ys := by
  induction ys generalizing s xs with
  | nil => trivial
  | cons y ys ih =>
      obtain ⟨zs, rfl⟩ := hys
      exact ⟨h.1, ih h.2 (List.prefix_append ys zs)⟩

end Loop
