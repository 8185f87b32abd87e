import Mathlib.Data.List.Basic

/-!
# Pages — a list read page by page

* `page`: some items of a list behind others.
* `RowWise`: a computation that reads a list item by item, so that it reads two lists behind each
  other as it reads one and then the other.
* `RowWise.pages`: it reads the pages of a list, one after another, as it reads the list.
-/

/-- The `n` items behind the first `k`. -/
def page {α : Type} (k n : ℕ) (xs : List α) : List α := (xs.drop k).take n

/-- The list is read item by item. -/
structure RowWise {m : Type → Type} [Monad m] {α β : Type} (read : List α → m (List β)) : Prop where
  nil : read [] = pure []
  append : ∀ xs ys, read (xs ++ ys) = do return (← read xs) ++ (← read ys)

namespace RowWise

variable {m : Type → Type} [Monad m] [LawfulMonad m] {α β γ : Type} {read : List α → m (List β)}

theorem mapM (f : α → m β) : RowWise fun xs => xs.mapM f where
  nil := List.mapM_nil
  append _ _ := List.mapM_append

/-- Without a computation. -/
theorem pure {f : List α → List β} (hnil : f [] = [])
    (happend : ∀ xs ys, f (xs ++ ys) = f xs ++ f ys) :
    RowWise (m := m) fun xs => Pure.pure (f xs) where
  nil := by rw [hnil]
  append xs ys := by rw [happend, pure_bind, pure_bind]

theorem map (h : RowWise read) (f : β → γ) : RowWise fun xs => List.map f <$> read xs where
  nil := by rw [h.nil, map_pure, List.map_nil]
  append xs ys := by
    rw [h.append]
    simp only [map_eq_pure_bind, bind_assoc, pure_bind, List.map_append]

/-- **Pages are read as the list is**, as far as they go. -/
theorem pages_take (h : RowWise read) (n N : ℕ) (xs : List α) :
    List.flatten <$> (List.range N).mapM (fun k => read (page (n * k) n xs)) =
      read (xs.take (n * N)) := by
  induction N with
  | zero => rw [Nat.mul_zero, List.take_zero, h.nil, List.range_zero, List.mapM_nil, map_pure]; rfl
  | succ N ih =>
      have hlast : xs.take (n * (N + 1)) = xs.take (n * N) ++ page (n * N) n xs := by
        rw [Nat.mul_succ, List.take_add]
        rfl
      rw [hlast, h.append, ← ih, List.range_succ, List.mapM_append]
      simp only [map_eq_pure_bind, bind_assoc, pure_bind, List.mapM_cons, List.mapM_nil,
        List.flatten_append, List.flatten_cons, List.flatten_nil, List.append_nil]

/-- Computations that are the same up to a bound. -/
theorem mapM_range {f g : ℕ → m β} {N : ℕ} (h : ∀ k < N, f k = g k) :
    (List.range N).mapM f = (List.range N).mapM g := by
  induction N with
  | zero => rfl
  | succ N ih =>
      have hlast : [N].mapM f = [N].mapM g := by
        rw [List.mapM_cons, List.mapM_cons, h N (Nat.lt_succ_self N)]
        rfl
      rw [List.range_succ, List.mapM_append, List.mapM_append,
        ih fun k hk => h k (Nat.lt_succ_of_lt hk), hlast]

/-- Pages that go past the end of the list. -/
theorem pages (h : RowWise read) {n N : ℕ} {xs : List α} {readPage : ℕ → m (List β)}
    (hpage : ∀ k < N, readPage k = read (page (n * k) n xs)) (hN : xs.length ≤ n * N) :
    List.flatten <$> (List.range N).mapM readPage = read xs := by
  rw [mapM_range hpage, h.pages_take, List.take_of_length_le hN]

end RowWise
