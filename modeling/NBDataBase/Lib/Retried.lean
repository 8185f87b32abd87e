import NBDataBase.Lib.Keyed

/-!
# Retried — calls that are repeated

* `Retried as bs`: the list `bs` is `as` with each element once or more times in its place.
* `Keyed.Command.Idempotent`: the command twice is the command once.
* `Keyed.run_retried`, `Keyed.answered_retried`: keys that see their calls repeated have the records
  that they have otherwise, and each repetition is answered as the call was.
-/

/-- Each element of the first list stands once or more times in its place in the second. -/
inductive Retried {α : Type} : List α → List α → Prop
  | nil : Retried [] []
  | cons (a : α) (n : ℕ) {as bs : List α} (h : Retried as bs) :
      Retried (a :: as) (List.replicate (n + 1) a ++ bs)

namespace Retried

variable {α β σ : Type} {as bs : List α}

theorem refl (as : List α) : Retried as as := by
  induction as with
  | nil => exact .nil
  | cons a as ih => exact .cons a 0 ih

theorem map (f : α → β) (h : Retried as bs) : Retried (as.map f) (bs.map f) := by
  induction h with
  | nil => exact .nil
  | cons a n _ ih =>
      rw [List.map_cons, List.map_append, List.map_replicate]
      exact .cons (f a) n ih

theorem mem_iff (h : Retried as bs) {x : α} : x ∈ as ↔ x ∈ bs := by
  induction h with
  | nil => rfl
  | cons a n _ ih => simp [ih]

/-- **Idempotent steps** lead to where they lead when none is repeated. -/
theorem foldl_eq {f : σ → α → σ} (h : Retried as bs) (hf : ∀ a ∈ as, ∀ s, f (f s a) a = f s a)
    (s : σ) : bs.foldl f s = as.foldl f s := by
  induction h generalizing s with
  | nil => rfl
  | @cons a n as bs _ ih =>
      have hrepeated : ∀ n s, (List.replicate (n + 1) a).foldl f s = f s a := by
        intro n
        induction n with
        | zero => intro s; rfl
        | succ n ihn =>
            intro s
            rw [List.replicate_succ, List.foldl_cons, ihn, hf a List.mem_cons_self]
      rw [List.foldl_append, hrepeated, List.foldl_cons]
      exact ih (fun b hb => hf b (List.mem_cons_of_mem _ hb)) _

end Retried

namespace Keyed

variable {κ ρ : Type} [DecidableEq κ] {cs cs' : List (Call κ ρ)} {s : Store κ ρ}

/-- The command twice is the command once. -/
def Command.Idempotent : Command ρ → Prop
  | modify f => ∀ x, f (f x) = f x
  | merge f r => f r = r ∧ ∀ x, f (f x) = f x
  | _ => True

theorem Command.Idempotent.after {c : Command ρ} (h : c.Idempotent) (o : Option ρ) :
    c.after (c.after o) = c.after o := by
  cases c with
  | insert r => cases o <;> rfl
  | replace r => rfl
  | modify f =>
      cases o with
      | none => rfl
      | some x => exact congrArg some (h x)
  | merge f r =>
      cases o with
      | none => exact congrArg some h.1
      | some x => exact congrArg some (h.2 x)
  | erase => rfl
  | find => rfl

/-- A command is answered again as it was. -/
theorem Command.answer_after (c : Command ρ) (o : Option ρ) :
    c.answer (c.after o) = c.answer o := by
  cases c <;> rfl

theorem Call.step_step {c : Call κ ρ} (h : c.command.Idempotent) (s : Store κ ρ) :
    c.step (c.step s) = c.step s := by
  rw [step, step, Function.update_self, Function.update_idem, h.after]

theorem Call.answer_step (c : Call κ ρ) (s : Store κ ρ) : c.answer (c.step s) = c.answer s := by
  rw [answer, step, Function.update_self, Command.answer_after, answer]

/-- **Keys that see their calls repeated** have the records that they have otherwise. -/
theorem run_retried (hcs : ∀ c ∈ cs, c.command.Idempotent)
    (h : ∀ k, Retried (ofKey k cs) (ofKey k cs')) (s : Store κ ρ) : run cs' s = run cs s := by
  funext k
  rw [run_local, run_local]
  refine (h k).foldl_eq (fun c hc o => ?_) (s k)
  exact (hcs c (List.mem_filter.mp hc).1).after o

/-! ### Answers -/

variable {α : Type} (f : α → Call κ ρ)

/-- What stands for calls, each with the answer to it. -/
def answered (as : List α) (s : Store κ ρ) : List (α × Bool) :=
  as.zip ((trace (as.map f) s).map (·.2))

variable {f} {as bs : List α} {a : α} {s' : Store κ ρ} {k : κ}

@[simp] theorem answered_cons (a : α) (as : List α) (s : Store κ ρ) :
    answered f (a :: as) s = (a, (f a).answer s) :: answered f as ((f a).step s) := rfl

/-- **The answers at a key** are those of its own calls alone. -/
theorem answered_local (as : List α) (h : s k = s' k) :
    (answered f as s).filter (fun e => (f e.1).key = k) =
      answered f (as.filter fun a => (f a).key = k) s' := by
  induction as generalizing s s' with
  | nil => rfl
  | cons a as ih =>
      rw [answered_cons]
      by_cases ha : (f a).key = k
      · rw [List.filter_cons_of_pos (by simpa using ha),
          List.filter_cons_of_pos (by simpa using ha), answered_cons, Call.answer, Call.answer, ha,
            h]
        refine congrArg _ (ih ?_)
        rw [Call.step_self ha, Call.step_self ha, h]
      · rw [List.filter_cons_of_neg (by simpa using ha),
          List.filter_cons_of_neg (by simpa using ha)]
        exact ih ((Call.step_other ha s).trans h)

theorem answered_repeated (ha : (f a).command.Idempotent) (n : ℕ) (s : Store κ ρ) :
    answered f (List.replicate (n + 1) a ++ as) s =
      List.replicate (n + 1) (a, (f a).answer s) ++ answered f as ((f a).step s) := by
  induction n generalizing s with
  | zero => rfl
  | succ n ih =>
      rw [List.replicate_succ, List.cons_append, answered_cons, ih, Call.answer_step,
        Call.step_step ha, List.replicate_succ (n := n + 1), List.cons_append]

/-- **Each repetition is answered** as the call was. -/
theorem answered_retried (has : ∀ a ∈ as, (f a).command.Idempotent) (h : Retried as bs)
    (s : Store κ ρ) : Retried (answered f as s) (answered f bs s) := by
  induction h generalizing s with
  | nil => exact .nil
  | cons a n _ ih =>
      rw [answered_repeated (has a List.mem_cons_self)]
      exact .cons _ n (ih (fun b hb => has b (List.mem_cons_of_mem _ hb)) _)

end Keyed
