import Mathlib.Logic.Function.Basic

/-!
# Interleave — programs on a shared state, interleaved

A thread runs a program that performs operations `Op`, each answered by a value of `Res`.  An
operation is one atomic step on the shared state `σ`, which may depend on a choice `ε` of the
environment.  A schedule says which thread steps next, and under which choice.

* `Prog`: programs; a monad.
* `Config`, `step`, `run`: threads and a state, and what a schedule makes of them.
* `performed`: the operations a schedule performs, each with the configuration it meets.
* `run_invariant`: what every step that meets a condition keeps, a run of such steps keeps.
* `run_iff`: a property of the state that a step keeps exactly when it meets a condition holds
  after a run exactly when every step of the run met it.
-/

/-- A program that performs operations and is answered. -/
inductive Prog (Op Res α : Type) where
  | ret (a : α)
  | call (o : Op) (next : Res → Prog Op Res α)

namespace Prog

variable {Op Res α β : Type}

/-- Go on with the result. -/
def andThen : Prog Op Res α → (α → Prog Op Res β) → Prog Op Res β
  | .ret a, f => f a
  | .call o next, f => .call o fun r => (next r).andThen f

instance : Monad (Prog Op Res) where
  pure := .ret
  bind := andThen

/-- What a program that has ended returns. -/
def result : Prog Op Res α → Option α
  | .ret a => some a
  | .call _ _ => none

theorem ret_of_result {p : Prog Op Res α} {a : α} (h : p.result = some a) : p = .ret a := by
  cases p with
  | ret b => exact congrArg Prog.ret (Option.some.inj h)
  | call o next => cases h

/-- One operation. -/
def perform (o : Op) : Prog Op Res Res := .call o .ret

@[simp] theorem pure_bind (a : α) (f : α → Prog Op Res β) : (pure a >>= f) = f a := rfl

@[simp] theorem ret_bind (a : α) (f : α → Prog Op Res β) : (Prog.ret a >>= f) = f a := rfl

@[simp] theorem call_bind (o : Op) (next : Res → Prog Op Res α) (f : α → Prog Op Res β) :
    (Prog.call o next >>= f) = .call o fun r => next r >>= f := rfl

@[simp] theorem perform_bind (o : Op) (f : Res → Prog Op Res β) :
    (perform o >>= f) = .call o f := rfl

end Prog

namespace Interleave

variable {ι Op Res α ε σ : Type}

/-- What an operation does, under a choice of the environment. -/
abbrev Meaning (Op Res ε σ : Type) : Type := Op → ε → σ → σ × Res

/-- The programs that are left to the threads, and the shared state. -/
structure Config (ι Op Res α σ : Type) where
  threads : ι → Prog Op Res α
  state : σ

/-- An operation that a thread performs, and the configuration it meets. -/
structure Performed (ι Op Res α ε σ : Type) where
  thread : ι
  op : Op
  choice : ε
  before : Config ι Op Res α σ

section

variable [DecidableEq ι] (sem : Meaning Op Res ε σ)

/-- The thread performs its next operation; one that has returned does nothing. -/
def step (c : Config ι Op Res α σ) (x : ι × ε) : Config ι Op Res α σ :=
  match c.threads x.1 with
  | .ret _ => c
  | .call o next =>
      ⟨Function.update c.threads x.1 (next (sem o x.2 c.state).2), (sem o x.2 c.state).1⟩

def run (c : Config ι Op Res α σ) (schedule : List (ι × ε)) : Config ι Op Res α σ :=
  schedule.foldl (step sem) c

/-- What the next step of a thread performs. -/
def performs (c : Config ι Op Res α σ) (x : ι × ε) : Option (Performed ι Op Res α ε σ) :=
  match c.threads x.1 with
  | .ret _ => none
  | .call o _ => some ⟨x.1, o, x.2, c⟩

def performed (c : Config ι Op Res α σ) : List (ι × ε) → List (Performed ι Op Res α ε σ)
  | [] => []
  | x :: schedule => (performs c x).toList ++ performed (step sem c x) schedule

end

section

variable [DecidableEq ι] {sem : Meaning Op Res ε σ} {c : Config ι Op Res α σ}
  {i : ι} {e : ε} {o : Op} {next : Res → Prog Op Res α} {schedule : List (ι × ε)}

theorem step_ret {a : α} (h : c.threads i = .ret a) : step sem c (i, e) = c := by
  simp only [step, h]

theorem step_call (h : c.threads i = .call o next) : step sem c (i, e) =
    ⟨Function.update c.threads i (next (sem o e c.state).2), (sem o e c.state).1⟩ := by
  simp only [step, h]

theorem run_cons (x : ι × ε) : run sem c (x :: schedule) = run sem (step sem c x) schedule := rfl

theorem performed_ret {a : α} (h : c.threads i = .ret a) :
    performed sem c ((i, e) :: schedule) = performed sem c schedule := by
  simp only [performed, performs, h, step_ret h, Option.toList_none, List.nil_append]

theorem performed_call (h : c.threads i = .call o next) :
    performed sem c ((i, e) :: schedule) =
      ⟨i, o, e, c⟩ :: performed sem (step sem c (i, e)) schedule := by
  simp only [performed, performs, h, Option.toList_some, List.cons_append, List.nil_append]

theorem performed_append (before after : List (ι × ε)) : performed sem c (before ++ after) =
    performed sem c before ++ performed sem (run sem c before) after := by
  induction before generalizing c with
  | nil => rfl
  | cons x before ih =>
      rw [List.cons_append, performed, ih, run_cons, performed, List.append_assoc]

theorem run_snoc (before : List (ι × ε)) (x : ι × ε) :
    run sem c (before ++ [x]) = step sem (run sem c before) x := by
  rw [run, List.foldl_append]; rfl

/-- What is performed is the next operation of its thread. -/
theorem performed_thread {p : Performed ι Op Res α ε σ} (h : p ∈ performed sem c schedule) :
    ∃ next, p.before.threads p.thread = .call p.op next := by
  induction schedule generalizing c with
  | nil => exact absurd h List.not_mem_nil
  | cons x schedule ih =>
      obtain ⟨i, e⟩ := x
      cases hi : c.threads i with
      | ret a => rw [performed_ret hi] at h; exact ih h
      | call o next =>
          rw [performed_call hi] at h
          rcases List.mem_cons.mp h with rfl | h
          · exact ⟨next, hi⟩
          · exact ih h

/-- The invariant rule: what a step under a condition keeps holds wherever a schedule whose
steps meet the condition leads, and in every configuration one of them meets. -/
theorem run_invariant {I : Config ι Op Res α σ → Prop} {A : Performed ι Op Res α ε σ → Prop}
    (hstep : ∀ c i e o next, c.threads i = .call o next → I c → A ⟨i, o, e, c⟩ →
      I (step sem c (i, e)))
    (hc : I c) (hA : ∀ p ∈ performed sem c schedule, I p.before → A p) :
    I (run sem c schedule) ∧ ∀ p ∈ performed sem c schedule, I p.before := by
  induction schedule generalizing c with
  | nil => exact ⟨hc, fun p hp => absurd hp List.not_mem_nil⟩
  | cons x schedule ih =>
      obtain ⟨i, e⟩ := x
      rw [run_cons]
      cases h : c.threads i with
      | ret a =>
          rw [performed_ret h] at hA ⊢
          rw [step_ret h]
          exact ih hc hA
      | call o next =>
          rw [performed_call h] at hA ⊢
          have hc' := hstep c i e o next h hc (hA _ List.mem_cons_self hc)
          obtain ⟨hrun, hall⟩ := ih hc' fun p hp => hA p (List.mem_cons_of_mem _ hp)
          refine ⟨hrun, fun p hp => ?_⟩
          rcases List.mem_cons.mp hp with rfl | hp
          · exact hc
          · exact hall p hp

/-- The rule for a property `G` of the state that, under an invariant `I` of the state, a step
keeps exactly when it meets a condition `A`. -/
theorem run_iff {I G : σ → Prop} {A : Op → ε → σ → Prop}
    (hI : ∀ o e s, I s → I (sem o e s).1)
    (hG : ∀ o e s, I s → (G (sem o e s).1 ↔ G s ∧ A o e s)) (hc : I c.state) :
    G (run sem c schedule).state ↔
      G c.state ∧ ∀ p ∈ performed sem c schedule, A p.op p.choice p.before.state := by
  induction schedule generalizing c with
  | nil => exact ⟨fun h => ⟨h, fun p hp => absurd hp List.not_mem_nil⟩, And.left⟩
  | cons x schedule ih =>
      obtain ⟨i, e⟩ := x
      rw [run_cons]
      cases h : c.threads i with
      | ret a =>
          rw [performed_ret h, step_ret h]
          exact ih hc
      | call o next =>
          have hs : (step sem c (i, e)).state = (sem o e c.state).1 := by rw [step_call h]
          rw [performed_call h, ih (by rw [hs]; exact hI o e _ hc), hs, hG o e _ hc,
            List.forall_mem_cons, and_assoc]

end

end Interleave
