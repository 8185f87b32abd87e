import Mathlib.Data.List.Induction
import NBDataBase.Lib.Interleave

/-!
# Serial — checks that still hold at their writes

Threads of two operations: a check that leaves the state as it is, and a write that its answer
decides (`checkThen`).  Running such threads one after another is `serial`.

* `Serializable`: the state and the results of a configuration are those of running the threads
  that have returned one after another, in some order.
* `serializable_of_valid`: a run is serializable when every write finds the check of its thread
  such that it would decide for the same write again.  The order is the one in which the
  threads return.
-/

namespace Interleave
open Prog (perform)

variable {ι Op Res α σ : Type}

/-! ### One thread at a time -/

section Alone

variable (sem : Meaning Op Res Unit σ)

/-- A program that runs without interruption. -/
def alone : Prog Op Res α → σ → σ × α
  | .ret a, s => (s, a)
  | .call o next, s => alone (next (sem o () s).2) (sem o () s).1

/-- The threads of `order`, one after another, and what they return. -/
def serial (threads : ι → Prog Op Res α) (s : σ) (order : List ι) : σ × List (ι × α) :=
  order.foldl
    (fun r i => ((alone sem (threads i) r.1).1, r.2 ++ [(i, (alone sem (threads i) r.1).2)]))
    (s, [])

/-- What `c` has come to from `start` is what the threads that have returned come to one after
another. -/
def Serializable (start c : Config ι Op Res α σ) : Prop :=
  ∃ order : List ι, order.Nodup ∧ (∀ i, i ∈ order ↔ ∃ a, c.threads i = .ret a) ∧
    (serial sem start.threads start.state order).1 = c.state ∧
    ∀ x ∈ (serial sem start.threads start.state order).2, c.threads x.1 = .ret x.2

theorem serial_snoc (threads : ι → Prog Op Res α) (s : σ) (order : List ι) (i : ι) :
    serial sem threads s (order ++ [i]) =
      ((alone sem (threads i) (serial sem threads s order).1).1,
        (serial sem threads s order).2 ++
          [(i, (alone sem (threads i) (serial sem threads s order).1).2)]) := by
  rw [serial, List.foldl_append]; rfl

end Alone

/-- A check, and the operation or the result that its answer decides for. -/
def checkThen (check : Op) (write : Res → Op ⊕ Res) : Prog Op Res Res :=
  .call check fun r =>
    match write r with
    | .inl o => perform o
    | .inr a => .ret a

/-! ### Runs whose checks still hold -/

section Valid

variable [DecidableEq ι] {sem : Meaning Op Res Unit σ} {check : ι → Op}
  {write : ι → Res → Op ⊕ Res} {start : Config ι Op Res Res σ} {schedule : List (ι × Unit)}

/-- A write of which the check of its thread, asked again, would decide for it. -/
def StillValid (sem : Meaning Op Res Unit σ) (check : ι → Op) (write : ι → Res → Op ⊕ Res)
    (p : Performed ι Op Res Res Unit σ) : Prop :=
  p.op = check p.thread ∨
    write p.thread (sem (check p.thread) () p.before.state).2 = .inl p.op

/-- A thread that returns from `c` by what it would have done alone from there extends the serial
order. -/
theorem Serializable.returns {c : Config ι Op Res Res σ} (h : Serializable sem start c) {i : ι}
    {a : Res} {s : σ} (hi : ∀ b, c.threads i ≠ .ret b)
    (halone : alone sem (start.threads i) c.state = (s, a)) :
    Serializable sem start ⟨Function.update c.threads i (.ret a), s⟩ := by
  obtain ⟨order, hnodup, hmem, hstate, hresults⟩ := h
  have hnot : i ∉ order := fun hin => by
    obtain ⟨b, hb⟩ := (hmem i).mp hin
    exact hi b hb
  have hsnoc := serial_snoc sem start.threads start.state order i
  rw [hstate, halone] at hsnoc
  refine ⟨order ++ [i], ?_, fun j => ?_, by rw [hsnoc], fun x hx => ?_⟩
  · rw [List.nodup_append]
    refine ⟨hnodup, by simp, fun j hj k hk => ?_⟩
    rw [List.mem_singleton.mp hk]
    rintro rfl
    exact hnot hj
  · by_cases hj : j = i
    · subst hj
      simp
    · simp [hj, hmem j]
  · rw [hsnoc] at hx
    rcases List.mem_append.mp hx with hold | hx
    · have hxi : x.1 ≠ i := by
        rintro rfl
        exact hi _ (hresults x hold)
      simp only [Function.update_of_ne hxi]
      exact hresults x hold
    · obtain rfl := List.mem_singleton.mp hx
      simp only [Function.update_self]

/-- A step after which the same threads have returned keeps the serial order. -/
theorem Serializable.goesOn {c : Config ι Op Res Res σ} (h : Serializable sem start c) {i : ι}
    {o : Op} {next : Res → Prog Op Res Res} (hi : ∀ b, c.threads i ≠ .ret b) :
    Serializable sem start ⟨Function.update c.threads i (.call o next), c.state⟩ := by
  obtain ⟨order, hnodup, hmem, hstate, hresults⟩ := h
  refine ⟨order, hnodup, fun j => ?_, hstate, fun x hx => ?_⟩
  · by_cases hj : j = i
    · subst hj
      simp [hmem, hi]
    · simp [hj, hmem j]
  · have hxi : x.1 ≠ i := by
      rintro rfl
      exact hi _ (hresults x hx)
    simp only [Function.update_of_ne hxi]
    exact hresults x hx

/-- Where a thread stands: before its check, before a write that some answer decides for, or at
its end. -/
def Stands (check : ι → Op) (write : ι → Res → Op ⊕ Res) (c : Config ι Op Res Res σ) : Prop :=
  ∀ i, c.threads i = checkThen (check i) (write i) ∨
    (∃ r o, write i r = .inl o ∧ c.threads i = perform o) ∨ ∃ a, c.threads i = .ret a

theorem Stands.update {c : Config ι Op Res Res σ} (h : Stands check write c) {i : ι}
    {p : Prog Op Res Res} {s : σ}
    (hp : (∃ r o, write i r = .inl o ∧ p = perform o) ∨ ∃ a, p = .ret a) :
    Stands check write ⟨Function.update c.threads i p, s⟩ := by
  intro j
  by_cases hj : j = i
  · subst hj
    simp only [Function.update_self]
    exact Or.inr hp
  · simp only [Function.update_of_ne hj]
    exact h j

variable (hread : ∀ i s, (sem (check i) () s).1 = s)
  (hwrite : ∀ i r, write i r ≠ .inl (check i))
  (hstart : ∀ i, start.threads i = checkThen (check i) (write i))
include hread hstart

omit [DecidableEq ι] in
/-- A thread alone: its check leaves the state, and decides. -/
theorem alone_checkThen (i : ι) (s : σ) :
    alone sem (start.threads i) s =
      match write i (sem (check i) () s).2 with
      | .inl o => sem o () s
      | .inr a => (s, a) := by
  rw [hstart, checkThen, alone, hread]
  split
  · rfl
  · rfl

include hwrite

/-- The step lemma: a check returns or goes on to its write, and a valid write returns as the
thread would have alone. -/
theorem step_serializable {c : Config ι Op Res Res σ} (hstands : Stands check write c)
    (hserial : Serializable sem start c) {i : ι} {o : Op} {next : Res → Prog Op Res Res}
    (hi : c.threads i = .call o next) (hvalid : StillValid sem check write ⟨i, o, (), c⟩) :
    Stands check write (step sem c (i, ())) ∧ Serializable sem start (step sem c (i, ())) := by
  have hnot : ∀ b, c.threads i ≠ .ret b := fun b hb => by rw [hi] at hb; cases hb
  have halone := alone_checkThen hread hstart i c.state
  rw [step_call hi]
  rcases hstands i with hfirst | ⟨r, o', ho', hsecond⟩ | ⟨a, hret⟩
  · -- The check: the state stays.
    rw [hi] at hfirst
    obtain ⟨rfl, rfl⟩ := Prog.call.inj hfirst
    simp only [hread]
    cases hdecides : write i (sem (check i) () c.state).2 with
    | inl o' =>
        exact ⟨hstands.update (Or.inl ⟨_, o', hdecides, rfl⟩), hserial.goesOn hnot⟩
    | inr a =>
        rw [hdecides] at halone
        exact ⟨hstands.update (Or.inr ⟨a, rfl⟩), hserial.returns hnot halone⟩
  · -- The write: the check would decide for it here too.
    rw [hi] at hsecond
    obtain ⟨rfl, rfl⟩ := Prog.call.inj hsecond
    have hdecides := hvalid.resolve_left fun hc => hwrite i r (hc ▸ ho')
    simp only at hdecides
    rw [hdecides] at halone
    exact ⟨hstands.update (Or.inr ⟨_, rfl⟩), hserial.returns hnot halone⟩
  · rw [hi] at hret
    cases hret

/-- **A run whose writes are valid is serializable.** -/
theorem serializable_of_valid
    (hvalid : ∀ p ∈ performed sem start schedule, Stands check write p.before →
      StillValid sem check write p) :
    Stands check write (run sem start schedule) ∧
      Serializable sem start (run sem start schedule) := by
  have hinit : Serializable sem start start := by
    refine ⟨[], List.nodup_nil, fun i => ?_, rfl, fun x hx => absurd hx List.not_mem_nil⟩
    simp [hstart, checkThen]
  exact (run_invariant (I := fun c => Stands check write c ∧ Serializable sem start c)
    (A := StillValid sem check write)
    (fun c i e o next hi hc hv => step_serializable hread hwrite hstart hc.1 hc.2 hi hv)
    ⟨fun i => Or.inl (hstart i), hinit⟩ fun p hp hI => hvalid p hp hI.1).1

end Valid

end Interleave
