import Mathlib.Data.List.Induction

/-!
# Fallback — what is left of a run that is cut off

A state holds what it is now and may hold a fallback, to which it goes back when the run is cut off.
A step keeps the fallback, drops it, or sets it to what the state is now, if there is none.

* `System`: such steps.  `durable`: what is left of a state.
* `fallback_kept`: a fallback that no step drops is kept.
* `durable_start`: what is left of a run is what a first part of it led to; the rest begins with a
  step that sets a fallback, and no step of the rest drops it.
-/

namespace Fallback

/-- What a step does to the fallback. -/
inductive Effect where
  | keep | drop | set
  deriving DecidableEq, Repr

/-- The fallback after a step. -/
def Effect.after {σ : Type} (fallback : Option σ) (now : σ) : Effect → Option σ
  | keep => fallback
  | drop => none
  | set => fallback.or (some now)

structure System (ι τ σ : Type) where
  step : ι → τ → τ
  now : τ → σ
  fallback : τ → Option σ
  effect : ι → τ → Effect
  fallback_step : ∀ i t, fallback (step i t) = (effect i t).after (fallback t) (now t)

namespace System

variable {ι τ σ : Type} (S : System ι τ σ)

def run (is : List ι) (t : τ) : τ := is.foldl (fun t i => S.step i t) t

/-- What is left of a state. -/
def durable (t : τ) : σ := (S.fallback t).getD (S.now t)

variable {S} {is js : List ι} {i : ι} {t : τ} {s : σ}

theorem run_append : S.run (is ++ js) t = S.run js (S.run is t) := List.foldl_append

theorem run_concat : S.run (is ++ [i]) t = S.step i (S.run is t) := by
  rw [run_append]
  rfl

/-- No step of the run drops the fallback. -/
def Undropped (S : System ι τ σ) (is : List ι) (t : τ) : Prop :=
  ∀ js i ks, is = js ++ i :: ks → S.effect i (S.run js t) ≠ .drop

theorem Undropped.init (h : S.Undropped (is ++ [i]) t) : S.Undropped is t := by
  intro js j ks his
  exact h js j (ks ++ [i]) (by rw [his, List.append_assoc]; rfl)

theorem Undropped.concat (h : S.Undropped is t) (hi : S.effect i (S.run is t) ≠ .drop) :
    S.Undropped (is ++ [i]) t := by
  intro js j ks his
  induction ks using List.reverseRecOn with
  | nil =>
      obtain ⟨rfl, hj⟩ := List.append_inj' his rfl
      obtain rfl := List.head_eq_of_cons_eq hj
      exact hi
  | append_singleton ks k =>
      have hsplit : is ++ [i] = (js ++ j :: ks) ++ [k] := by rw [his]; simp
      exact h js j ks (List.append_inj' hsplit rfl).1

/-- **A fallback that no step drops** is kept. -/
theorem fallback_kept (hs : S.fallback t = some s) (h : S.Undropped is t) :
    S.fallback (S.run is t) = some s := by
  induction is using List.reverseRecOn with
  | nil => exact hs
  | append_singleton is i ih =>
      rw [run_concat, S.fallback_step, ih h.init]
      cases heffect : S.effect i (S.run is t) with
      | keep => rfl
      | drop => exact absurd heffect (h is i [] rfl)
      | set => rfl

/-- **What is left of a run** is what a first part of it led to. -/
theorem durable_start (is : List ι) (ht : S.fallback t = none) : ∃ kept lost, is = kept ++ lost ∧
    S.durable (S.run is t) = S.now (S.run kept t) ∧
    (∀ i ∈ lost.head?, S.effect i (S.run kept t) = .set) ∧ S.Undropped lost (S.run kept t) ∧
    S.fallback (S.run kept t) = none := by
  induction is using List.reverseRecOn with
  | nil => exact ⟨[], [], rfl, by simp [durable, run, ht], by simp, by simp [Undropped], ht⟩
  | append_singleton is i ih =>
      -- a run that ends without a fallback is kept whole
      have hwhole : S.fallback (S.run (is ++ [i]) t) = none → ∃ kept lost,
          is ++ [i] = kept ++ lost ∧ S.durable (S.run (is ++ [i]) t) = S.now (S.run kept t) ∧
          (∀ i ∈ lost.head?, S.effect i (S.run kept t) = .set) ∧
          S.Undropped lost (S.run kept t) ∧ S.fallback (S.run kept t) = none := by
        intro hnone
        exact ⟨is ++ [i], [], by simp, by simp [durable, hnone], by simp, by simp [Undropped],
          hnone⟩
      obtain ⟨kept, lost, rfl, hdurable, hhead, hlost, hkept⟩ := ih
      by_cases hdrop : S.effect i (S.run (kept ++ lost) t) = .drop
      · exact hwhole (by rw [run_concat, S.fallback_step, hdrop]; rfl)
      rw [run_append] at hdrop
      cases lost with
      | nil =>
          rw [List.append_nil] at hwhole ⊢
          cases heffect : S.effect i (S.run kept t) with
          | keep => exact hwhole (by rw [run_concat, S.fallback_step, heffect]; exact hkept)
          | drop => exact absurd heffect hdrop
          | set =>
              have hset : S.fallback (S.run (kept ++ [i]) t) = some (S.now (S.run kept t)) := by
                rw [run_concat, S.fallback_step, heffect, hkept]
                rfl
              have hnil : S.Undropped [] (S.run kept t) := by simp [Undropped]
              exact ⟨kept, [i], rfl, by simp [durable, hset], by simpa using heffect,
                hnil.concat hdrop, hkept⟩
      | cons j lost =>
          have hopen : S.fallback (S.run [j] (S.run kept t)) = some (S.now (S.run kept t)) := by
            show S.fallback (S.step j (S.run kept t)) = _
            rw [S.fallback_step, hhead j rfl, hkept]
            rfl
          have hall : S.Undropped (j :: lost ++ [i]) (S.run kept t) := hlost.concat hdrop
          have hrest : S.Undropped (lost ++ [i]) (S.run [j] (S.run kept t)) := by
            intro js k ks h
            have hk := hall (j :: js) k ks (by rw [List.cons_append, h]; rfl)
            exact hk
          have hend := fallback_kept hopen hrest
          refine ⟨kept, j :: lost ++ [i], by simp, ?_, by simpa using hhead, hall, hkept⟩
          rw [durable, List.append_assoc, run_append]
          show (S.fallback (S.run (lost ++ [i]) (S.run [j] (S.run kept t)))).getD _ = _
          rw [hend]
          rfl

end System

end Fallback
