import NBDataBase.Lib.Serial

/-!
# Owned — threads that own their parts of the state

A state that is seen in parts, and threads each of whose operations is about the parts of its own
thread: what it answers and leaves there depends on those parts alone, and it leaves the others.

* `Prog.All`: every operation of a program.  `Prog.expand`: a program with its operations replaced
  by programs.
* `Local`: an operation about some of the parts.
* `run_outcome`: no schedule changes what a thread comes to.
* `run_unowned`: a part that no thread owns stays.
* `run_serial`: a run in which all have returned is, part by part, that of the threads one after
  another, in whatever order.
-/

namespace Prog

variable {Op Op' Res α β : Type}

/-- Every operation that the program may perform has the property. -/
def All (P : Op → Prop) : Prog Op Res α → Prop
  | .ret _ => True
  | .call o next => P o ∧ ∀ r, (next r).All P

/-- The program with its operations replaced by programs. -/
def expand (f : Op → Prog Op' Res Res) : Prog Op Res α → Prog Op' Res α
  | .ret a => .ret a
  | .call o next => f o >>= fun r => (next r).expand f

variable {P : Op → Prop} {P' : Op' → Prop}

theorem All.bind {p : Prog Op Res α} {f : α → Prog Op Res β} (hp : p.All P)
    (hf : ∀ a, (f a).All P) : (p >>= f).All P := by
  induction p with
  | ret a => exact hf a
  | call o next ih => exact ⟨hp.1, fun r => ih r (hp.2 r)⟩

theorem All.expand {f : Op → Prog Op' Res Res} (hf : ∀ o, P o → (f o).All P')
    {p : Prog Op Res α} (hp : p.All P) : (p.expand f).All P' := by
  induction p with
  | ret a => trivial
  | call o next ih => exact (hf o hp.1).bind fun r => ih r (hp.2 r)

end Prog

namespace Interleave

variable {ι π τ Op Op' Res α β σ : Type}

section

variable {sem : Meaning Op Res Unit σ} {sem' : Meaning Op' Res Unit σ}

theorem alone_bind (p : Prog Op Res α) (f : α → Prog Op Res β) (s : σ) :
    alone sem (p >>= f) s = alone sem (f (alone sem p s).2) (alone sem p s).1 := by
  induction p generalizing s with
  | ret a => rfl
  | call o next ih => exact ih _ _

/-- Operations replaced by what they come to alone. -/
theorem alone_expand {f : Op → Prog Op' Res Res}
    (hf : ∀ o s, alone sem' (f o) s = sem o () s) (p : Prog Op Res α) (s : σ) :
    alone sem' (p.expand f) s = alone sem p s := by
  induction p generalizing s with
  | ret a => rfl
  | call o next ih =>
      rw [Prog.expand, alone_bind, hf, ih]
      rfl

/-- Threads that come to the same alone come to the same one after another. -/
theorem serial_congr {threads : ι → Prog Op Res α} {threads' : ι → Prog Op' Res α}
    (h : ∀ i s, alone sem (threads i) s = alone sem' (threads' i) s) (s : σ) (order : List ι) :
    serial sem threads s order = serial sem' threads' s order := by
  rw [serial, serial]
  congr 1
  funext r i
  rw [h]

end

/-! ### Parts -/

/-- The states have the same in the parts. -/
def Agree (view : π → σ → τ) (P : π → Prop) (s s' : σ) : Prop := ∀ p, P p → view p s = view p s'

/-- An operation about the parts `P`, where the invariant `I` holds. -/
structure Local (sem : Meaning Op Res Unit σ) (I : σ → Prop) (view : π → σ → τ) (P : π → Prop)
    (o : Op) : Prop where
  keeps : ∀ s, I s → I (sem o () s).1
  /-- It leaves the other parts. -/
  frame : ∀ s, I s → ∀ p, ¬ P p → view p (sem o () s).1 = view p s
  /-- Its answer and what it leaves depend on these parts. -/
  agree : ∀ s s', I s → I s' → Agree view P s s' →
    (sem o () s).2 = (sem o () s').2 ∧ Agree view P (sem o () s).1 (sem o () s').1

section Alone

variable {sem : Meaning Op Res Unit σ} {I : σ → Prop} {view : π → σ → τ} {P : π → Prop}
  {p : Prog Op Res α} {s s' : σ}

theorem alone_keeps (hp : p.All (Local sem I view P)) (hs : I s) : I (alone sem p s).1 := by
  induction p generalizing s with
  | ret a => exact hs
  | call o next ih => exact ih _ (hp.2 _) (hp.1.keeps s hs)

theorem alone_frame (hp : p.All (Local sem I view P)) (hs : I s) {x : π} (hx : ¬ P x) :
    view x (alone sem p s).1 = view x s := by
  induction p generalizing s with
  | ret a => rfl
  | call o next ih =>
      exact (ih _ (hp.2 _) (hp.1.keeps s hs)).trans (hp.1.frame s hs x hx)

/-- A program about parts that agree comes to the same there. -/
theorem alone_agree (hp : p.All (Local sem I view P)) (hs : I s) (hs' : I s')
    (h : Agree view P s s') :
    (alone sem p s).2 = (alone sem p s').2 ∧ Agree view P (alone sem p s).1 (alone sem p s').1 := by
  induction p generalizing s s' with
  | ret a => exact ⟨rfl, h⟩
  | call o next ih =>
      obtain ⟨hanswer, hparts⟩ := hp.1.agree s s' hs hs' h
      rw [alone, alone, hanswer]
      exact ih _ (hp.2 _) (hp.1.keeps s hs) (hp.1.keeps s' hs') hparts

end Alone

/-! ### Threads -/

section Owned

variable {sem : Meaning Op Res Unit σ} {I : σ → Prop} {view : π → σ → τ}
  {mine : ι → π → Prop} {c : Config ι Op Res α σ}

/-- The threads keep to their own parts, in a state of the invariant. -/
structure Owned (sem : Meaning Op Res Unit σ) (I : σ → Prop) (view : π → σ → τ)
    (mine : ι → π → Prop) (c : Config ι Op Res α σ) : Prop where
  threads : ∀ i, (c.threads i).All (Local sem I view (mine i))
  state : I c.state

variable [DecidableEq ι]

theorem Owned.step (h : Owned sem I view mine c) (x : ι × Unit) :
    Owned sem I view mine (step sem c x) := by
  obtain ⟨i, e⟩ := x
  cases hi : c.threads i with
  | ret a => rwa [step_ret hi]
  | call o next =>
      have hall := h.threads i
      rw [hi] at hall
      rw [step_call hi]
      refine ⟨fun j => ?_, hall.1.keeps _ h.state⟩
      by_cases hj : j = i
      · subst hj
        simpa using hall.2 _
      · simpa [hj] using h.threads j

theorem Owned.run (h : Owned sem I view mine c) (schedule : List (ι × Unit)) :
    Owned sem I view mine (run sem c schedule) := by
  induction schedule generalizing c with
  | nil => exact h
  | cons x schedule ih => exact ih (h.step x)

variable (hdisjoint : ∀ i j x, mine i x → mine j x → i = j)
include hdisjoint

/-- The step lemma: whoever steps, a thread that goes on alone comes to the same. -/
theorem step_outcome (h : Owned sem I view mine c) (x : ι × Unit) (i : ι) :
    (alone sem ((step sem c x).threads i) (step sem c x).state).2 =
        (alone sem (c.threads i) c.state).2 ∧
      Agree view (mine i) (alone sem ((step sem c x).threads i) (step sem c x).state).1
        (alone sem (c.threads i) c.state).1 := by
  obtain ⟨j, e⟩ := x
  cases hj : c.threads j with
  | ret a =>
      rw [step_ret hj]
      exact ⟨rfl, fun _ _ => rfl⟩
  | call o next =>
      by_cases hij : i = j
      · subst hij
        rw [step_call hj, hj]
        simp only [Function.update_self]
        exact ⟨rfl, fun _ _ => rfl⟩
      · have hall := h.threads j
        rw [hj] at hall
        have hthread : (Interleave.step sem c (j, e)).threads i = c.threads i := by
          rw [step_call hj]
          exact Function.update_of_ne hij _ _
        have hstate : (Interleave.step sem c (j, e)).state = (sem o () c.state).1 := by
          rw [step_call hj]
        rw [hthread, hstate]
        -- the parts of the one are not those of the other
        exact alone_agree (h.threads i) (hall.1.keeps _ h.state) h.state fun y hy =>
          hall.1.frame _ h.state y fun hy' => hij (hdisjoint i j y hy hy')

/-- **No schedule changes what a thread comes to**: from wherever it leads, the thread alone
returns what it would have returned alone from the start, and leaves the same in its parts. -/
theorem run_outcome (h : Owned sem I view mine c) (schedule : List (ι × Unit)) (i : ι) :
    (alone sem ((run sem c schedule).threads i) (run sem c schedule).state).2 =
        (alone sem (c.threads i) c.state).2 ∧
      Agree view (mine i) (alone sem ((run sem c schedule).threads i) (run sem c schedule).state).1
        (alone sem (c.threads i) c.state).1 := by
  induction schedule generalizing c with
  | nil => exact ⟨rfl, fun _ _ => rfl⟩
  | cons x schedule ih =>
      obtain ⟨hanswer, hparts⟩ := ih (h.step x)
      obtain ⟨hanswer', hparts'⟩ := step_outcome hdisjoint h x i
      exact ⟨hanswer.trans hanswer', fun y hy => (hparts y hy).trans (hparts' y hy)⟩

/-- A thread that has returned. -/
theorem run_returned (h : Owned sem I view mine c) {schedule : List (ι × Unit)} {i : ι} {a : α}
    (hi : (run sem c schedule).threads i = .ret a) :
    a = (alone sem (c.threads i) c.state).2 ∧
      Agree view (mine i) (run sem c schedule).state (alone sem (c.threads i) c.state).1 := by
  have houtcome := run_outcome hdisjoint h schedule i
  rw [hi] at houtcome
  exact houtcome

omit hdisjoint in
/-- **A part that no thread owns** stays. -/
theorem run_unowned (h : Owned sem I view mine c) (schedule : List (ι × Unit)) {x : π}
    (hx : ∀ i, ¬ mine i x) : view x (run sem c schedule).state = view x c.state := by
  induction schedule generalizing c with
  | nil => rfl
  | cons y schedule ih =>
      refine (ih (h.step y)).trans ?_
      obtain ⟨i, e⟩ := y
      cases hi : c.threads i with
      | ret a => rw [step_ret hi]
      | call o next =>
          have hall := h.threads i
          rw [hi] at hall
          rw [step_call hi]
          exact hall.1.frame _ h.state x (hx i)

/-! ### One after another -/

/-- The threads of an order, one after another. -/
theorem serial_outcome (h : Owned sem I view mine c) {order : List ι} (hnodup : order.Nodup) :
    I (serial sem c.threads c.state order).1 ∧
      (∀ i ∈ order, Agree view (mine i) (serial sem c.threads c.state order).1
        (alone sem (c.threads i) c.state).1) ∧
      (∀ x, (∀ i ∈ order, ¬ mine i x) →
        view x (serial sem c.threads c.state order).1 = view x c.state) ∧
      (serial sem c.threads c.state order).2 =
        order.map fun i => (i, (alone sem (c.threads i) c.state).2) := by
  induction order using List.reverseRecOn with
  | nil => exact ⟨h.state, fun i hi => absurd hi List.not_mem_nil, fun x _ => rfl, rfl⟩
  | append_singleton order i ih =>
      obtain ⟨hnodup', -, hnot⟩ := List.nodup_append.mp hnodup
      obtain ⟨hI, hin, hout, hanswers⟩ := ih hnodup'
      -- the thread finds its parts as they were at the start
      have hfound : Agree view (mine i) (serial sem c.threads c.state order).1 c.state :=
        fun x hx => hout x fun j hj hjx => hnot j hj i (by simp) (hdisjoint j i x hjx hx)
      obtain ⟨hanswer, hparts⟩ := alone_agree (h.threads i) hI h.state hfound
      rw [serial_snoc]
      refine ⟨alone_keeps (h.threads i) hI, fun j hj x hx => ?_, fun x hx => ?_, ?_⟩
      · by_cases hij : j = i
        · subst hij
          exact hparts x hx
        · have hmem : j ∈ order := by simpa [hij] using hj
          exact (alone_frame (h.threads i) hI fun hx' => hij (hdisjoint j i x hx hx')).trans
            (hin j hmem x hx)
      · exact (alone_frame (h.threads i) hI (hx i (by simp))).trans
          (hout x fun j hj => hx j (by simp [hj]))
      · rw [hanswers, hanswer, List.map_append]
        rfl

/-- **Any order will do**: when all threads have returned, every part is as the threads leave it one
after another, and each has returned what it returns then. -/
theorem run_serial (h : Owned sem I view mine c) {schedule : List (ι × Unit)}
    (hreturned : ∀ i, ∃ a, (run sem c schedule).threads i = .ret a) {order : List ι}
    (hnodup : order.Nodup) (hall : ∀ i, i ∈ order) :
    (∀ x, view x (run sem c schedule).state = view x (serial sem c.threads c.state order).1) ∧
      ∀ y ∈ (serial sem c.threads c.state order).2, (run sem c schedule).threads y.1 =
        .ret y.2 := by
  obtain ⟨-, hin, hout, hanswers⟩ := serial_outcome hdisjoint h hnodup
  refine ⟨fun x => ?_, fun y hy => ?_⟩
  · by_cases howned : ∃ i, mine i x
    · obtain ⟨i, hix⟩ := howned
      obtain ⟨a, ha⟩ := hreturned i
      exact ((run_returned hdisjoint h ha).2 x hix).trans (hin i (hall i) x hix).symm
    · have hnone : ∀ i, ¬ mine i x := fun i hi => howned ⟨i, hi⟩
      exact (run_unowned h schedule hnone).trans (hout x fun i _ => hnone i).symm
  · rw [hanswers] at hy
    obtain ⟨i, -, rfl⟩ := List.mem_map.mp hy
    obtain ⟨a, ha⟩ := hreturned i
    rw [ha, (run_returned hdisjoint h ha).1]

end Owned

end Interleave
