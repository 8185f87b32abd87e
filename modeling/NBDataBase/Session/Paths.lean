import Mathlib.Data.List.Induction
import NBDataBase.Session.DataBase

/-!
# Session — configuring a path

Runs of `setupDBWithDBPath:`, `setupDBWithDBPath:isEncrypted:`, `openDB` and `closeDB` on one
object, where opening a file succeeds.

* `TakesEffect`: what such a run owes its setup calls.
* `Takes`: the condition on the state a setup call meets.  The path is not the very object that
  is set when the database is force-closed, and while the database is open it names the file
  that is open.
* `takesEffect_iff`: a run pays exactly when every setup call meets the condition.

A setup call that does not meet it reaches the early return on pointer equality, which leaves
`isForceClosed` set, or leaves `isOpened` and the queue as they are for the new path:
`paths_not_taken`.
-/

namespace NBDataBase.Session

/-- A call of a run. -/
inductive PathCall (Path : Type) where
  | setupDBWithDBPath (dbPath : Path)
  | setupDBWithDBPath_isEncrypted (dbPath : Path) (isEncrypted : Bool)
  | openDB
  | closeDB
  deriving DecidableEq, Repr

namespace PathCall

/-- The path a setup call is given. -/
def path {Path : Type} : PathCall Path → Option Path
  | .setupDBWithDBPath p | .setupDBWithDBPath_isEncrypted p _ => some p
  | .openDB | .closeDB => none

end PathCall

section

variable {Path Model : Type} [DecidableEq Path] (text : Path → String) (needEncrypted : Bool)
  (classes : List Model)

/-! ### Runs -/

def PathCall.step (self : DataBase Path Model) : PathCall Path → DataBase Path Model
  | .setupDBWithDBPath p => self.setupDBWithDBPath p
  | .setupDBWithDBPath_isEncrypted p b => self.setupDBWithDBPath_isEncrypted p b
  | .openDB => (self.openDB text needEncrypted .queue).1
  | .closeDB => self.closeDB

/-- The object after a run, from one on which `classes` are registered. -/
def runCalls (calls : List (PathCall Path)) : DataBase Path Model :=
  calls.foldl (PathCall.step text needEncrypted)
    { (DataBase.init : DataBase Path Model) with registedClassesArray := classes }

/-- `openDB` returns `YES`, and the queue then used is open on `p`. -/
def OpensOn (self : DataBase Path Model) (p : Path) : Prop :=
  (self.openDB text needEncrypted .queue).2.2 = true ∧
    ∃ q, (self.openDB text needEncrypted .queue).1.fmdbQueue = some q ∧
      text q.path = text p ∧ q.db.isSome = true

/-- What a run owes its setup calls, in every state it reaches. -/
structure TakesEffect (calls : List (PathCall Path)) : Prop where
  /-- The path of the last setup call is opened by the next `openDB`, and stays so. -/
  opens : ∀ before c after p, before ++ c :: after <+: calls → c.path = some p → text p ≠ "" →
    (∀ x ∈ after, x = .openDB) →
      OpensOn text needEncrypted (runCalls text needEncrypted classes (before ++ c :: after)) p
  /-- A force-closed flag does not outlive a later setup. -/
  flag : ∀ before c after, before ++ c :: after <+: calls → c.path ≠ none → .closeDB ∉ after →
    (runCalls text needEncrypted classes (before ++ c :: after)).isForceClosed = false
  /-- While the object is open, its queue is on its path. -/
  queue : ∀ before, before <+: calls →
    (runCalls text needEncrypted classes before).isOpened = true →
      ∃ q d, (runCalls text needEncrypted classes before).fmdbQueue = some q ∧
        (runCalls text needEncrypted classes before).dbPath = some d ∧ text q.path = text d

/-- The condition on the state in which a setup call is given `p`. -/
def Takes (self : DataBase Path Model) (p : Path) : Prop :=
  (self.dbPath = some p → self.isForceClosed = false) ∧
    (self.isOpened = true → ∃ q, self.fmdbQueue = some q ∧ text q.path = text p)

/-- Every setup call of a run meets the condition. -/
def SetupsTake (calls : List (PathCall Path)) : Prop :=
  ∀ before c p, before ++ [c] <+: calls → c.path = some p →
    Takes text (runCalls text needEncrypted classes before) p

end

/-! ### `openDB` -/

section Opened

variable {Path Model : Type} {text : Path → String} {needEncrypted : Bool}
  {self : DataBase Path Model} {p : Path}

/-- An open object is not force-closed, and its queue is open on its path. -/
def Sound (text : Path → String) (self : DataBase Path Model) : Prop :=
  self.isOpened = true → self.isForceClosed = false ∧
    ∃ q d, self.fmdbQueue = some q ∧ self.dbPath = some d ∧ text q.path = text d ∧
      q.db.isSome = true

/-- What `openDB` leaves, where opening succeeds. -/
theorem openDB_cases (text : Path → String) (needEncrypted : Bool) (self : DataBase Path Model) :
    (self.openDB text needEncrypted .queue).1 = self ∨
      ∃ path, self.isForceClosed = false ∧ self.dbPath = some path ∧
        (self.openDB text needEncrypted .queue).1 = { self with
          isOpened := true
          fmdbQueue := some ⟨path, some ⟨needEncrypted⟩⟩ } := by
  cases ho : self.isOpened
  · cases hp : self.opensPath text with
    | none => rw [DataBase.openDB_refused ho hp]; exact Or.inl rfl
    | some path =>
        obtain ⟨hf, hd, -⟩ := DataBase.opensPath_eq_some.mp hp
        rw [DataBase.openDB_queue ho hp]
        exact Or.inr ⟨path, hf, hd, rfl⟩
  · rw [DataBase.openDB_opened ho]; exact Or.inl rfl

theorem openDB_keeps (text : Path → String) (needEncrypted : Bool) (self : DataBase Path Model) :
    (self.openDB text needEncrypted .queue).1.dbPath = self.dbPath ∧
      (self.openDB text needEncrypted .queue).1.isForceClosed = self.isForceClosed := by
  rcases openDB_cases text needEncrypted self with h | ⟨path, -, -, h⟩
  · rw [h]; exact ⟨rfl, rfl⟩
  · rw [h]; exact ⟨rfl, rfl⟩

/-- The next `openDB` of a sound object that is not force-closed opens its path. -/
theorem Sound.opensOn (hs : Sound text self) (hf : self.isForceClosed = false)
    (hp : self.dbPath = some p) (hne : text p ≠ "") : OpensOn text needEncrypted self p := by
  unfold OpensOn
  cases ho : self.isOpened
  · rw [DataBase.openDB_queue ho (DataBase.opensPath_eq_some.mpr ⟨hf, hp, hne⟩)]
    exact ⟨rfl, _, rfl, rfl, rfl⟩
  · obtain ⟨-, q, d, hq, hd, htext, hdb⟩ := hs ho
    obtain rfl : d = p := Option.some.inj (hd.symm.trans hp)
    rw [DataBase.openDB_opened ho]
    exact ⟨rfl, q, hq, htext, hdb⟩

end Opened

/-! ### One call -/

section Step

variable {Path Model : Type} [DecidableEq Path] {text : Path → String} {needEncrypted : Bool}
  {self : DataBase Path Model} {c : PathCall Path} {p : Path}

variable (text needEncrypted self) in
/-- What a setup call does: nothing for the object already set. -/
theorem step_setup (h : c.path = some p) :
    (self.dbPath = some p ∧ c.step text needEncrypted self = self) ∨
      (self.dbPath ≠ some p ∧
        c.step text needEncrypted self =
          { self with dbPath := some p, isForceClosed := false }) := by
  have hstep : c.step text needEncrypted self = self.setupDBWithDBPath p := by
    cases c with
    | setupDBWithDBPath p' => cases h; rfl
    | setupDBWithDBPath_isEncrypted p' b => cases h; rfl
    | openDB => cases h
    | closeDB => cases h
  rw [hstep]
  by_cases hp : self.dbPath = some p
  · exact Or.inl ⟨hp, if_pos hp⟩
  · exact Or.inr ⟨hp, if_neg hp⟩

theorem step_setup_dbPath (h : c.path = some p) :
    (c.step text needEncrypted self).dbPath = some p := by
  rcases step_setup text needEncrypted self h with
    ⟨hp, hs⟩ | ⟨-, hs⟩
  · rw [hs, hp]
  · rw [hs]

variable (text needEncrypted self) in
theorem step_setup_isOpened (h : c.path = some p) :
    (c.step text needEncrypted self).isOpened = self.isOpened ∧
      (c.step text needEncrypted self).fmdbQueue = self.fmdbQueue := by
  rcases step_setup text needEncrypted self h with
    ⟨-, hs⟩ | ⟨-, hs⟩
  · rw [hs]; exact ⟨rfl, rfl⟩
  · rw [hs]; exact ⟨rfl, rfl⟩

/-- The step lemma: a call keeps soundness, when a setup call meets its condition. -/
theorem Sound.step (hs : Sound text self) (hc : ∀ p, c.path = some p → Takes text self p) :
    Sound text (c.step text needEncrypted self) := by
  intro hopen
  cases hpath : c.path with
  | some p =>
      -- A setup call: the object was open before it.
      obtain ⟨hkeep, hqueue⟩ := step_setup_isOpened text needEncrypted self hpath
      rw [hkeep] at hopen
      obtain ⟨hf, q, d, hq, -, -, hdb⟩ := hs hopen
      obtain ⟨q', hq', htext⟩ := (hc p hpath).2 hopen
      obtain rfl : q = q' := Option.some.inj (hq.symm.trans hq')
      refine ⟨?_, q, p, by rw [hqueue]; exact hq, step_setup_dbPath hpath, htext, hdb⟩
      rcases step_setup text needEncrypted self hpath with
        ⟨-, h⟩ | ⟨-, h⟩
      · rw [h]; exact hf
      · rw [h]
  | none =>
      cases c with
      | setupDBWithDBPath p => cases hpath
      | setupDBWithDBPath_isEncrypted p b => cases hpath
      | openDB =>
          simp only [PathCall.step] at hopen ⊢
          rcases openDB_cases text needEncrypted self with h | ⟨path, hf, hd, h⟩
          · rw [h] at hopen ⊢
            exact hs hopen
          · rw [h]
            exact ⟨hf, _, path, rfl, hd, rfl, rfl⟩
      | closeDB => cases hopen

/-- A call other than `closeDB` does not force the object closed. -/
theorem step_isForceClosed (hf : self.isForceClosed = false) (hc : c ≠ .closeDB) :
    (c.step text needEncrypted self).isForceClosed = false := by
  cases hpath : c.path with
  | some p =>
      rcases step_setup text needEncrypted self hpath with
        ⟨-, h⟩ | ⟨-, h⟩
      · rw [h]; exact hf
      · rw [h]
  | none =>
      cases c with
      | setupDBWithDBPath p => cases hpath
      | setupDBWithDBPath_isEncrypted p b => cases hpath
      | openDB => exact (openDB_keeps text needEncrypted self).2.trans hf
      | closeDB => exact absurd rfl hc

end Step

/-! ### Runs of calls -/

section Run

variable {Path Model : Type} [DecidableEq Path] {text : Path → String} {needEncrypted : Bool}
  {classes : List Model} {calls : List (PathCall Path)}

theorem runCalls_snoc (before : List (PathCall Path)) (c : PathCall Path) :
    runCalls text needEncrypted classes (before ++ [c]) =
      c.step text needEncrypted (runCalls text needEncrypted classes before) := by
  rw [runCalls, List.foldl_append]; rfl

/-- The run lemma: every state a run reaches is sound. -/
theorem SetupsTake.sound (h : SetupsTake text needEncrypted classes calls) :
    ∀ before, before <+: calls → Sound text (runCalls text needEncrypted classes before) := by
  intro before
  induction before using List.reverseRecOn with
  | nil => intro _ hopen; cases hopen
  | append_singleton before c ih =>
      intro hpre
      rw [runCalls_snoc]
      exact (ih ((List.prefix_append before [c]).trans hpre)).step fun p hp => h before c p hpre hp

/-- From a setup call to the next `closeDB` the object is not force-closed. -/
theorem SetupsTake.isForceClosed (h : SetupsTake text needEncrypted classes calls)
    {before : List (PathCall Path)} {c : PathCall Path} (hc : c.path ≠ none) :
    ∀ after, before ++ c :: after <+: calls → .closeDB ∉ after →
      (runCalls text needEncrypted classes (before ++ c :: after)).isForceClosed = false := by
  intro after
  induction after using List.reverseRecOn with
  | nil =>
      intro hpre _
      obtain ⟨p, hp⟩ := Option.ne_none_iff_exists'.mp hc
      rw [runCalls_snoc]
      rcases step_setup text needEncrypted (runCalls text needEncrypted classes before) hp with
        ⟨hsame, hs⟩ | ⟨-, hs⟩
      · rw [hs]; exact (h before c p hpre hp).1 hsame
      · rw [hs]
  | append_singleton after x ih =>
      intro hpre hclose
      rw [List.mem_append, List.mem_singleton, not_or] at hclose
      have hpre' : before ++ c :: after <+: calls :=
        List.IsPrefix.trans ⟨[x], by simp⟩ hpre
      have hsnoc : before ++ c :: (after ++ [x]) = (before ++ c :: after) ++ [x] := by simp
      rw [hsnoc, runCalls_snoc]
      exact step_isForceClosed (ih hpre' hclose.1) (Ne.symm hclose.2)

/-- `openDB` keeps the path that is set. -/
theorem runCalls_dbPath {before : List (PathCall Path)} {c : PathCall Path} {p : Path}
    (hc : c.path = some p) {after : List (PathCall Path)} (ha : ∀ x ∈ after, x = .openDB) :
    (runCalls text needEncrypted classes (before ++ c :: after)).dbPath = some p := by
  induction after using List.reverseRecOn with
  | nil => rw [runCalls_snoc]; exact step_setup_dbPath hc
  | append_singleton after x ih =>
      obtain rfl := ha x (by simp)
      have hsnoc : before ++ c :: (after ++ [.openDB]) = (before ++ c :: after) ++ [.openDB] := by
        simp
      rw [hsnoc, runCalls_snoc]
      exact (openDB_keeps text needEncrypted _).1.trans
        (ih fun y hy => ha y (List.mem_append_left _ hy))

/-- **When configuring a path takes effect.** -/
theorem takesEffect_iff (text : Path → String) (needEncrypted : Bool) (classes : List Model)
    (calls : List (PathCall Path)) :
    TakesEffect text needEncrypted classes calls ↔
      SetupsTake text needEncrypted classes calls := by
  constructor
  · intro h before c p hpre hc
    have hrun : runCalls text needEncrypted classes (before ++ [c]) = _ := runCalls_snoc before c
    constructor
    · -- The object already set: the call returns early, and the flag is the one before it.
      intro hsame
      have hflag := h.flag before c [] hpre (by rw [hc]; exact Option.some_ne_none p) (by simp)
      rcases step_setup text needEncrypted (runCalls text needEncrypted classes before) hc with
        ⟨-, hs⟩ | ⟨hne, -⟩
      · rw [hrun, hs] at hflag; exact hflag
      · exact absurd hsame hne
    · -- The queue is not touched, and must now be on `p`.
      intro hopen
      obtain ⟨hkeep, hqueue⟩ :=
        step_setup_isOpened text needEncrypted (runCalls text needEncrypted classes before) hc
      obtain ⟨q, d, hq, hd, htext⟩ := h.queue (before ++ [c]) hpre
        (by rw [hrun, hkeep]; exact hopen)
      rw [hrun, step_setup_dbPath hc] at hd
      obtain rfl := Option.some.inj hd
      rw [hrun, hqueue] at hq
      exact ⟨q, hq, htext⟩
  · intro h
    refine ⟨?_, fun before c after hpre hc hclose => h.isForceClosed hc after hpre hclose, ?_⟩
    · intro before c after p hpre hc hne hafter
      have hclose : PathCall.closeDB ∉ after := by
        intro hmem
        cases hafter _ hmem
      exact (h.sound _ hpre).opensOn
        (h.isForceClosed (by rw [hc]; exact Option.some_ne_none p) after hpre hclose)
        (runCalls_dbPath hc hafter) hne
    · intro before hpre hopen
      obtain ⟨-, q, d, hq, hd, htext, -⟩ := h.sound before hpre hopen
      exact ⟨q, d, hq, hd, htext⟩

/-- The same string object after a `closeDB` leaves the database closed for good; another path
while the database is open leaves the queue on the first file. -/
theorem paths_not_taken :
    ¬ TakesEffect id false ([] : List String)
        [.setupDBWithDBPath "a.db", .openDB, .closeDB, .setupDBWithDBPath "a.db"] ∧
      ¬ TakesEffect id false ([] : List String)
        [.setupDBWithDBPath "a.db", .openDB, .setupDBWithDBPath "b.db"] := by
  constructor
  · intro h
    have hflag := h.flag [.setupDBWithDBPath "a.db", .openDB, .closeDB]
      (.setupDBWithDBPath "a.db") [] (List.prefix_refl _) (by decide +kernel) (by decide +kernel)
    revert hflag
    decide +kernel
  · intro h
    obtain ⟨q, d, hq, hd, htext⟩ := h.queue
      [.setupDBWithDBPath "a.db", .openDB, .setupDBWithDBPath "b.db"] (List.prefix_refl _)
      (by decide +kernel)
    have hqueue : q = ⟨"a.db", some ⟨false⟩⟩ := Option.some.inj (hq.symm.trans (by decide +kernel))
    have hpath : d = "b.db" := Option.some.inj (hd.symm.trans (by decide +kernel))
    subst hqueue hpath
    revert htext
    decide +kernel

end Run

end NBDataBase.Session
