import Mathlib.Data.List.Induction
import Mathlib.Logic.Function.Basic
import NBDataBase.Session.DataBase

/-!
# Session — the shared objects of the subclasses

`+sharedInstance` keeps its object in a static of the method that implements it.  There are two
implementations, `NBDataBase`'s and `NBPrivateDataBase`'s; a subclass that does not override it
runs the one it inherits (`Implementation`), and is the receiver of the `[[self alloc] init]`
in it only when it is the first to ask.

* `Process`: the objects, and the two statics.
* `SharedCall`: `sharedInstance` of a class, and the messages sent to what it returns.
* `Separate`: what a run owes its classes: each gets an object of its own, no call changes the
  object of another, and a model class gets its table in the databases it was registered
  through.
* `separate_iff`: a run pays exactly when no two of its classes inherit one implementation.

Two that do share the object of the first of them: `subclasses_share`.
-/

namespace NBDataBase.Session

/-- The two methods `+sharedInstance`, each with a static of its own. -/
inductive Implementation where
  | nbDataBase | nbPrivateDataBase
  deriving DecidableEq, Repr

/-- An object of a subclass. -/
structure Object (Class Path Model : Type) where
  isa : Class
  fields : DataBase Path Model

/-- The objects of a process, and the references its statics hold. -/
structure Process (Class Path Model : Type) where
  objects : List (Object Class Path Model)
  statics : Implementation → Option ℕ

/-- A call on the shared object of the class `d`. -/
inductive SharedCall (Class Path Model : Type) where
  | sharedInstance (d : Class)
  | addRegisteClass (d : Class) (modelClass : Model)
  | setupDBWithDBPath (d : Class) (dbPath : Path)
  | openDB (d : Class) (o : Opening)
  | closeDB (d : Class)
  deriving DecidableEq, Repr

/-- The class a call is made on. -/
def SharedCall.receiver {Class Path Model : Type} : SharedCall Class Path Model → Class
  | .sharedInstance d | .addRegisteClass d _ | .setupDBWithDBPath d _ | .openDB d _
  | .closeDB d => d

namespace Process

variable {Class Path Model : Type} (inherits : Class → Implementation)

def launch : Process Class Path Model := ⟨[], fun _ => none⟩

/-! ### From the source -/

/-- `+sharedInstance`: the block of `dispatch_once` runs on the first call, whoever makes it. -/
def sharedInstance (d : Class) (p : Process Class Path Model) : ℕ × Process Class Path Model :=
  match p.statics (inherits d) with
  | some r => (r, p)
  | none =>
      (p.objects.length,
        { objects := p.objects ++ [⟨d, DataBase.init⟩]
          statics := Function.update p.statics (inherits d) (some p.objects.length) })

/-- A message to the object at `r`. -/
def send (r : ℕ) (f : DataBase Path Model → DataBase Path Model)
    (p : Process Class Path Model) : Process Class Path Model :=
  { p with objects := p.objects.modify r fun o => { o with fields := f o.fields } }

/-- `+updateTableInDB` of the class `d`: the queue and the registered classes are those of its
shared object. -/
def updateTableInDB (d : Class) (p : Process Class Path Model) :
    Process Class Path Model × List (Entry Path Model) :=
  let (r, p) := sharedInstance inherits d p
  match p.objects[r]? with
  | none => (p, [])
  | some o => (p.send r fun _ => o.fields.updateTableInDB.1, o.fields.updateTableInDB.2)

variable (text : Path → String) (needEncrypted : Bool)

/-- `-openDB` of the object at `r`, which updates the tables with `[self class]`. -/
def openDB (o : Opening) (r : ℕ) (p : Process Class Path Model) :
    Process Class Path Model × List (Entry Path Model) :=
  match p.objects[r]? with
  | none => (p, [])
  | some self =>
      if self.fields.isOpened then (p, [])
      else
        match self.fields.opensPath text with
        | none => (p, [])
        | some path =>
            let (fields, success) := self.fields.openQueue needEncrypted o path
            let p := p.send r fun _ => fields
            let (p, entries) := if success then p.updateTableInDB inherits self.isa else (p, [])
            (p.send r fun fields => { fields with isOpened := success }, entries)

variable [DecidableEq Path]

/-- A call, with the statements it executes. -/
def step (p : Process Class Path Model) (c : SharedCall Class Path Model) :
    Process Class Path Model × List (Entry Path Model) :=
  let (r, p) := sharedInstance inherits c.receiver p
  match c with
  | .sharedInstance _ => (p, [])
  | .addRegisteClass _ modelClass => (p.send r (·.addRegisteClass modelClass), [])
  | .setupDBWithDBPath _ dbPath => (p.send r (·.setupDBWithDBPath dbPath), [])
  | .openDB _ o => p.openDB inherits text needEncrypted o r
  | .closeDB _ => (p.send r DataBase.closeDB, [])

/-- The process after a run. -/
def run (calls : List (SharedCall Class Path Model)) : Process Class Path Model :=
  calls.foldl (fun p c => (p.step inherits text needEncrypted c).1) launch

/-- The object `[d sharedInstance]` returns. -/
def shared (d : Class) (p : Process Class Path Model) : Option (Object Class Path Model) :=
  (sharedInstance inherits d p).2.objects[(sharedInstance inherits d p).1]?

end Process

/-! ### What a run owes its classes -/

section Owed

variable {Class Path Model : Type} [DecidableEq Path] (inherits : Class → Implementation)
  (text : Path → String) (needEncrypted : Bool)

/-- The fields that are public: path, flags and registered classes. -/
def DataBase.visible (self : DataBase Path Model) : Option Path × Bool × Bool × List Model :=
  (self.dbPath, self.isOpened, self.isForceClosed, self.registedClassesArray)

structure Separate (calls : List (SharedCall Class Path Model)) : Prop where
  /-- `[d sharedInstance]` is an instance of `d`. -/
  own : ∀ before c, before ++ [c] <+: calls →
    ((Process.run inherits text needEncrypted before).shared inherits c.receiver).map
      Object.isa = some c.receiver
  /-- Two classes never get the same object. -/
  apart : ∀ before c before' c', before ++ [c] <+: calls → before' ++ [c'] <+: calls →
    c.receiver ≠ c'.receiver →
      ((Process.run inherits text needEncrypted before).sharedInstance inherits c.receiver).1 ≠
        ((Process.run inherits text needEncrypted before').sharedInstance inherits c'.receiver).1
  /-- A call leaves the objects of the other classes as they are. -/
  frame : ∀ before c e, before ++ [c] <+: calls → e ∈ calls → e.receiver ≠ c.receiver →
    ((Process.run inherits text needEncrypted (before ++ [c])).shared inherits e.receiver).map
        (·.fields.visible) =
      ((Process.run inherits text needEncrypted before).shared inherits e.receiver).map
        (·.fields.visible)
  /-- A table is made only in the database its model class was registered through. -/
  tables : ∀ before c modelClass path db, before ++ [c] <+: calls →
    .executed path db (.table modelClass) ∈
        ((Process.run inherits text needEncrypted before).step inherits text needEncrypted c).2 →
      .addRegisteClass c.receiver modelClass ∈ before

/-- No two classes of a run inherit one implementation. -/
def OneEach (calls : List (SharedCall Class Path Model)) : Prop :=
  ∀ c ∈ calls, ∀ c' ∈ calls, inherits c.receiver = inherits c'.receiver →
    c.receiver = c'.receiver

end Owed

/-! ### The shared object of a class -/

namespace Process

section

variable {Class Path Model : Type} {inherits : Class → Implementation} {d e : Class}
  {p : Process Class Path Model} {r : ℕ} {f : DataBase Path Model → DataBase Path Model}

/-- Every static holds an object of a class that inherits its method. -/
def Sound (inherits : Class → Implementation) (p : Process Class Path Model) : Prop :=
  ∀ i r, p.statics i = some r → ∃ o, p.objects[r]? = some o ∧ inherits o.isa = i

theorem sharedInstance_again (h : p.statics (inherits d) = some r) :
    sharedInstance inherits d p = (r, p) := by
  unfold sharedInstance
  split
  · next r' h' => rw [h] at h'; rw [Option.some.inj h']
  · next h' => rw [h] at h'; cases h'

theorem sharedInstance_first (h : p.statics (inherits d) = none) :
    sharedInstance inherits d p = (p.objects.length,
      { objects := p.objects ++ [⟨d, DataBase.init⟩]
        statics := Function.update p.statics (inherits d) (some p.objects.length) }) := by
  unfold sharedInstance
  split
  · next r' h' => rw [h] at h'; cases h'
  · rfl

variable (inherits) in
theorem sharedInstance_statics (d : Class) (p : Process Class Path Model) :
    (sharedInstance inherits d p).2.statics (inherits d) =
      some (sharedInstance inherits d p).1 := by
  cases h : p.statics (inherits d) with
  | some r => rw [sharedInstance_again h]; exact h
  | none => rw [sharedInstance_first h]; exact Function.update_self _ _ _

/-- A static that is set stays as it is, and so do the objects. -/
theorem sharedInstance_keeps {i : Implementation} {o : Object Class Path Model}
    (hs : p.statics i = some r) (ho : p.objects[r]? = some o) :
    (sharedInstance inherits d p).2.statics i = some r ∧
      (sharedInstance inherits d p).2.objects[r]? = some o := by
  cases h : p.statics (inherits d) with
  | some r' => rw [sharedInstance_again h]; exact ⟨hs, ho⟩
  | none =>
      rw [sharedInstance_first h]
      have hi : i ≠ inherits d := by
        rintro rfl
        rw [hs] at h
        cases h
      have hr : r < p.objects.length := (List.getElem?_eq_some_iff.mp ho).1
      exact ⟨(Function.update_of_ne hi _ _).trans hs, (List.getElem?_append_left hr).trans ho⟩

theorem Sound.sharedInstance (hp : Sound inherits p) (d : Class) :
    Sound inherits (sharedInstance inherits d p).2 := by
  intro i r hr
  cases h : p.statics (inherits d) with
  | some r' => rw [sharedInstance_again h] at hr ⊢; exact hp i r hr
  | none =>
      rw [sharedInstance_first h] at hr ⊢
      dsimp only at hr ⊢
      by_cases hi : i = inherits d
      · subst hi
        rw [Function.update_self] at hr
        obtain rfl := Option.some.inj hr
        exact ⟨⟨d, DataBase.init⟩, by simp, rfl⟩
      · rw [Function.update_of_ne hi] at hr
        obtain ⟨o, ho, hisa⟩ := hp i r hr
        have hlt : r < p.objects.length := (List.getElem?_eq_some_iff.mp ho).1
        exact ⟨o, (List.getElem?_append_left hlt).trans ho, hisa⟩

@[simp] theorem send_statics : (p.send r f).statics = p.statics := rfl

theorem send_self {o : Object Class Path Model} (h : p.objects[r]? = some o) :
    (p.send r f).objects[r]? = some ⟨o.isa, f o.fields⟩ := by
  simp [send, h]

theorem send_of_ne {r' : ℕ} (h : r ≠ r') : (p.send r f).objects[r']? = p.objects[r']? := by
  simp [send, h]

/-- Two messages to one object are one. -/
theorem send_send (g : DataBase Path Model → DataBase Path Model) :
    (p.send r f).send r g = p.send r fun fields => g (f fields) := by
  simp only [send, List.modify_modify_eq]
  rfl

theorem Sound.send (hp : Sound inherits p) : Sound inherits (p.send r f) := by
  intro i r' hr'
  obtain ⟨o, ho, hisa⟩ := hp i r' hr'
  by_cases h : r = r'
  · subst h
    exact ⟨_, send_self ho, hisa⟩
  · exact ⟨o, by rw [send_of_ne h]; exact ho, hisa⟩

/-- The object a class gets: that of the static, or a new one. -/
theorem shared_eq (d : Class) (p : Process Class Path Model) : p.shared inherits d =
    match p.statics (inherits d) with
    | some r => p.objects[r]?
    | none => some ⟨d, DataBase.init⟩ := by
  unfold shared
  split
  · next r h => rw [sharedInstance_again h]
  · next h => rw [sharedInstance_first h]; simp

/-- A message does to an object what it does to its fields. -/
theorem send_congr {o : Object Class Path Model} {g : DataBase Path Model → DataBase Path Model}
    (ho : p.objects[r]? = some o) (h : f o.fields = g o.fields) : p.send r f = p.send r g := by
  have hobj : p.objects.modify r (fun o => { o with fields := f o.fields }) =
      p.objects.modify r (fun o => { o with fields := g o.fields }) := by
    refine List.ext_getElem? fun i => ?_
    rw [List.getElem?_modify, List.getElem?_modify]
    by_cases hi : r = i
    · subst hi
      simp [ho, h]
    · simp [hi]
  rw [send, hobj, send]

theorem send_id : p.send r (fun fields => fields) = p := by
  have hobj : p.objects.modify r (fun o => { o with fields := o.fields }) = p.objects :=
    List.modify_id r p.objects
  rw [send, hobj]

end

/-! ### One call -/

section

variable {Class Path Model : Type} {inherits : Class → Implementation} {text : Path → String}
  {needEncrypted : Bool} {p : Process Class Path Model} {r : ℕ}

theorem updateTableInDB_eq {self : Object Class Path Model} (ho : p.objects[r]? = some self)
    (hs : p.statics (inherits self.isa) = some r) :
    p.updateTableInDB inherits self.isa =
      (p.send r fun _ => self.fields.updateTableInDB.1, self.fields.updateTableInDB.2) := by
  simp only [updateTableInDB, sharedInstance_again hs, ho]

/-- The object at `r` is the shared object of its own class: on it, `openDB` of the process is
`openDB` of the object. -/
theorem openDB_eq {self : Object Class Path Model} (o : Opening) (ho : p.objects[r]? = some self)
    (hs : p.statics (inherits self.isa) = some r) :
    p.openDB inherits text needEncrypted o r =
      (p.send r fun _ => (self.fields.openDB text needEncrypted o).1,
        (self.fields.openDB text needEncrypted o).2.1) := by
  have hkeep : (p.send r fun _ => self.fields) = p :=
    (send_congr (g := fun fields => fields) ho rfl).trans send_id
  simp only [openDB, ho]
  cases hopen : self.fields.isOpened
  · cases hpath : self.fields.opensPath text with
    | none =>
        rw [DataBase.openDB_refused hopen hpath]
        simp only [Bool.false_eq_true, if_false, hkeep]
    | some path =>
        simp only [Bool.false_eq_true, if_false]
        have hself := send_self (f := fun _ => (self.fields.openQueue needEncrypted o path).1) ho
        cases hopened : (self.fields.openQueue needEncrypted o path).2
        · -- The queue could not be opened.
          simp [DataBase.openDB, hopen, hpath, hopened, send_send]
        · -- `[self class]` is the class of the object, whose shared object it is.
          have hupdate := updateTableInDB_eq hself hs
          rw [if_pos rfl, hupdate]
          simp [DataBase.openDB, hopen, hpath, hopened, send_send]
  · rw [DataBase.openDB_opened hopen, hkeep]
    simp only [if_true]

variable [DecidableEq Path]

/-- What a call does to the shared object of its class. -/
def act (text : Path → String) (needEncrypted : Bool) (c : SharedCall Class Path Model)
    (fields : DataBase Path Model) : DataBase Path Model × List (Entry Path Model) :=
  match c with
  | .sharedInstance _ => (fields, [])
  | .addRegisteClass _ modelClass => (fields.addRegisteClass modelClass, [])
  | .setupDBWithDBPath _ dbPath => (fields.setupDBWithDBPath dbPath, [])
  | .openDB _ o =>
      ((fields.openDB text needEncrypted o).1, (fields.openDB text needEncrypted o).2.1)
  | .closeDB _ => (fields.closeDB, [])

variable (text needEncrypted) in
/-- The step lemma: a call acts on the shared object of its class, and on nothing else. -/
theorem step_eq (hp : Sound inherits p) (c : SharedCall Class Path Model) :
    ∃ o, p.shared inherits c.receiver = some o ∧
      p.step inherits text needEncrypted c =
        ((sharedInstance inherits c.receiver p).2.send (sharedInstance inherits c.receiver p).1
          fun _ => (act text needEncrypted c o.fields).1,
            (act text needEncrypted c o.fields).2) := by
  have hs := sharedInstance_statics inherits c.receiver p
  obtain ⟨o, ho, hisa⟩ := hp.sharedInstance c.receiver _ _ hs
  refine ⟨o, ho, ?_⟩
  rw [← hisa] at hs
  cases c with
  | sharedInstance d =>
      have hkeep := (send_congr (f := fun _ => o.fields) (g := fun fields => fields) ho rfl).trans
        send_id
      simp only [step, act, hkeep]
  | addRegisteClass d modelClass =>
      exact Prod.ext (send_congr (f := (·.addRegisteClass modelClass)) (g := fun _ => _) ho rfl) rfl
  | setupDBWithDBPath d dbPath =>
      exact Prod.ext (send_congr (f := (·.setupDBWithDBPath dbPath)) (g := fun _ => _) ho rfl) rfl
  | openDB d opening =>
      exact openDB_eq opening ho hs
  | closeDB d =>
      exact Prod.ext (send_congr (f := DataBase.closeDB) (g := fun _ => _) ho rfl) rfl

theorem Sound.step (hp : Sound inherits p) (c : SharedCall Class Path Model) :
    Sound inherits (p.step inherits text needEncrypted c).1 := by
  obtain ⟨o, -, hstep⟩ := step_eq text needEncrypted hp c
  rw [hstep]
  exact (hp.sharedInstance c.receiver).send

/-- A call sets the static its class inherits, and keeps those that are set. -/
theorem step_statics (hp : Sound inherits p) (c : SharedCall Class Path Model) :
    (p.step inherits text needEncrypted c).1.statics =
      (sharedInstance inherits c.receiver p).2.statics := by
  obtain ⟨o, -, hstep⟩ := step_eq text needEncrypted hp c
  rw [hstep, send_statics]

variable (text needEncrypted) in
/-- After a call its class has the object the call acted on. -/
theorem step_shared_self (hp : Sound inherits p) (c : SharedCall Class Path Model) :
    ∃ o, p.shared inherits c.receiver = some o ∧
      (p.step inherits text needEncrypted c).1.shared inherits c.receiver =
        some ⟨o.isa, (act text needEncrypted c o.fields).1⟩ := by
  obtain ⟨o, ho, hstep⟩ := step_eq text needEncrypted hp c
  refine ⟨o, ho, ?_⟩
  rw [hstep, shared_eq, send_statics, sharedInstance_statics]
  exact send_self ho

/-- The frame lemma: a call leaves alone the object of a class that inherits another method. -/
theorem step_shared_of_ne (hp : Sound inherits p) {c : SharedCall Class Path Model} {e : Class}
    (he : inherits e ≠ inherits c.receiver) :
    (p.step inherits text needEncrypted c).1.shared inherits e = p.shared inherits e := by
  obtain ⟨o, -, hstep⟩ := step_eq text needEncrypted hp c
  have hs := sharedInstance_statics inherits c.receiver p
  rw [hstep, shared_eq, send_statics, shared_eq]
  cases h : p.statics (inherits e) with
  | some r =>
      obtain ⟨o', ho', -⟩ := hp _ _ h
      obtain ⟨hkeep, hobj⟩ := sharedInstance_keeps (d := c.receiver) h ho'
      rw [hkeep]
      -- Two statics never hold one reference: the object at it would inherit both methods.
      have hne : (sharedInstance inherits c.receiver p).1 ≠ r := by
        rintro rfl
        obtain ⟨x, hx, hxe⟩ := hp.sharedInstance c.receiver _ _ hkeep
        obtain ⟨y, hy, hyc⟩ := hp.sharedInstance c.receiver _ _ hs
        obtain rfl : x = y := Option.some.inj (hx.symm.trans hy)
        exact he (hxe.symm.trans hyc)
      exact (send_of_ne hne).trans (hobj.trans ho'.symm)
  | none =>
      cases hc : p.statics (inherits c.receiver) with
      | some r => rw [sharedInstance_again hc, h]
      | none =>
          rw [sharedInstance_first hc]
          simp only [Function.update_of_ne he, h]

/-- Only `addRegisteClass:` adds a registered class. -/
theorem mem_act_registed {c : SharedCall Class Path Model} {fields : DataBase Path Model}
    {modelClass : Model}
    (h : modelClass ∈ (act text needEncrypted c fields).1.registedClassesArray) :
    modelClass ∈ fields.registedClassesArray ∨ c = .addRegisteClass c.receiver modelClass := by
  cases c with
  | sharedInstance d => exact Or.inl h
  | addRegisteClass d m =>
      rcases List.mem_append.mp h with h | h
      · exact Or.inl h
      · obtain rfl := List.mem_singleton.mp h
        exact Or.inr rfl
  | setupDBWithDBPath d dbPath =>
      simp only [act, DataBase.setupDBWithDBPath] at h
      split at h <;> exact Or.inl h
  | openDB d o =>
      simp only [act] at h
      rw [DataBase.openDB_registed] at h
      exact Or.inl h
  | closeDB d => exact Or.inl h

/-- Only `openDB` makes tables, and those of the classes registered on its object. -/
theorem registed_of_table {c : SharedCall Class Path Model} {fields : DataBase Path Model}
    {modelClass : Model} {path : Path} {db : FMDatabase}
    (h : .executed path db (.table modelClass) ∈ (act text needEncrypted c fields).2) :
    modelClass ∈ fields.registedClassesArray := by
  cases c with
  | sharedInstance d => cases h
  | addRegisteClass d m => cases h
  | setupDBWithDBPath d dbPath => cases h
  | openDB d o => exact DataBase.registed_of_table h
  | closeDB d => cases h

end

/-! ### Runs of calls -/

section

variable {Class Path Model : Type} [DecidableEq Path] {inherits : Class → Implementation}
  {text : Path → String} {needEncrypted : Bool} {calls before : List (SharedCall Class Path Model)}

theorem run_snoc (before : List (SharedCall Class Path Model)) (c : SharedCall Class Path Model) :
    run inherits text needEncrypted (before ++ [c]) =
      ((run inherits text needEncrypted before).step inherits text needEncrypted c).1 := by
  rw [run, List.foldl_append]; rfl

theorem run_sound (calls : List (SharedCall Class Path Model)) :
    Sound inherits (run inherits text needEncrypted calls) := by
  induction calls using List.reverseRecOn with
  | nil => intro i r h; cases h
  | append_singleton before c ih => rw [run_snoc]; exact ih.step c

variable (inherits text needEncrypted) in
/-- A call fixes the reference its class gets for the rest of the run. -/
theorem run_statics {c : SharedCall Class Path Model} (h : before ++ [c] <+: calls) :
    (run inherits text needEncrypted calls).statics (inherits c.receiver) =
      some (sharedInstance inherits c.receiver (run inherits text needEncrypted before)).1 := by
  obtain ⟨after, rfl⟩ := h
  induction after using List.reverseRecOn with
  | nil =>
      rw [List.append_nil, run_snoc, step_statics (run_sound before)]
      exact sharedInstance_statics inherits _ _
  | append_singleton after x ih =>
      rw [← List.append_assoc, run_snoc, step_statics (run_sound _)]
      obtain ⟨o, ho, -⟩ := run_sound (before ++ [c] ++ after) _ _ ih
      exact (sharedInstance_keeps ih ho).1

/-- Two classes that inherit one method have one object once one of them was asked. -/
theorem step_shared_eq {p : Process Class Path Model} (hp : Sound inherits p)
    {c : SharedCall Class Path Model} {e : Class} (he : inherits e = inherits c.receiver) :
    (p.step inherits text needEncrypted c).1.shared inherits e =
      (p.step inherits text needEncrypted c).1.shared inherits c.receiver := by
  rw [shared_eq, shared_eq, he, step_statics hp, sharedInstance_statics]

/-- The object a class gets is its own, or one of an earlier caller that inherits its method. -/
theorem run_isa (calls : List (SharedCall Class Path Model)) :
    ∀ e o, (run inherits text needEncrypted calls).shared inherits e = some o →
      o.isa = e ∨ ∃ c ∈ calls, c.receiver = o.isa ∧ inherits o.isa = inherits e := by
  induction calls using List.reverseRecOn with
  | nil =>
      intro e o h
      exact Or.inl (congrArg Object.isa (Option.some.inj h.symm))
  | append_singleton before c ih =>
      intro e o h
      rw [run_snoc] at h
      by_cases he : inherits e = inherits c.receiver
      · obtain ⟨x, hx, hself⟩ := step_shared_self text needEncrypted (run_sound before) c
        rw [step_shared_eq (run_sound before) he, hself] at h
        obtain rfl := Option.some.inj h
        rcases ih _ _ hx with hisa | ⟨c', hc', hrec, hinh⟩
        · exact Or.inr ⟨c, by simp, hisa.symm, by rw [he]; exact congrArg inherits hisa⟩
        · exact Or.inr ⟨c', List.mem_append_left _ hc', hrec, hinh.trans he.symm⟩
      · rw [step_shared_of_ne (run_sound before) he] at h
        rcases ih e o h with hisa | ⟨c', hc', hrec, hinh⟩
        · exact Or.inl hisa
        · exact Or.inr ⟨c', List.mem_append_left _ hc', hrec, hinh⟩

end

end Process

section

variable {Class Path Model : Type} [DecidableEq Path] {inherits : Class → Implementation}
  {text : Path → String} {needEncrypted : Bool} {calls before : List (SharedCall Class Path Model)}

open Process

omit [DecidableEq Path] in
theorem mem_of_isPrefix {c : SharedCall Class Path Model} (h : before ++ [c] <+: calls) :
    c ∈ calls :=
  h.subset (List.mem_append_right _ List.mem_cons_self)

/-- Where each class of the run has its method to itself, its object is its own. -/
theorem OneEach.isa (h : OneEach inherits calls) (hpre : before <+: calls)
    {e : SharedCall Class Path Model} (he : e ∈ calls) {o : Object Class Path Model}
    (ho : (run inherits text needEncrypted before).shared inherits e.receiver = some o) :
    o.isa = e.receiver := by
  rcases run_isa before _ _ ho with hisa | ⟨c, hc, hrec, hinh⟩
  · exact hisa
  · rw [← hrec] at hinh ⊢
    exact h c (hpre.subset hc) e he hinh

/-- The classes registered on the object of a class were registered through that class. -/
theorem OneEach.registed (h : OneEach inherits calls) (before : List (SharedCall Class Path Model))
    (hpre : before <+: calls) : ∀ e ∈ calls, ∀ o,
      (run inherits text needEncrypted before).shared inherits e.receiver = some o →
        ∀ m ∈ o.fields.registedClassesArray, .addRegisteClass e.receiver m ∈ before := by
  induction before using List.reverseRecOn with
  | nil =>
      intro e _ o ho m hm
      obtain rfl := Option.some.inj ho
      cases hm
  | append_singleton before c ih =>
      intro e he o ho m hm
      have hpre' := (List.prefix_append before [c]).trans hpre
      have hc := mem_of_isPrefix hpre
      rw [run_snoc] at ho
      by_cases hrec : e.receiver = c.receiver
      · obtain ⟨x, hx, hself⟩ := step_shared_self text needEncrypted (run_sound before) c
        rw [hrec, hself] at ho
        obtain rfl := Option.some.inj ho
        rw [hrec]
        rcases mem_act_registed hm with hm | hadd
        · exact List.mem_append_left _ (ih hpre' c hc x hx m hm)
        · rw [← hadd]
          exact List.mem_append_right _ List.mem_cons_self
      · have hne : inherits e.receiver ≠ inherits c.receiver := fun hi => hrec (h e he c hc hi)
        rw [step_shared_of_ne (run_sound before) hne] at ho
        exact List.mem_append_left _ (ih hpre' e he o ho m hm)

/-- **When the databases of a run's classes do not interfere.** -/
theorem separate_iff (inherits : Class → Implementation) (text : Path → String)
    (needEncrypted : Bool) (calls : List (SharedCall Class Path Model)) :
    Separate inherits text needEncrypted calls ↔ OneEach inherits calls := by
  constructor
  · -- Two classes of one implementation would get one reference.
    intro h c hc c' hc' hinh
    by_contra hne
    obtain ⟨before, after, rfl⟩ := List.append_of_mem hc
    obtain ⟨before', after', heq⟩ := List.append_of_mem hc'
    have hpre : before ++ [c] <+: before ++ c :: after := ⟨after, by simp⟩
    have hpre' : before' ++ [c'] <+: before ++ c :: after := ⟨after', by rw [heq]; simp⟩
    refine h.apart before c before' c' hpre hpre' hne (Option.some.inj ?_)
    rw [← run_statics inherits text needEncrypted hpre,
      ← run_statics inherits text needEncrypted hpre', hinh]
  · intro h
    refine ⟨?_, ?_, ?_, ?_⟩
    · intro before c hpre
      obtain ⟨o, ho, -⟩ := step_eq text needEncrypted (run_sound before) c
      rw [ho, Option.map_some,
        h.isa ((List.prefix_append before [c]).trans hpre) (mem_of_isPrefix hpre) ho]
    · intro before c before' c' hpre hpre' hne hsame
      have hs := run_statics inherits text needEncrypted hpre
      have hs' := run_statics inherits text needEncrypted hpre'
      rw [hsame] at hs
      obtain ⟨o, ho, hisa⟩ := run_sound calls _ _ hs
      obtain ⟨o', ho', hisa'⟩ := run_sound calls _ _ hs'
      obtain rfl : o = o' := Option.some.inj (ho.symm.trans ho')
      exact hne (h c (mem_of_isPrefix hpre) c' (mem_of_isPrefix hpre') (hisa.symm.trans hisa'))
    · intro before c e hpre he hne
      have hinh : inherits e.receiver ≠ inherits c.receiver :=
        fun hi => hne (h e he c (mem_of_isPrefix hpre) hi)
      rw [run_snoc, step_shared_of_ne (run_sound before) hinh]
    · intro before c modelClass path db hpre hmem
      obtain ⟨o, ho, hstep⟩ := step_eq text needEncrypted (run_sound before) c
      rw [hstep] at hmem
      exact h.registed before ((List.prefix_append before [c]).trans hpre) c (mem_of_isPrefix hpre)
        o ho modelClass (registed_of_table hmem)

/-- Two subclasses of `NBDataBase`: the second gets the object of the first, and a model class
registered through it gets its table in the database of the first. -/
theorem subclasses_share :
    let calls : List (SharedCall String String String) :=
      [.setupDBWithDBPath "NBCommonDataBase" "common.db",
        .addRegisteClass "NBLogDataBase" "Log", .openDB "NBCommonDataBase" .queue]
    let inherits := fun _ : String => Implementation.nbDataBase
    ¬ Separate inherits id false calls ∧
      ((run inherits id false calls).shared inherits "NBLogDataBase").map Object.isa =
        some "NBCommonDataBase" ∧
      .executed "common.db" ⟨false⟩ (.table "Log") ∈
        ((run inherits id false (calls.take 2)).step inherits id false
          (.openDB "NBCommonDataBase" .queue)).2 := by
  intro calls inherits
  refine ⟨?_, by decide +kernel, by decide +kernel⟩
  intro h
  have hown := h.own [.setupDBWithDBPath "NBCommonDataBase" "common.db"]
    (.addRegisteClass "NBLogDataBase" "Log") ⟨[.openDB "NBCommonDataBase" .queue], rfl⟩
  revert hown
  decide +kernel

end

end NBDataBase.Session
