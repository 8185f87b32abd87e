import Mathlib.Data.List.Induction
import NBDataBase.Lib.Interleave
import NBDataBase.Session.DataBase

/-!
# Session — `closeDB` as a fence

Any number of threads call the public operations of one object, each a program of steps: the
`openDB` check, then the blocks on the serial queue.  `closeDB`, a setup call and
`updateTableInDB` are one step each.  The environment chooses the schedule, how opening a queue
goes, the statements a block executes and what it finds.

* `Fenced`: what a history owes `closeDB` and the key.  Nothing is executed from a `closeDB` to
  the next setup call, and where a key is needed every connection that executes something has it.
* `Admits`: the condition on the state that work on the queue meets.  The object is open, or
  never had a queue, or no key is needed and a setup call followed the last `closeDB`.
* `fenced_iff`: a run pays exactly when all its work meets the condition.
* `quiet_fenced`: it does when `closeDB` is called only while every other thread is outside its
  operations, and `updateTableInDB` only where it may be.

Work that does not meet it finds the closed queue, which opens its file again without a key:
`closed_between_check_and_block`, with `updateTableInDB` reaching the same queue with no check.
-/

namespace NBDataBase.Session
open Prog (perform)
open Interleave

/-! ### Steps -/

/-- A step of an operation. -/
inductive Step (Path : Type) where
  | openDB
  | inDatabase
  | inTransaction
  | closeDB
  | setupDBWithDBPath (dbPath : Path)
  | setupDBWithDBPath_isEncrypted (dbPath : Path) (isEncrypted : Bool)
  | updateTableInDB
  deriving DecidableEq, Repr

/-- The environment's choice: how opening goes, what a block executes and what it finds. -/
structure Choice where
  opening : Opening
  statements : List String
  found : Bool

/-- The object, and the history of the process so far. -/
structure History (Path Model : Type) where
  self : DataBase Path Model
  log : List (Entry Path Model)

section

variable {Path Model : Type} [DecidableEq Path] (text : Path → String) (needEncrypted : Bool)

def Step.act (op : Step Path) (choice : Choice) (h : History Path Model) :
    History Path Model × Bool :=
  match op with
  | .openDB =>
      let (self, entries, success) := h.self.openDB text needEncrypted choice.opening
      (⟨self, h.log ++ entries⟩, success)
  | .inDatabase =>
      let (self, entries) := h.self.inDatabase (choice.statements.map .sql)
      (⟨self, h.log ++ entries⟩, choice.found)
  | .inTransaction =>
      let (self, entries) := h.self.inTransaction (choice.statements.map .sql)
      (⟨self, h.log ++ entries⟩, choice.found)
  | .closeDB => (⟨h.self.closeDB, h.log ++ [.closeDB]⟩, true)
  | .setupDBWithDBPath p => (⟨h.self.setupDBWithDBPath p, h.log ++ [.setupDB]⟩, true)
  | .setupDBWithDBPath_isEncrypted p b =>
      (⟨h.self.setupDBWithDBPath_isEncrypted p b, h.log ++ [.setupDB]⟩, true)
  | .updateTableInDB =>
      let (self, entries) := h.self.updateTableInDB
      (⟨self, h.log ++ entries⟩, true)

end

/-! ### Operations

The parameters of an operation are the facts about its arguments that decide which steps it
takes: whether a builder returns a statement, and how many elements an array has. -/

section

variable {Path : Type}

/-- An operation with one block: `insertToDBWithModel:replace:`, `isExistsWithModel:`, the
deletions, `updateWithModel:…`, `updateTableName:…`, every `query…`, `isExistTableName:`,
`insertToDBWithModel:tableName:replace:`, `deleteTableName:`, `eraseTableName:`. -/
def oneBlock (sql : Bool) : Prog (Step Path) Bool Bool := do
  if !(← perform .openDB) then return false
  if sql then perform .inDatabase else return false

/-- `insertToDBWithModel:update:`, with `columns:` or `tableName:` too. -/
def insertToDBWithModel_update (update selectSQL updateSQL insertSQL : Bool) :
    Prog (Step Path) Bool Bool := do
  if !(← perform .openDB) then return false
  let exist ← if update then oneBlock selectSQL else pure false
  if exist then
    if updateSQL then perform .inDatabase else return false
  else oneBlock insertSQL

/-- `insertToDBWithDataArray:table:replace:`. -/
def insertToDBWithDataArray_table (models : Bool) (count : ℕ) : Prog (Step Path) Bool Bool := do
  if !(← perform .openDB) then return false
  if count = 0 || !models then return false
  if count = 1 then perform .inDatabase else perform .inTransaction

/-- `insertToDBWithDataArray:`. -/
def insertToDBWithDataArray (models : Bool) (count : ℕ) : Prog (Step Path) Bool Bool := do
  if !(← perform .openDB) then return false
  if count = 0 then return false
  insertToDBWithDataArray_table models count

/-- `insertToDBWithDataArray:tableName:replace:`. -/
def insertToDBWithDataArray_tableName (models : Bool) (count : ℕ) :
    Prog (Step Path) Bool Bool := do
  if !(← perform .openDB) then return false
  if count = 0 || !models then return false
  if count = 1 then oneBlock true else perform .inTransaction

/-- `insertToDBWithDataArray:tableName:columns:replace:`, of models, strings or numbers. -/
def insertToDBWithDataArray_columns (supported : Bool) (count : ℕ) :
    Prog (Step Path) Bool Bool := do
  if !(← perform .openDB) then return false
  if count = 0 || !supported then return false
  if count = 1 then perform .inDatabase else perform .inTransaction

/-- `insertToDBWithDataArray:tableName:columns:update:`. -/
def insertToDBWithDataArray_update (update supported : Bool) (count : ℕ) :
    Prog (Step Path) Bool Bool := do
  if !(← perform .openDB) then return false
  if count = 0 then return false
  if !update then insertToDBWithDataArray_columns supported count
  else if count = 1 then perform .inDatabase else perform .inTransaction

/-- `updateWithDataArray:table:set:` and `updateWithDataArray:tableName:set:`. -/
def updateWithDataArray (models : Bool) (count : ℕ) : Prog (Step Path) Bool Bool := do
  if count = 0 then return false
  if !(← perform .openDB) then return false
  if !models then return false
  if count = 1 then oneBlock true else perform .inTransaction

/-- `createTable:tableNames:`. -/
def createTable_tableNames : Prog (Step Path) Bool Bool := do
  if !(← perform .openDB) then return false
  perform .inTransaction

/-- `createTable:tableName:`. -/
def createTable_tableName : Prog (Step Path) Bool Bool := do
  if !(← perform .openDB) then return false
  createTable_tableNames

/-- A call of a public operation. -/
inductive Call (Path : Type) where
  | oneBlock (sql : Bool)
  | insertToDBWithModel_update (update selectSQL updateSQL insertSQL : Bool)
  | insertToDBWithDataArray_table (models : Bool) (count : ℕ)
  | insertToDBWithDataArray (models : Bool) (count : ℕ)
  | insertToDBWithDataArray_tableName (models : Bool) (count : ℕ)
  | insertToDBWithDataArray_columns (supported : Bool) (count : ℕ)
  | insertToDBWithDataArray_update (update supported : Bool) (count : ℕ)
  | updateWithDataArray (models : Bool) (count : ℕ)
  | createTable_tableNames
  | createTable_tableName
  | closeDB
  | setupDBWithDBPath (dbPath : Path)
  | setupDBWithDBPath_isEncrypted (dbPath : Path) (isEncrypted : Bool)
  | updateTableInDB

def Call.prog : Call Path → Prog (Step Path) Bool Bool
  | .oneBlock sql => Session.oneBlock sql
  | .insertToDBWithModel_update u s us is => Session.insertToDBWithModel_update u s us is
  | .insertToDBWithDataArray_table m n => Session.insertToDBWithDataArray_table m n
  | .insertToDBWithDataArray m n => Session.insertToDBWithDataArray m n
  | .insertToDBWithDataArray_tableName m n => Session.insertToDBWithDataArray_tableName m n
  | .insertToDBWithDataArray_columns s n => Session.insertToDBWithDataArray_columns s n
  | .insertToDBWithDataArray_update u s n => Session.insertToDBWithDataArray_update u s n
  | .updateWithDataArray m n => Session.updateWithDataArray m n
  | .createTable_tableNames => Session.createTable_tableNames
  | .createTable_tableName => Session.createTable_tableName
  | .closeDB => perform .closeDB
  | .setupDBWithDBPath p => perform (.setupDBWithDBPath p)
  | .setupDBWithDBPath_isEncrypted p b => perform (.setupDBWithDBPath_isEncrypted p b)
  | .updateTableInDB => perform .updateTableInDB

/-- A thread that makes calls one after another. -/
def thread : List (Call Path) → Prog (Step Path) Bool Unit
  | [] => return ()
  | call :: calls => do
      let _ ← call.prog
      thread calls

end

/-! ### What a history owes -/

section

variable {Path Model : Type}

/-- The last of the `closeDB` and setup calls of a history is a `closeDB`. -/
def closedAfter (log : List (Entry Path Model)) : Bool :=
  log.foldl
    (fun closed entry =>
      match entry with
      | .closeDB => true
      | .setupDB => false
      | .executed _ _ _ => closed)
    false

structure Fenced (needEncrypted : Bool) (log : List (Entry Path Model)) : Prop where
  /-- Nothing is executed from a `closeDB` to the next setup call. -/
  fence : ∀ before path db statement, before ++ [.executed path db statement] <+: log →
    closedAfter before = false
  /-- Where a key is needed, every connection that executes something has it. -/
  keyed : needEncrypted = true →
    ∀ path db statement, .executed path db statement ∈ log → db.keyed = true

/-- The condition on the history in which work is done on the queue. -/
def Admits (needEncrypted : Bool) (h : History Path Model) : Prop :=
  h.self.isOpened = true ∨ h.self.fmdbQueue = none ∨
    (closedAfter h.log = false ∧ needEncrypted = false)

/-- The condition on a step: blocks that execute something, and `updateTableInDB`, are
admitted. -/
def StepAdmits (needEncrypted : Bool) (op : Step Path) (choice : Choice)
    (h : History Path Model) : Prop :=
  match op with
  | .inDatabase => choice.statements = [] ∨ Admits needEncrypted h
  | .inTransaction | .updateTableInDB => Admits needEncrypted h
  | _ => True

/-- The threads before a run: one object, on which `classes` are registered. -/
def start {ι : Type} (classes : List Model) (threads : ι → List (Call Path)) :
    Config ι (Step Path) Bool Unit (History Path Model) where
  threads i := thread (threads i)
  state := ⟨{ (DataBase.init : DataBase Path Model) with registedClassesArray := classes }, []⟩

/-! ### Histories that grow -/

@[simp] theorem closedAfter_snoc (log : List (Entry Path Model)) (x : Entry Path Model) :
    closedAfter (log ++ [x]) =
      match x with
      | .closeDB => true
      | .setupDB => false
      | .executed _ _ _ => closedAfter log := by
  rw [closedAfter, List.foldl_append]; rfl

theorem fenced_nil (needEncrypted : Bool) :
    Fenced needEncrypted ([] : List (Entry Path Model)) where
  fence before path db statement h := by
    have := List.eq_nil_of_prefix_nil h
    simp at this
  keyed _ _ _ _ h := absurd h List.not_mem_nil

/-- What one more entry asks. -/
theorem fenced_snoc {needEncrypted : Bool} {log : List (Entry Path Model)}
    {x : Entry Path Model} : Fenced needEncrypted (log ++ [x]) ↔
      Fenced needEncrypted log ∧ ∀ path db statement, x = .executed path db statement →
        closedAfter log = false ∧ (needEncrypted = true → db.keyed = true) := by
  constructor
  · intro h
    refine ⟨⟨?_, ?_⟩, ?_⟩
    · intro before path db statement hpre
      exact h.fence before path db statement (hpre.trans (List.prefix_append _ _))
    · intro hneed path db statement hmem
      exact h.keyed hneed path db statement (List.mem_append_left _ hmem)
    · rintro path db statement rfl
      exact ⟨h.fence log path db statement (List.prefix_refl _),
        fun hneed => h.keyed hneed path db statement (by simp)⟩
  · rintro ⟨h, hx⟩
    constructor
    · intro before path db statement hpre
      rcases List.prefix_concat_iff.mp hpre with heq | hpre
      · obtain ⟨rfl, hlast⟩ := List.append_inj' heq rfl
        exact (hx path db statement (List.singleton_inj.mp hlast).symm).1
      · exact h.fence before path db statement hpre
    · intro hneed path db statement hmem
      rcases List.mem_append.mp hmem with hmem | hmem
      · exact h.keyed hneed path db statement hmem
      · exact (hx path db statement (List.mem_singleton.mp hmem).symm).2 hneed

/-- A `closeDB` or a setup call asks nothing. -/
theorem fenced_snoc_call {needEncrypted : Bool} {log : List (Entry Path Model)}
    {x : Entry Path Model} (hx : ∀ path db statement, x ≠ .executed path db statement) :
    Fenced needEncrypted (log ++ [x]) ↔ Fenced needEncrypted log := by
  rw [fenced_snoc]
  exact ⟨And.left, fun h => ⟨h, fun path db statement he => absurd he (hx path db statement)⟩⟩

/-- What the entries of a block on the queue `q` ask, and that they do not end a fence. -/
theorem fenced_append_executed (needEncrypted : Bool) (log : List (Entry Path Model))
    (q : FMDatabaseQueue Path) (statements : List (Statement Model)) :
    closedAfter (log ++ q.executed statements) = closedAfter log ∧
      (Fenced needEncrypted (log ++ q.executed statements) ↔ Fenced needEncrypted log ∧
        (statements = [] ∨
          closedAfter log = false ∧ (needEncrypted = true → q.database.keyed = true))) := by
  induction statements using List.reverseRecOn with
  | nil => simp [FMDatabaseQueue.executed]
  | append_singleton statements x ih =>
      obtain ⟨hclosed, hfenced⟩ := ih
      have hsplit : log ++ q.executed (statements ++ [x]) =
          (log ++ q.executed statements) ++ [.executed q.path q.database x] := by
        simp [FMDatabaseQueue.executed]
      rw [hsplit, closedAfter_snoc, fenced_snoc, hclosed, hfenced]
      refine ⟨rfl, ?_⟩
      constructor
      · rintro ⟨⟨h, -⟩, hx⟩
        exact ⟨h, Or.inr (hx _ _ _ rfl)⟩
      · rintro ⟨h, hor⟩
        have hboth := hor.resolve_left (by simp)
        refine ⟨⟨h, Or.inr hboth⟩, ?_⟩
        rintro path db statement ⟨⟩
        exact hboth

end

/-! ### One step -/

section

variable {Path Model : Type} [DecidableEq Path] {text : Path → String} {needEncrypted : Bool}
  {h : History Path Model}

/-- What holds in every state: an open object has a queue with the key it needs, one that is
not open has a closed queue or one without a key, and a fence is a force-closed flag. -/
structure Kept (needEncrypted : Bool) (h : History Path Model) : Prop where
  opened : h.self.isOpened = true → h.self.isForceClosed = false ∧
    ∃ q, h.self.fmdbQueue = some q ∧ q.database.keyed = needEncrypted
  unkeyed : h.self.isOpened = false → ∀ q, h.self.fmdbQueue = some q → q.database.keyed = false
  closed : closedAfter h.log = true → h.self.isForceClosed = true

omit [DecidableEq Path] in
/-- On a queue, work is admitted when its connection may be used. -/
theorem Kept.admits_iff (hk : Kept needEncrypted h) {q : FMDatabaseQueue Path}
    (hq : h.self.fmdbQueue = some q) : Admits needEncrypted h ↔
      closedAfter h.log = false ∧ (needEncrypted = true → q.database.keyed = true) := by
  constructor
  · rintro (hopen | hnone | ⟨hlog, hneed⟩)
    · obtain ⟨hforce, q', hq', hkey⟩ := hk.opened hopen
      obtain rfl : q = q' := Option.some.inj (hq.symm.trans hq')
      refine ⟨?_, fun hneed => hkey.trans hneed⟩
      rw [← Bool.not_eq_true]
      intro hclosed
      rw [hk.closed hclosed] at hforce
      cases hforce
    · rw [hq] at hnone; cases hnone
    · exact ⟨hlog, fun hn => absurd (hneed.symm.trans hn) Bool.false_ne_true⟩
  · rintro ⟨hlog, hkey⟩
    cases hopen : h.self.isOpened
    · have hfalse := hk.unkeyed hopen q hq
      refine Or.inr (Or.inr ⟨hlog, ?_⟩)
      rw [← Bool.not_eq_true]
      intro hneed
      exact Bool.false_ne_true (hfalse.symm.trans (hkey hneed))
    · exact Or.inl hopen

omit [DecidableEq Path] in
/-- Work on the queue: it keeps the invariant, and is fenced when it is admitted. -/
theorem Kept.inDatabase (hk : Kept needEncrypted h) (statements : List (Statement Model)) :
    Kept needEncrypted
        ⟨(h.self.inDatabase statements).1, h.log ++ (h.self.inDatabase statements).2⟩ ∧
      (Fenced needEncrypted (h.log ++ (h.self.inDatabase statements).2) ↔
        Fenced needEncrypted h.log ∧ (statements = [] ∨ Admits needEncrypted h)) := by
  cases hq : h.self.fmdbQueue with
  | none =>
      have hrun : h.self.inDatabase statements = (h.self, []) := by
        rw [DataBase.inDatabase, hq]
      rw [hrun, List.append_nil]
      exact ⟨hk, (and_iff_left (Or.inr (Or.inr (Or.inl hq)))).symm⟩
  | some q =>
      have hrun : h.self.inDatabase statements =
          ({ h.self with fmdbQueue := some q.reopened }, q.executed statements) := by
        rw [DataBase.inDatabase, hq]
      obtain ⟨hclosed, hfenced⟩ :=
        fenced_append_executed needEncrypted h.log q statements
      rw [hrun, hfenced, hk.admits_iff hq]
      refine ⟨⟨?_, ?_, ?_⟩, Iff.rfl⟩
      · intro hopen
        obtain ⟨hforce, q', hq', hkey⟩ := hk.opened hopen
        obtain rfl : q = q' := Option.some.inj (hq.symm.trans hq')
        exact ⟨hforce, q.reopened, rfl, hkey⟩
      · intro hopen q' hq'
        obtain rfl := Option.some.inj hq'
        exact hk.unkeyed hopen q hq
      · intro hlog
        rw [hclosed] at hlog
        exact hk.closed hlog

variable (text) in
omit [DecidableEq Path] in
/-- `openDB` executes only on the queue it has just opened, with the key, and only on an object
that is not force-closed. -/
theorem Kept.openDB (hk : Kept needEncrypted h) (o : Opening) :
    Kept needEncrypted ⟨(h.self.openDB text needEncrypted o).1,
        h.log ++ (h.self.openDB text needEncrypted o).2.1⟩ ∧
      (Fenced needEncrypted (h.log ++ (h.self.openDB text needEncrypted o).2.1) ↔
        Fenced needEncrypted h.log) := by
  cases hopen : h.self.isOpened
  · cases hp : h.self.opensPath text with
    | none =>
        rw [DataBase.openDB_refused hopen hp, List.append_nil]
        exact ⟨hk, Iff.rfl⟩
    | some path =>
        obtain ⟨hforce, -, -⟩ := DataBase.opensPath_eq_some.mp hp
        have hlog : closedAfter h.log = false := by
          rw [← Bool.not_eq_true]
          intro hclosed
          rw [hk.closed hclosed] at hforce
          cases hforce
        cases o with
        | queue =>
            obtain ⟨hclosed, hfenced⟩ := fenced_append_executed needEncrypted h.log
              (FMDatabaseQueue.mk path (some ⟨needEncrypted⟩))
              (.beginTransaction :: h.self.registedClassesArray.map .table ++ [.commit])
            rw [DataBase.openDB_queue hopen hp, hfenced]
            refine ⟨⟨fun _ => ⟨hforce, _, rfl, rfl⟩, fun hc => (nomatch hc), ?_⟩, ?_⟩
            · intro hc
              rw [hclosed, hlog] at hc
              cases hc
            · exact and_iff_left (Or.inr ⟨hlog, fun hneed => hneed⟩)
        | null =>
            rw [DataBase.openDB_null hopen hp, List.append_nil]
            exact ⟨⟨fun hc => (nomatch hc), fun _ q hq => (nomatch hq), hk.closed⟩, Iff.rfl⟩
        | exception =>
            rw [DataBase.openDB_exception hopen hp, List.append_nil]
            exact ⟨⟨fun hc => (nomatch hc), fun _ => hk.unkeyed hopen, hk.closed⟩, Iff.rfl⟩
  · rw [DataBase.openDB_opened hopen, List.append_nil]
    exact ⟨hk, Iff.rfl⟩

/-- A setup call ends the fence. -/
theorem Kept.setup (hk : Kept needEncrypted h) (p : Path) :
    Kept needEncrypted ⟨h.self.setupDBWithDBPath p, h.log ++ [.setupDB]⟩ := by
  have hclosed : closedAfter (h.log ++ [.setupDB]) = true → False := by
    rw [closedAfter_snoc]; exact Bool.false_ne_true
  by_cases hp : h.self.dbPath = some p
  · rw [DataBase.setupDBWithDBPath, if_pos hp]
    exact ⟨hk.opened, hk.unkeyed, fun hc => (hclosed hc).elim⟩
  · rw [DataBase.setupDBWithDBPath, if_neg hp]
    exact ⟨fun hopen => ⟨rfl, (hk.opened hopen).2⟩, hk.unkeyed, fun hc => (hclosed hc).elim⟩

omit [DecidableEq Path] in
theorem Kept.closeDB (_ : Kept needEncrypted h) :
    Kept needEncrypted ⟨h.self.closeDB, h.log ++ [.closeDB]⟩ where
  opened hc := nomatch hc
  unkeyed _ q hq := by
    obtain ⟨q', -, rfl⟩ := Option.map_eq_some_iff.mp hq
    rfl
  closed _ := rfl

/-- The step lemma: every step keeps the invariant, and is fenced when it is admitted. -/
theorem Kept.step (hk : Kept needEncrypted h) (op : Step Path) (choice : Choice) :
    Kept needEncrypted (op.act text needEncrypted choice h).1 ∧
      (Fenced needEncrypted (op.act text needEncrypted choice h).1.log ↔
        Fenced needEncrypted h.log ∧ StepAdmits needEncrypted op choice h) := by
  cases op with
  | openDB =>
      obtain ⟨hkept, hfenced⟩ := hk.openDB text choice.opening
      exact ⟨hkept, hfenced.trans (and_iff_left trivial).symm⟩
  | inDatabase =>
      obtain ⟨hkept, hfenced⟩ := hk.inDatabase (choice.statements.map .sql)
      refine ⟨hkept, hfenced.trans ?_⟩
      simp only [StepAdmits, List.map_eq_nil_iff]
  | inTransaction =>
      obtain ⟨hkept, hfenced⟩ :=
        hk.inDatabase (.beginTransaction :: choice.statements.map .sql ++ [.commit])
      refine ⟨hkept, hfenced.trans ?_⟩
      simp [StepAdmits]
  | updateTableInDB =>
      obtain ⟨hkept, hfenced⟩ :=
        hk.inDatabase (.beginTransaction :: h.self.registedClassesArray.map .table ++ [.commit])
      refine ⟨hkept, hfenced.trans ?_⟩
      simp [StepAdmits]
  | closeDB =>
      refine ⟨hk.closeDB, ?_⟩
      exact (fenced_snoc_call (by simp)).trans (and_iff_left trivial).symm
  | setupDBWithDBPath p =>
      refine ⟨hk.setup p, ?_⟩
      exact (fenced_snoc_call (by simp)).trans (and_iff_left trivial).symm
  | setupDBWithDBPath_isEncrypted p b =>
      refine ⟨hk.setup p, ?_⟩
      exact (fenced_snoc_call (by simp)).trans (and_iff_left trivial).symm

end

/-! ### Runs -/

section

variable {Path Model ι : Type} [DecidableEq Path] [DecidableEq ι] {text : Path → String}
  {needEncrypted : Bool} {schedule : List (ι × Choice)}

omit [DecidableEq Path] [DecidableEq ι] in
theorem start_kept (classes : List Model) (threads : ι → List (Call Path)) :
    Kept needEncrypted (start classes threads).state where
  opened hc := nomatch hc
  unkeyed _ _ hq := nomatch hq
  closed hc := nomatch hc

/-- The run lemma. -/
theorem Kept.run {c : Config ι (Step Path) Bool Unit (History Path Model)}
    (hk : Kept needEncrypted c.state) :
    Fenced needEncrypted (run (Step.act text needEncrypted) c schedule).state.log ↔
      Fenced needEncrypted c.state.log ∧
        ∀ p ∈ performed (Step.act text needEncrypted) c schedule,
          StepAdmits needEncrypted p.op p.choice p.before.state :=
  run_iff (I := Kept needEncrypted) (G := fun h => Fenced needEncrypted h.log)
    (fun op choice _ hk => (hk.step op choice).1) (fun op choice _ hk => (hk.step op choice).2) hk

/-- **When `closeDB` is a fence and every connection has its key.** -/
theorem fenced_iff (text : Path → String) (needEncrypted : Bool) (classes : List Model)
    (threads : ι → List (Call Path)) (schedule : List (ι × Choice)) :
    Fenced needEncrypted
        (run (Step.act text needEncrypted) (start classes threads) schedule).state.log ↔
      ∀ p ∈ performed (Step.act text needEncrypted) (start classes threads) schedule,
        StepAdmits needEncrypted p.op p.choice p.before.state :=
  (start_kept classes threads).run.trans (and_iff_right (fenced_nil needEncrypted))

/-- A `closeDB` between the check of an operation and its block: the block is executed after
it.  And `updateTableInDB` after a `closeDB` and a setup: it is executed without the key. -/
theorem closed_between_check_and_block :
    ¬ Fenced false (run (Step.act id false)
        (start ([] : List String) fun i : Bool =>
          if i then [.setupDBWithDBPath "a.db", .closeDB] else [.oneBlock true])
        [(true, ⟨.queue, [], false⟩), (false, ⟨.queue, [], false⟩),
          (true, ⟨.queue, [], false⟩),
          (false, ⟨.queue, ["DELETE FROM tb_books"], true⟩)]).state.log ∧
      ¬ Fenced true (run (Step.act id true)
        (start ([] : List String) fun _ : Unit =>
          [.setupDBWithDBPath "a.db", .oneBlock false, .closeDB, .setupDBWithDBPath "b.db",
            .updateTableInDB])
        (List.replicate 5 ((), ⟨.queue, [], false⟩))).state.log := by
  constructor
  · intro h
    have hfence := h.fence
      [.setupDB, .executed "a.db" ⟨false⟩ .beginTransaction, .executed "a.db" ⟨false⟩ .commit,
        .closeDB]
      "a.db" ⟨false⟩ (.sql "DELETE FROM tb_books") (by decide +kernel)
    revert hfence
    decide
  · intro h
    have hkey := h.keyed rfl "a.db" ⟨false⟩ .beginTransaction (by decide +kernel)
    cases hkey

end

/-! ### Quiet runs -/

section

variable {Path : Type} {α β : Type}

/-- Every block of the program follows a check that returned `YES`, when `admitted` says
whether the last one did. -/
def Checked : Prog (Step Path) Bool α → Bool → Prop
  | .ret _, _ => True
  | .call .openDB next, _ => Checked (next true) true ∧ Checked (next false) false
  | .call .inDatabase next, admitted => admitted = true ∧ ∀ r, Checked (next r) admitted
  | .call .inTransaction next, admitted => admitted = true ∧ ∀ r, Checked (next r) admitted
  | .call .closeDB next, _ => ∀ r, Checked (next r) false
  | .call (.setupDBWithDBPath _) next, admitted => ∀ r, Checked (next r) admitted
  | .call (.setupDBWithDBPath_isEncrypted _ _) next, admitted => ∀ r, Checked (next r) admitted
  | .call .updateTableInDB next, admitted => ∀ r, Checked (next r) admitted

theorem Checked.mono {p : Prog (Step Path) Bool α} (h : Checked p false) (admitted : Bool) :
    Checked p admitted := by
  induction p with
  | ret a => trivial
  | call o next ih =>
      cases o with
      | openDB => exact h
      | inDatabase => exact absurd h.1 Bool.false_ne_true
      | inTransaction => exact absurd h.1 Bool.false_ne_true
      | closeDB => exact h
      | setupDBWithDBPath p => exact fun r => ih r (h r)
      | setupDBWithDBPath_isEncrypted p b => exact fun r => ih r (h r)
      | updateTableInDB => exact fun r => ih r (h r)

/-- A program that starts with a check may follow any other. -/
theorem Checked.bind {p : Prog (Step Path) Bool α} {f : α → Prog (Step Path) Bool β}
    {admitted : Bool} (h : Checked p admitted) (hf : ∀ a, Checked (f a) false) :
    Checked (p >>= f) admitted := by
  induction p generalizing admitted with
  | ret a => exact (hf a).mono admitted
  | call o next ih =>
      cases o with
      | openDB => exact ⟨ih true h.1, ih false h.2⟩
      | inDatabase => exact ⟨h.1, fun r => ih r (h.2 r)⟩
      | inTransaction => exact ⟨h.1, fun r => ih r (h.2 r)⟩
      | closeDB => exact fun r => ih r (h r)
      | setupDBWithDBPath p => exact fun r => ih r (h r)
      | setupDBWithDBPath_isEncrypted p b => exact fun r => ih r (h r)
      | updateTableInDB => exact fun r => ih r (h r)

/-- An operation that returns when its check says `NO`. -/
theorem checked_guard {rest : Prog (Step Path) Bool Bool} {admitted : Bool}
    (h : Checked rest true) :
    Checked (do
      if !(← perform .openDB) then return false
      rest) admitted :=
  ⟨h, trivial⟩

theorem checked_block {admitted : Bool} (h : admitted = true) :
    Checked (perform .inDatabase : Prog (Step Path) Bool Bool) admitted :=
  ⟨h, fun _ => trivial⟩

theorem checked_transaction {admitted : Bool} (h : admitted = true) :
    Checked (perform .inTransaction : Prog (Step Path) Bool Bool) admitted :=
  ⟨h, fun _ => trivial⟩

theorem checked_ite {c : Prop} [Decidable c] {p q : Prog (Step Path) Bool α} {admitted : Bool}
    (hp : Checked p admitted) (hq : Checked q admitted) :
    Checked (if c then p else q) admitted := by
  split
  · exact hp
  · exact hq

theorem oneBlock_checked (sql admitted : Bool) :
    Checked (oneBlock sql : Prog (Step Path) Bool Bool) admitted :=
  checked_guard (checked_ite (checked_block rfl) trivial)

/-- An array is written in one block. -/
theorem checked_array (count : ℕ) :
    Checked (if count = 1 then perform .inDatabase else perform .inTransaction :
      Prog (Step Path) Bool Bool) true :=
  checked_ite (checked_block rfl) (checked_transaction rfl)

/-- The block of an upsert comes after the check, or after that of `isExistsWithModel:`. -/
theorem insertToDBWithModel_update_checked (update selectSQL updateSQL insertSQL : Bool) :
    Checked (insertToDBWithModel_update update selectSQL updateSQL insertSQL :
      Prog (Step Path) Bool Bool) false := by
  refine checked_guard ?_
  have hwrite : ∀ exist admitted, (exist = true → admitted = true) →
      Checked (if exist = true then
          if updateSQL = true then perform .inDatabase else pure false
        else oneBlock insertSQL : Prog (Step Path) Bool Bool) admitted := by
    intro exist admitted h
    by_cases hexist : exist = true
    · rw [if_pos hexist]
      exact checked_ite (checked_block (h hexist)) trivial
    · rw [if_neg hexist]
      exact oneBlock_checked insertSQL admitted
  cases update
  · exact hwrite false true fun _ => rfl
  · cases selectSQL
    · exact ⟨hwrite false true fun _ => rfl, hwrite false false fun h => h⟩
    · exact ⟨⟨rfl, fun r => hwrite r true fun _ => rfl⟩, hwrite false false fun h => h⟩

theorem Call.checked (call : Call Path) : Checked call.prog false := by
  cases call with
  | oneBlock sql => exact oneBlock_checked sql false
  | insertToDBWithModel_update u s us is => exact insertToDBWithModel_update_checked u s us is
  | insertToDBWithDataArray_table m n => exact checked_guard (checked_ite trivial (checked_array n))
  | insertToDBWithDataArray m n =>
      exact checked_guard (checked_ite trivial
        (checked_guard (checked_ite trivial (checked_array n))))
  | insertToDBWithDataArray_tableName m n =>
      exact checked_guard (checked_ite trivial
        (checked_ite (oneBlock_checked true true) (checked_transaction rfl)))
  | insertToDBWithDataArray_columns s n =>
      exact checked_guard (checked_ite trivial (checked_array n))
  | insertToDBWithDataArray_update u s n =>
      exact checked_guard (checked_ite trivial (checked_ite
        (checked_guard (checked_ite trivial (checked_array n))) (checked_array n)))
  | updateWithDataArray m n =>
      exact checked_ite trivial (checked_guard (checked_ite trivial
        (checked_ite (oneBlock_checked true true) (checked_transaction rfl))))
  | createTable_tableNames => exact checked_guard (checked_transaction rfl)
  | createTable_tableName => exact checked_guard (checked_guard (checked_transaction rfl))
  | closeDB => exact fun _ => trivial
  | setupDBWithDBPath p => exact fun _ => trivial
  | setupDBWithDBPath_isEncrypted p b => exact fun _ => trivial
  | updateTableInDB => exact fun _ => trivial

theorem thread_checked (calls : List (Call Path)) : Checked (thread calls) false := by
  induction calls with
  | nil => trivial
  | cons call calls ih => exact call.checked.bind fun _ => ih

end

section

variable {Path Model ι : Type} [DecidableEq Path] [DecidableEq ι] {text : Path → String}
  {needEncrypted : Bool} {schedule : List (ι × Choice)}

/-- The condition of a quiet run: `closeDB` finds every other thread outside its operations,
and `updateTableInDB`, which has no check, is admitted. -/
def Quiet (needEncrypted : Bool)
    (p : Performed ι (Step Path) Bool Unit Choice (History Path Model)) : Prop :=
  match p.op with
  | .closeDB => ∀ j ≠ p.thread, Checked (p.before.threads j) false
  | .updateTableInDB => Admits needEncrypted p.before.state
  | _ => True

/-- What holds in every configuration of a quiet run: a thread whose check said `YES` finds the
object open. -/
def Settled (c : Config ι (Step Path) Bool Unit (History Path Model)) : Prop :=
  ∀ i, Checked (c.threads i) c.state.self.isOpened

omit [DecidableEq Path] in
/-- A step after which the object is open if it was keeps the other threads settled. -/
theorem Settled.update {c : Config ι (Step Path) Bool Unit (History Path Model)} (hc : Settled c)
    {i : ι} {next : Prog (Step Path) Bool Unit} {h : History Path Model}
    (hnext : Checked next h.self.isOpened)
    (hopen : h.self.isOpened = c.state.self.isOpened ∨ c.state.self.isOpened = false) :
    Settled ⟨Function.update c.threads i next, h⟩ := by
  intro j
  by_cases hj : j = i
  · subst hj
    simpa only [Function.update_self] using hnext
  · simp only [Function.update_of_ne hj]
    rcases hopen with hopen | hopen
    · rw [hopen]; exact hc j
    · have hcj := hc j
      rw [hopen] at hcj
      exact hcj.mono _

variable (text) in
theorem Settled.step {c : Config ι (Step Path) Bool Unit (History Path Model)} (hc : Settled c)
    {i : ι} {choice : Choice} {op : Step Path} {next : Bool → Prog (Step Path) Bool Unit}
    (hi : c.threads i = .call op next) (hquiet : Quiet needEncrypted ⟨i, op, choice, c⟩) :
    Settled (step (Step.act text needEncrypted) c (i, choice)) := by
  have hci := hc i
  rw [hi] at hci
  rw [step_call hi]
  cases op with
  | openDB =>
      have hopened : (c.state.self.openDB text needEncrypted choice.opening).1.isOpened =
          (c.state.self.openDB text needEncrypted choice.opening).2.2 :=
        DataBase.openDB_isOpened
      refine hc.update ?_ ?_
      · -- The answer of the check is what `isOpened` is after it.
        simp only [Step.act, hopened]
        cases (c.state.self.openDB text needEncrypted choice.opening).2.2
        · exact hci.2
        · exact hci.1
      · cases ho : c.state.self.isOpened
        · exact Or.inr rfl
        · refine Or.inl ?_
          simp only [Step.act, DataBase.openDB_opened ho, ho]
  | inDatabase =>
      have hopened : (c.state.self.inDatabase (choice.statements.map .sql)).1.isOpened =
          c.state.self.isOpened := DataBase.inDatabase_isOpened
      refine hc.update ?_ (Or.inl hopened)
      simp only [Step.act, hopened]
      exact hci.2 _
  | inTransaction =>
      have hopened : (c.state.self.inTransaction (choice.statements.map .sql)).1.isOpened =
          c.state.self.isOpened := DataBase.inDatabase_isOpened
      refine hc.update ?_ (Or.inl hopened)
      simp only [Step.act, hopened]
      exact hci.2 _
  | closeDB =>
      intro j
      by_cases hj : j = i
      · subst hj
        simp only [Function.update_self]
        exact hci _
      · simp only [Function.update_of_ne hj]
        exact hquiet j hj
  | setupDBWithDBPath p =>
      have hopened : (c.state.self.setupDBWithDBPath p).isOpened = c.state.self.isOpened := by
        unfold DataBase.setupDBWithDBPath; split <;> rfl
      refine hc.update ?_ (Or.inl hopened)
      simp only [Step.act, hopened]
      exact hci _
  | setupDBWithDBPath_isEncrypted p b =>
      have hopened : (c.state.self.setupDBWithDBPath_isEncrypted p b).isOpened =
          c.state.self.isOpened := by
        unfold DataBase.setupDBWithDBPath_isEncrypted; split <;> rfl
      refine hc.update ?_ (Or.inl hopened)
      simp only [Step.act, hopened]
      exact hci _
  | updateTableInDB =>
      have hopened : c.state.self.updateTableInDB.1.isOpened = c.state.self.isOpened :=
        DataBase.inDatabase_isOpened
      refine hc.update ?_ (Or.inl hopened)
      simp only [Step.act, hopened]
      exact hci _

/-- A quiet run is fenced. -/
theorem quiet_fenced (classes : List Model) (threads : ι → List (Call Path))
    (hquiet : ∀ p ∈ performed (Step.act text needEncrypted) (start classes threads) schedule,
      Quiet needEncrypted p) :
    Fenced needEncrypted
      (run (Step.act text needEncrypted) (start classes threads) schedule).state.log := by
  refine (start_kept classes threads).run.mpr ⟨fenced_nil needEncrypted, fun p hp => ?_⟩
  have hsettled := (run_invariant (I := Settled) (A := Quiet needEncrypted)
    (fun c i e op next hi hc hq => hc.step text hi hq)
    (fun i => thread_checked (threads i)) fun p hp _ => hquiet p hp).2 p hp
  obtain ⟨next, hnext⟩ := performed_thread hp
  have hchecked := hsettled p.thread
  rw [hnext] at hchecked
  have hq := hquiet p hp
  obtain ⟨i, op, choice, before⟩ := p
  cases op with
  | inDatabase => exact Or.inr (Or.inl hchecked.1)
  | inTransaction => exact Or.inl hchecked.1
  | updateTableInDB => exact hq
  | openDB => trivial
  | closeDB => trivial
  | setupDBWithDBPath p => trivial
  | setupDBWithDBPath_isEncrypted p b => trivial

end

end NBDataBase.Session
