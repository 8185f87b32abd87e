import Mathlib.Data.List.Basic

/-!
# Session — one `NBDataBase` object

The fields of an `NBDataBase` that `setupDBWithDBPath:`, `openDB`, `closeDB` and
`updateTableInDB` read and write, and the queue the other operations run their blocks on.

* Path strings are objects of a type `Path`.  The source compares them with `==`, which is
  pointer equality: equality in `Path`.  `text` gives the characters of an object; two
  objects may hold the same ones.
* `FMDatabaseQueue`: as in FMDB, a closed queue opens its file again when the next block is
  submitted to it, and that connection has no key.
* `Entry`: what a history records, one entry for each `closeDB` and setup call that was
  completed and one for each statement that was executed, with the connection that executed it.
* `Opening`: what `+[FMDatabaseQueue databaseQueueWithPath:]` does inside the `@try` of `openDB`.

`upgradeDatabase:` and the `NSUserDefaults` flag that `setupDBWithDBPath:isEncrypted:` saves are
those of the Upgrade modules; they touch no field of the object.
-/

namespace NBDataBase.Session

/-- An open `FMDatabase`: whether `setKey:` was applied to it. -/
structure FMDatabase where
  keyed : Bool
  deriving DecidableEq, Repr

/-- A queue: its path, and its connection unless it is closed. -/
structure FMDatabaseQueue (Path : Type) where
  path : Path
  db : Option FMDatabase
  deriving DecidableEq, Repr

/-- A statement, as far as a session tells them apart. -/
inductive Statement (Model : Type) where
  | beginTransaction
  | commit
  /-- The statements of `updateTableInDB` for one registered class. -/
  | table (modelClass : Model)
  | sql (text : String)
  deriving DecidableEq, Repr

inductive Entry (Path Model : Type) where
  | closeDB
  | setupDB
  | executed (path : Path) (db : FMDatabase) (statement : Statement Model)
  deriving DecidableEq, Repr

/-- What opening a queue does: it gives a queue, it gives `nil`, or it raises. -/
inductive Opening where
  | queue | null | exception
  deriving DecidableEq, Repr

/-- An `NBDataBase` object. -/
structure DataBase (Path Model : Type) where
  dbPath : Option Path
  registedClassesArray : List Model
  isOpened : Bool
  isForceClosed : Bool
  fmdbQueue : Option (FMDatabaseQueue Path)
  deriving DecidableEq, Repr

/-! ### The queue -/

namespace FMDatabaseQueue

variable {Path Model : Type}

def databaseQueueWithPath (path : Path) : FMDatabaseQueue Path := ⟨path, some ⟨false⟩⟩

def close (q : FMDatabaseQueue Path) : FMDatabaseQueue Path := { q with db := none }

/-- `-database`: a closed queue opens its file again. -/
def database (q : FMDatabaseQueue Path) : FMDatabase := q.db.getD ⟨false⟩

/-- The queue after a block. -/
def reopened (q : FMDatabaseQueue Path) : FMDatabaseQueue Path := { q with db := some q.database }

/-- The entries of a block that executes `statements`. -/
def executed (q : FMDatabaseQueue Path) (statements : List (Statement Model)) :
    List (Entry Path Model) :=
  statements.map (.executed q.path q.database)

end FMDatabaseQueue

namespace DataBase

variable {Path Model : Type}

/-- `-init`. -/
def init : DataBase Path Model := ⟨none, [], false, false, none⟩

def addRegisteClass (self : DataBase Path Model) (modelClass : Model) : DataBase Path Model :=
  { self with registedClassesArray := self.registedClassesArray ++ [modelClass] }

/-! ### Setup and closing -/

section

variable [DecidableEq Path]

def setupDBWithDBPath (self : DataBase Path Model) (dbPath : Path) : DataBase Path Model :=
  if self.dbPath = some dbPath then self
  else { self with dbPath := some dbPath, isForceClosed := false }

/-- `-setupDBWithDBPath:isEncrypted:`, which also saves the flag. -/
def setupDBWithDBPath_isEncrypted (self : DataBase Path Model) (dbPath : Path)
    (_isEncrypted : Bool) : DataBase Path Model :=
  if self.dbPath = some dbPath then self
  else { self with dbPath := some dbPath, isForceClosed := false }

end

def closeDB (self : DataBase Path Model) : DataBase Path Model :=
  { self with
    fmdbQueue := self.fmdbQueue.map FMDatabaseQueue.close
    isOpened := false
    isForceClosed := true }

/-! ### Blocks -/

/-- `-[FMDatabaseQueue inDatabase:]` of a block that executes `statements`; a message to no
queue runs nothing. -/
def inDatabase (self : DataBase Path Model) (statements : List (Statement Model)) :
    DataBase Path Model × List (Entry Path Model) :=
  match self.fmdbQueue with
  | none => (self, [])
  | some q => ({ self with fmdbQueue := some q.reopened }, q.executed statements)

/-- `-[FMDatabaseQueue inTransaction:]`. -/
def inTransaction (self : DataBase Path Model) (statements : List (Statement Model)) :
    DataBase Path Model × List (Entry Path Model) :=
  self.inDatabase (.beginTransaction :: statements ++ [.commit])

/-- `+updateTableInDB`, on the shared object of the class it is sent to. -/
def updateTableInDB (self : DataBase Path Model) : DataBase Path Model × List (Entry Path Model) :=
  self.inTransaction (self.registedClassesArray.map .table)

/-! ### `openDB` -/

section

variable (text : Path → String)

/-- The path `openDB` goes on to open, when the object is not open. -/
def opensPath (self : DataBase Path Model) : Option Path :=
  if self.isForceClosed then none
  else self.dbPath.bind fun path => if (text path).length < 1 then none else some path

/-- The `@try` of `openDB`; `needEncrypted` is `[self isNeedEncrypted]`. -/
def openQueue (needEncrypted : Bool) (o : Opening) (self : DataBase Path Model) (path : Path) :
    DataBase Path Model × Bool :=
  match o with
  | .exception => (self, false)
  | .null => ({ self with fmdbQueue := none }, false)
  | .queue =>
      let q := FMDatabaseQueue.databaseQueueWithPath path
      let q := if needEncrypted then { q with db := some ⟨true⟩ } else q
      ({ self with fmdbQueue := some q }, true)

/-- `-openDB`: the object, what was executed, and what it returns. -/
def openDB (needEncrypted : Bool) (o : Opening) (self : DataBase Path Model) :
    DataBase Path Model × List (Entry Path Model) × Bool :=
  if self.isOpened then (self, [], true)
  else
    match self.opensPath text with
    | none => (self, [], false)
    | some path =>
        let (self, success) := self.openQueue needEncrypted o path
        let (self, entries) := if success then self.updateTableInDB else (self, [])
        ({ self with isOpened := success }, entries, success)

end

/-! ### What each operation does -/

section Specs

variable {self : DataBase Path Model} {statements : List (Statement Model)}

@[simp] theorem inDatabase_dbPath : (self.inDatabase statements).1.dbPath = self.dbPath := by
  unfold inDatabase; split <;> rfl

@[simp] theorem inDatabase_isOpened :
    (self.inDatabase statements).1.isOpened = self.isOpened := by
  unfold inDatabase; split <;> rfl

@[simp] theorem inDatabase_isForceClosed :
    (self.inDatabase statements).1.isForceClosed = self.isForceClosed := by
  unfold inDatabase; split <;> rfl

@[simp] theorem inDatabase_registed :
    (self.inDatabase statements).1.registedClassesArray = self.registedClassesArray := by
  unfold inDatabase; split <;> rfl

end Specs

section Opened

variable {text : Path → String} {needEncrypted : Bool} {o : Opening} {self : DataBase Path Model}

/-- An open object is not opened again. -/
theorem openDB_opened (h : self.isOpened = true) :
    self.openDB text needEncrypted o = (self, [], true) := by
  rw [openDB, if_pos h]

theorem openDB_refused (h : self.isOpened = false) (hp : self.opensPath text = none) :
    self.openDB text needEncrypted o = (self, [], false) := by
  rw [openDB, if_neg (by rw [h]; exact Bool.false_ne_true), hp]

/-- The path is opened, keyed when it must be, and its tables are brought up to date. -/
theorem openDB_queue {path : Path} (h : self.isOpened = false)
    (hp : self.opensPath text = some path) :
    self.openDB text needEncrypted .queue =
      ({ self with isOpened := true, fmdbQueue := some ⟨path, some ⟨needEncrypted⟩⟩ },
        (FMDatabaseQueue.mk path (some ⟨needEncrypted⟩)).executed
          (.beginTransaction :: self.registedClassesArray.map .table ++ [.commit]), true) := by
  rw [openDB, if_neg (by rw [h]; exact Bool.false_ne_true), hp]
  cases needEncrypted <;> rfl

theorem openDB_null {path : Path} (h : self.isOpened = false)
    (hp : self.opensPath text = some path) :
    self.openDB text needEncrypted .null =
      ({ self with isOpened := false, fmdbQueue := none }, [], false) := by
  rw [openDB, if_neg (by rw [h]; exact Bool.false_ne_true), hp]
  rfl

theorem openDB_exception {path : Path} (h : self.isOpened = false)
    (hp : self.opensPath text = some path) :
    self.openDB text needEncrypted .exception =
      ({ self with isOpened := false }, [], false) := by
  rw [openDB, if_neg (by rw [h]; exact Bool.false_ne_true), hp]
  rfl

theorem opensPath_eq_some {path : Path} : self.opensPath text = some path ↔
    self.isForceClosed = false ∧ self.dbPath = some path ∧ text path ≠ "" := by
  have hlen : (text path).length < 1 ↔ text path = "" := by
    rw [Nat.lt_one_iff, String.length_eq_zero_iff]
  unfold opensPath
  cases hf : self.isForceClosed
  · simp only [Bool.false_eq_true, if_false, Option.bind_eq_some_iff, true_and]
    constructor
    · rintro ⟨p, hp, hlt⟩
      split at hlt
      · cases hlt
      · obtain rfl := Option.some.inj hlt
        exact ⟨hp, fun he => by simp_all⟩
    · rintro ⟨hp, hne⟩
      exact ⟨path, hp, if_neg (mt hlen.mp hne)⟩
  · simp

/-- `openDB` returns what `isOpened` is after it. -/
theorem openDB_isOpened : (self.openDB text needEncrypted o).1.isOpened =
    (self.openDB text needEncrypted o).2.2 := by
  cases h : self.isOpened
  · cases hp : self.opensPath text with
    | none => rw [openDB_refused h hp]; exact h
    | some path =>
        cases o with
        | queue => rw [openDB_queue h hp]
        | null => rw [openDB_null h hp]
        | exception => rw [openDB_exception h hp]
  · rw [openDB_opened h]; exact h

theorem openDB_registed : (self.openDB text needEncrypted o).1.registedClassesArray =
    self.registedClassesArray := by
  cases h : self.isOpened
  · cases hp : self.opensPath text with
    | none => rw [openDB_refused h hp]
    | some path =>
        cases o with
        | queue => rw [openDB_queue h hp]
        | null => rw [openDB_null h hp]
        | exception => rw [openDB_exception h hp]
  · rw [openDB_opened h]

/-- `openDB` brings up to date the tables of the registered classes. -/
theorem registed_of_table {path : Path} {db : FMDatabase} {modelClass : Model}
    (h : .executed path db (.table modelClass) ∈ (self.openDB text needEncrypted o).2.1) :
    modelClass ∈ self.registedClassesArray := by
  cases ho : self.isOpened
  · cases hp : self.opensPath text with
    | none => rw [openDB_refused ho hp] at h; cases h
    | some path =>
        cases o with
        | queue =>
            rw [openDB_queue ho hp] at h
            simp only [FMDatabaseQueue.executed, List.mem_map] at h
            obtain ⟨st, hst, he⟩ := h
            cases he
            simpa using hst
        | null => rw [openDB_null ho hp] at h; cases h
        | exception => rw [openDB_exception ho hp] at h; cases h
  · rw [openDB_opened ho] at h; cases h

end Opened

end DataBase

end NBDataBase.Session
