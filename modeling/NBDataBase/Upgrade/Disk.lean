import Mathlib.Logic.Function.Basic
import NBDataBase.Lib.Trail
import NBDataBase.Upgrade.Attach

/-!
# Upgrade — the disk

What `upgradeDatabase:` and `openDB` touch outside the process: the files of the file system,
the `NSUserDefaults` flags, and the connections `sqlite3_open` makes.

* `World`: files by path, and the saved flags by key.  A file is a SQLite file with its tables
  and the key it is encrypted under (`none` is plaintext).
* `Event`: a call and its return code.  Every primitive logs one event, also when it fails.
* `Launch.fails` is the environment's choice of the calls that fail.  A primitive fails too when
  its own precondition does: a move onto an existing file, an export from a file the
  connection cannot read.
* `attachTarget`: the file and key an `ATTACH` text attaches, when SQLite accepts it.

The SQLCipher calls behave as documented: `sqlite3_open` does not read the file; `ATTACH …
KEY k` creates the target under `k` (plaintext for the empty key) or opens it when it has that
key; `sqlcipher_export` copies `main` into the attached file when `main` can be read, and
otherwise fails and copies nothing.
-/

namespace NBDataBase
open Trail

/-- A SQLite file: its tables with their rows, and the key it is encrypted under. -/
structure DbFile (γ : Type) where
  tables : γ
  key : Option String
  deriving DecidableEq

/-- The state that outlives a process. -/
structure World (γ : Type) where
  files : String → Option (DbFile γ)
  userDefaults : String → Option Bool

namespace World

variable {γ : Type}

def setFile (w : World γ) (path : String) (f : Option (DbFile γ)) : World γ :=
  { w with files := Function.update w.files path f }

def setDefault (w : World γ) (key : String) (b : Bool) : World γ :=
  { w with userDefaults := Function.update w.userDefaults key (some b) }

@[simp] theorem setFile_files_self (w : World γ) (p : String) (f : Option (DbFile γ)) :
    (w.setFile p f).files p = f := by simp [setFile]

theorem setFile_files_of_ne (w : World γ) {p q : String} (f : Option (DbFile γ)) (h : q ≠ p) :
    (w.setFile p f).files q = w.files q := by simp [setFile, Function.update_of_ne h]

@[simp] theorem setFile_userDefaults (w : World γ) (p : String) (f : Option (DbFile γ)) :
    (w.setFile p f).userDefaults = w.userDefaults := rfl

@[simp] theorem setDefault_files (w : World γ) (k : String) (b : Bool) :
    (w.setDefault k b).files = w.files := rfl

@[simp] theorem setDefault_userDefaults_self (w : World γ) (k : String) (b : Bool) :
    (w.setDefault k b).userDefaults k = some b := by simp [setDefault]

end World

/-! ### Calls and what may go wrong -/

/-- The calls a launch makes, in the order it makes them. -/
inductive Call where
  | moveItem | sqlite3_open | attach | export | detach | removeItem
  | saveEncryptedStatus | databaseQueueWithPath | updateTableInDB
  deriving DecidableEq, Repr

/-- A call and whether its return code was the good one. -/
structure Event where
  call : Call
  ok : Bool
  deriving DecidableEq, Repr

/-- The environment of one run of the process: which calls fail, what a failed export has
written, and after how many effects the process dies, if it does. -/
structure Launch (γ : Type) where
  fails : Call → Bool
  leftover : γ
  dies : Option ℕ

/-- A connection of `sqlite3_open`: the path of `main`, and of the attached database. -/
structure Connection where
  main : String
  encrypted : Option String

/-! ### What `ATTACH` attaches -/

/-- The empty key is no key. -/
def keyOf (key : String) : Option String := if key = "" then none else some key

/-- The file and key an `ATTACH` text attaches in `w`, when SQLite accepts it: the target does
not exist yet or has that key. -/
def attachTarget {γ : Type} (w : World γ) (sql : String) : Option (String × Option String) :=
  match parseAttach sql with
  | none => none
  | some (path, key) =>
      match w.files path with
      | none => some (path, keyOf key)
      | some f => if f.key = keyOf key then some (path, keyOf key) else none

/-- An accepted `ATTACH` attaches the path its text says, under the key its text says. -/
theorem attachTarget_eq_some {γ : Type} {w : World γ} {sql p : String} {k : Option String}
    (h : attachTarget w sql = some (p, k)) :
    ∃ key, parseAttach sql = some (p, key) ∧ k = keyOf key := by
  unfold attachTarget at h
  split at h
  · cases h
  · rename_i p' key hparse
    split at h
    · obtain ⟨rfl, rfl⟩ := Prod.mk.inj (Option.some.inj h)
      exact ⟨key, hparse, rfl⟩
    · split at h
      · obtain ⟨rfl, rfl⟩ := Prod.mk.inj (Option.some.inj h)
        exact ⟨key, hparse, rfl⟩
      · cases h

/-! ### The primitives -/

section Primitives

variable {γ : Type} (env : Launch γ)

/-- `-[NSFileManager fileExistsAtPath:]`. -/
def fileExistsAtPath (path : String) : Trail Event (World γ) Bool :=
  Trail.read fun w => (w.files path).isSome

/-- `-[NSFileManager moveItemAtPath:toPath:error:]`, which does not replace a file. -/
def moveItemAtPath (path toPath : String) : Trail Event (World γ) Bool := fun w =>
  if env.fails .moveItem || (w.files path).isNone || (w.files toPath).isSome then
    ([(⟨.moveItem, false⟩, w)], false)
  else ([(⟨.moveItem, true⟩, (w.setFile toPath (w.files path)).setFile path none)], true)

/-- `-[NSFileManager removeItemAtPath:error:]`. -/
def removeItemAtPath (path : String) : Trail Event (World γ) Bool := fun w =>
  if env.fails .removeItem || (w.files path).isNone then ([(⟨.removeItem, false⟩, w)], false)
  else ([(⟨.removeItem, true⟩, w.setFile path none)], true)

/-- `sqlite3_open`: the file is not read. -/
def sqlite3_open (path : String) : Trail Event (World γ) (Option Connection) := fun w =>
  if env.fails .sqlite3_open then ([(⟨.sqlite3_open, false⟩, w)], none)
  else ([(⟨.sqlite3_open, true⟩, w)], some ⟨path, none⟩)

/-- `sqlite3_exec` of an `ATTACH` text. -/
def execAttach [EmptyCollection γ] (sql : String) (db : Connection) :
    Trail Event (World γ) Connection := fun w =>
  match (if env.fails .attach then none else attachTarget w sql) with
  | none => ([(⟨.attach, false⟩, w)], db)
  | some (path, key) =>
      ([(⟨.attach, true⟩, if (w.files path).isSome then w else w.setFile path (some ⟨∅, key⟩))],
        { db with encrypted := some path })

/-- The tables a connection that was never keyed reads from a file. -/
def readable (w : World γ) (path : String) : Option γ :=
  match w.files path with
  | some ⟨tables, none⟩ => some tables
  | _ => none

/-- Put `tables` in the file at `path`, under the key the file has. -/
def fill (w : World γ) (path : String) (tables : γ) : World γ :=
  w.setFile path ((w.files path).map fun f => { f with tables := tables })

/-- `sqlite3_exec` of `SELECT sqlcipher_export('encrypted');`. -/
def execExport (db : Connection) : Trail Event (World γ) Unit := fun w =>
  match db.encrypted, readable w db.main with
  | some path, some tables =>
      if env.fails .export then ([(⟨.export, false⟩, fill w path env.leftover)], ())
      else ([(⟨.export, true⟩, fill w path tables)], ())
  | _, _ => ([(⟨.export, false⟩, w)], ())

/-- `sqlite3_exec` of `DETACH DATABASE encrypted;`: no effect on the files. -/
def execDetach (db : Connection) : Trail Event (World γ) Unit := fun w =>
  ([(⟨.detach, db.encrypted.isSome && !env.fails .detach⟩, w)], ())

end Primitives

end NBDataBase
