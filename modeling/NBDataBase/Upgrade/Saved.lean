import NBDataBase.Lib.Loop
import NBDataBase.Session.DataBase
import NBDataBase.Upgrade.Versions

/-!
# Upgrade — what `NSUserDefaults` holds for each database

A database is that of an owner, at a path.  Its version and its encryption status are saved
under two keys, which are made of the user id and of the last path component.

* `Confused`: the condition, on the user ids and last path components of two databases, under
  which two of their four keys are one string (`keysApart_iff`).
* `Defaults`: the values by key.  `Store` remembers besides what was saved for which database.
* `Answers`: what the file system and SQLite answer to one `upgradeDatabase:`.
  `upgradeDatabase_flags`: what it saves is what `upgradeDatabase` of the disk saves.
* `App`, `Request`, `App.step`: the objects of a process, which are set up, opened and closed,
  and the launches of the app.
* `Own`: what is read for a database is what was saved last for it.  A run over databases no two
  of which are confused keeps it.
-/

namespace NBDataBase
open Trail

/-! ### Databases and their keys -/

/-- A database: the user it is private to, unless it is a common one, and the path of its
file. -/
structure Database where
  owner : Option String
  path : String
  deriving DecidableEq

/-- The database an object stands for. -/
def DataBase.database (self : DataBase) (cfg : NBDBConfigure) : Database where
  owner := if self.isPrivate then some cfg.currentUserId else none
  path := self.dbPath

def cacheVersionKey (self : DataBase) (cfg : NBDBConfigure) : String :=
  (if self.isPrivate then cfg.currentUserId else "") ++ ("_" ++ lastPathComponent self.dbPath)

namespace Database

def uid (d : Database) : String := d.owner.getD ""

def lastComponent (d : Database) : String := lastPathComponent d.path

def versionKey (d : Database) : String := d.uid ++ ("_" ++ d.lastComponent)

def statusKey (d : Database) : String := d.versionKey ++ "_EncryptedStatus"

end Database

theorem cacheVersionKey_eq (self : DataBase) (cfg : NBDBConfigure) :
    cacheVersionKey self cfg = (self.database cfg).versionKey := by
  unfold cacheVersionKey Database.versionKey Database.uid DataBase.database
  cases self.isPrivate <;> rfl

theorem cacheEncryptedStatusKey_eq (self : DataBase) (cfg : NBDBConfigure) :
    cacheEncryptedStatusKey self cfg = (self.database cfg).statusKey := by
  rw [Database.statusKey, ← cacheVersionKey_eq]
  simp [cacheEncryptedStatusKey, cacheVersionKey, String.append_assoc]

/-- The version and status keys of two databases are four different strings. -/
def KeysApart (self : DataBase) (cfg : NBDBConfigure) (other : DataBase) (cfg' : NBDBConfigure) :
    Prop :=
  [cacheVersionKey self cfg, cacheEncryptedStatusKey self cfg,
    cacheVersionKey other cfg', cacheEncryptedStatusKey other cfg'].Nodup

/-! ### Two texts around an underscore -/

/-- `u'` goes on where `u` ends, with `_` and a text that `l` starts with, before a `_` and
`l'`. -/
def Shifted (u l u' l' : String) : Prop := ∃ r : String, u' = u ++ ("_" ++ r) ∧ l = r ++ ("_" ++ l')

/-- The texts are the same, or one pair is the other with the `_` in another place. -/
def Alike (u l u' l' : String) : Prop := (u = u' ∧ l = l') ∨ Shifted u l u' l' ∨ Shifted u' l' u l

theorem Shifted.joined {u l u' l' : String} (h : Shifted u l u' l') :
    u ++ ("_" ++ l) = u' ++ ("_" ++ l') := by
  obtain ⟨r, rfl, rfl⟩ := h
  simp [String.append_assoc]

/-- What is left of the longer one of two equal joined texts starts with the underscore. -/
theorem shifted_of_prefix {u l u' l' : String} {r : List Char} (hu : u'.toList = u.toList ++ r)
    (hl : '_' :: l.toList = r ++ '_' :: l'.toList) : (u = u' ∧ l = l') ∨ Shifted u l u' l' := by
  cases r with
  | nil =>
      refine .inl ⟨String.toList_inj.mp ?_, String.toList_inj.mp ?_⟩
      · simpa using hu.symm
      · simpa using hl
  | cons c r =>
      obtain ⟨rfl, hl⟩ := List.cons.inj hl
      refine .inr ⟨String.ofList r, String.toList_inj.mp ?_, String.toList_inj.mp ?_⟩
      · simpa using hu
      · simpa using hl

theorem alike_iff {u l u' l' : String} :
    Alike u l u' l' ↔ u ++ ("_" ++ l) = u' ++ ("_" ++ l') := by
  constructor
  · rintro (⟨rfl, rfl⟩ | h | h)
    · rfl
    · exact h.joined
    · exact h.joined.symm
  · intro h
    have hlist : u.toList ++ '_' :: l.toList = u'.toList ++ '_' :: l'.toList := by
      simpa using congrArg String.toList h
    rcases List.append_eq_append_iff.mp hlist with ⟨r, hu, hl⟩ | ⟨r, hu, hl⟩
    · rcases shifted_of_prefix hu hl with h | h
      · exact .inl h
      · exact .inr (.inl h)
    · rcases shifted_of_prefix hu hl with ⟨hu, hl⟩ | h
      · exact .inl ⟨hu.symm, hl.symm⟩
      · exact .inr (.inr h)

/-- Two databases with a common key, in terms of their user ids and last path components. -/
def Confused (d e : Database) : Prop :=
  Alike d.uid d.lastComponent e.uid e.lastComponent ∨
  Alike d.uid d.lastComponent e.uid (e.lastComponent ++ "_EncryptedStatus") ∨
  Alike e.uid e.lastComponent d.uid (d.lastComponent ++ "_EncryptedStatus")

theorem Database.versionKey_eq_iff {d e : Database} : d.versionKey = e.versionKey ↔
    Alike d.uid d.lastComponent e.uid e.lastComponent := alike_iff.symm

theorem Database.versionKey_eq_statusKey_iff {d e : Database} : d.versionKey = e.statusKey ↔
    Alike d.uid d.lastComponent e.uid (e.lastComponent ++ "_EncryptedStatus") := by
  rw [alike_iff, statusKey, versionKey, versionKey]
  simp [String.append_assoc]

theorem Database.statusKey_eq_iff {d e : Database} :
    d.statusKey = e.statusKey ↔ d.versionKey = e.versionKey := by
  simp [statusKey]

/-- The two keys of one database are different. -/
theorem Database.versionKey_ne_statusKey (d : Database) : d.versionKey ≠ d.statusKey := fun h => by
  have hlen := congrArg String.length h
  simp [statusKey] at hlen

theorem alike_self_iff {u l l' : String} : Alike u l u l' ↔ l = l' := by
  rw [alike_iff]
  simp

/-- Two databases of one user are confused when the last path components are the same, but for
the ending of the status key. -/
theorem confused_of_uid {d e : Database} (h : d.uid = e.uid) : Confused d e ↔
    d.lastComponent = e.lastComponent ∨
      d.lastComponent = e.lastComponent ++ "_EncryptedStatus" ∨
      e.lastComponent = d.lastComponent ++ "_EncryptedStatus" := by
  simp only [Confused, h, alike_self_iff]

theorem not_confused_iff {d e : Database} : ¬ Confused d e ↔
    d.versionKey ≠ e.versionKey ∧ d.versionKey ≠ e.statusKey ∧ e.versionKey ≠ d.statusKey := by
  simp only [Confused, not_or, ← Database.versionKey_eq_iff,
    ← Database.versionKey_eq_statusKey_iff]

/-- Two databases have four keys exactly when they are not confused. -/
theorem keysApart_iff (self : DataBase) (cfg : NBDBConfigure) (other : DataBase)
    (cfg' : NBDBConfigure) : KeysApart self cfg other cfg' ↔
      ¬ Confused (self.database cfg) (other.database cfg') := by
  rw [not_confused_iff, KeysApart]
  simp only [cacheVersionKey_eq, cacheEncryptedStatusKey_eq]
  have hself := (self.database cfg).versionKey_ne_statusKey
  have hother := (other.database cfg').versionKey_ne_statusKey
  simp only [List.nodup_cons, List.mem_cons, List.not_mem_nil, or_false, not_or, not_false_iff,
    List.nodup_nil, and_true, Database.statusKey_eq_iff]
  constructor
  · rintro ⟨⟨-, hv, hvs⟩, ⟨hsv, -⟩, -⟩
    exact ⟨hv, hvs, Ne.symm hsv⟩
  · rintro ⟨hv, hvs, hsv⟩
    exact ⟨⟨hself, hv, hvs⟩, ⟨Ne.symm hsv, hv⟩, hother⟩

/-! ### `NSUserDefaults` -/

/-- A value of `NSUserDefaults`: an `NSString`, or an `NSNumber` of a `BOOL`. -/
inductive Default where
  | string (s : String)
  | number (b : Bool)
  deriving DecidableEq, Repr

/-- `-boolValue`.  That of a string skips white space, a sign and zeros, and is YES when a letter
of yes or true or another digit follows. -/
def Default.boolValue : Default → Bool
  | .number b => b
  | .string s =>
      let cs := s.toList.dropWhile (·.isWhitespace)
      let cs := if cs.head?.any fun c => c == '+' || c == '-' then cs.tail else cs
      (cs.dropWhile (· == '0')).head?.any ("YyTt123456789".toList.contains ·)

abbrev Defaults := String → Option Default

namespace Defaults

variable (self : DataBase) (cfg : NBDBConfigure) (D : Defaults)

def cacheVersion : Option Default := D (cacheVersionKey self cfg)

/-- `boolValue` of no value is NO. -/
def isEncrypted : Bool := ((D (cacheEncryptedStatusKey self cfg)).map Default.boolValue).getD false

/-- A version that is already saved is not saved again; a number equals no version. -/
def saveVersionToLocal : Defaults :=
  if D.cacheVersion self cfg = some (.string cfg.version) then D
  else Function.update D (cacheVersionKey self cfg) (some (.string cfg.version))

def saveEncryptedStatus (encrypted : Bool) : Defaults :=
  if encrypted = D.isEncrypted self cfg then D
  else Function.update D (cacheEncryptedStatusKey self cfg) (some (.number encrypted))

/-- The flags of the disk. -/
def flags : String → Option Bool := fun key => (D key).map Default.boolValue

variable {self cfg D} {other : DataBase} {cfg' : NBDBConfigure} {b : Bool}

theorem cacheVersion_saveVersion :
    (D.saveVersionToLocal self cfg).cacheVersion self cfg = some (.string cfg.version) := by
  unfold saveVersionToLocal
  split
  · assumption
  · simp [cacheVersion]

theorem isEncrypted_saveStatus : (D.saveEncryptedStatus self cfg b).isEncrypted self cfg = b := by
  unfold saveEncryptedStatus
  split
  · exact (‹b = _›).symm
  · simp [isEncrypted, Default.boolValue]

/-- Another key keeps its value. -/
theorem saveVersion_other {key : String} (h : key ≠ cacheVersionKey self cfg) :
    D.saveVersionToLocal self cfg key = D key := by
  unfold saveVersionToLocal
  split
  · rfl
  · exact Function.update_of_ne h _ _

theorem saveStatus_other {key : String} (h : key ≠ cacheEncryptedStatusKey self cfg) :
    D.saveEncryptedStatus self cfg b key = D key := by
  unfold saveEncryptedStatus
  split
  · rfl
  · exact Function.update_of_ne h _ _

theorem cacheVersion_congr {D' : Defaults}
    (h : D' (cacheVersionKey self cfg) = D (cacheVersionKey self cfg)) :
    D'.cacheVersion self cfg = D.cacheVersion self cfg := h

theorem isEncrypted_congr {D' : Defaults}
    (h : D' (cacheEncryptedStatusKey self cfg) = D (cacheEncryptedStatusKey self cfg)) :
    D'.isEncrypted self cfg = D.isEncrypted self cfg := by
  unfold isEncrypted
  rw [h]

end Defaults

/-! ### What was saved for which database -/

/-- A save: the database it was for, and the value. -/
structure Save where
  database : Database
  value : Default
  deriving DecidableEq

/-- The status a save is of, if it is one of `d`'s status. -/
def Save.statusOf (d : Database) (e : Save) : Option Bool :=
  if e.database = d then
    match e.value with
    | .number b => some b
    | .string _ => none
  else none

/-- The version a save is of, if it is one of `d`'s version. -/
def Save.versionOf (d : Database) (e : Save) : Option String :=
  if e.database = d then
    match e.value with
    | .number _ => none
    | .string v => some v
  else none

/-- `NSUserDefaults`, and the saves that were asked for, the last one last. -/
structure Store where
  userDefaults : Defaults
  saves : List Save

/-- The status that was saved last for `d`. -/
def Store.lastStatus (d : Database) (s : Store) : Option Bool :=
  (s.saves.filterMap (Save.statusOf d)).getLast?

/-- The version that was saved last for `d`. -/
def Store.lastVersion (d : Database) (s : Store) : Option String :=
  (s.saves.filterMap (Save.versionOf d)).getLast?

/-- What the file system and SQLite answer to one `upgradeDatabase:`: whether the file is there,
whether it is moved, and whether the moved file is opened. -/
structure Answers where
  fileExists : Bool
  moved : Bool
  opened : Bool

namespace Store

variable (self : DataBase) (cfg : NBDBConfigure)

def saveVersionToLocal (s : Store) : Store where
  userDefaults := s.userDefaults.saveVersionToLocal self cfg
  saves := s.saves ++ [⟨self.database cfg, .string cfg.version⟩]

def saveEncryptedStatus (encrypted : Bool) (s : Store) : Store where
  userDefaults := s.userDefaults.saveEncryptedStatus self cfg encrypted
  saves := s.saves ++ [⟨self.database cfg, .number encrypted⟩]

/-- A conversion branch. -/
def convertDatabase (a : Answers) (status : Bool) (s : Store) : Store × Exit :=
  if a.moved then
    if a.opened then (s.saveEncryptedStatus self cfg status, .returned) else (s, .assertion)
  else (s, .returned)

def upgradeDatabase (a : Answers) (s : Store) : Store × Exit :=
  let needEncrypte := isNeedEncrypted cfg
  let isEncrypted := s.userDefaults.isEncrypted self cfg
  if !a.fileExists then
    (if needEncrypte then s.saveEncryptedStatus self cfg true
      else s.saveEncryptedStatus self cfg false, .returned)
  else if needEncrypte && isEncrypted then (s, .returned)
  else if needEncrypte && !isEncrypted then s.convertDatabase self cfg a true
  else if !isEncrypted then (s, .returned)
  else s.convertDatabase self cfg a false

end Store

/-! ### What the disk saves -/

section Disk

variable {γ α : Type} {self : DataBase} {cfg : NBDBConfigure} {env : Launch γ} {w : World γ}
  {s : Store}

/-- What the disk answers to an `upgradeDatabase:` of the file at `path`. -/
def Launch.answers (env : Launch γ) (path : String) (w : World γ) : Answers where
  fileExists := (w.files path).isSome
  moved := (moveItemAtPath env path (path ++ ".tmp") w).2
  opened := !env.fails .sqlite3_open

theorem SavesNone.final {m : Trail Event (World γ) α} (h : SavesNone m) (w : World γ) :
    (m.final w).userDefaults = w.userDefaults :=
  endOf_of_forall (I := fun w' : World γ => w'.userDefaults = w.userDefaults) rfl (h w)

theorem isEncrypted_flags (h : w.userDefaults = s.userDefaults.flags) :
    isEncrypted self cfg w = s.userDefaults.isEncrypted self cfg := by
  rw [isEncrypted, h]
  rfl

theorem saveEncryptedStatus_flags (h : w.userDefaults = s.userDefaults.flags) (b : Bool) :
    ((saveEncryptedStatus self cfg b).final w).userDefaults =
      (s.saveEncryptedStatus self cfg b).userDefaults.flags := by
  have henc : isEncrypted self cfg w = s.userDefaults.isEncrypted self cfg := isEncrypted_flags h
  by_cases hb : b = s.userDefaults.isEncrypted self cfg
  · simp only [final, saveEncryptedStatus, henc, if_pos hb, endOf_nil, h,
      Store.saveEncryptedStatus, Defaults.saveEncryptedStatus]
  · simp only [final, saveEncryptedStatus, henc, if_neg hb, endOf_cons, endOf_nil,
      Store.saveEncryptedStatus, Defaults.saveEncryptedStatus, World.setDefault, h]
    ext key
    by_cases hkey : key = cacheEncryptedStatusKey self cfg
    · subst hkey
      simp [Defaults.flags, Default.boolValue]
    · simp [Defaults.flags, Function.update_of_ne hkey]

variable [EmptyCollection γ]

theorem exportDatabase_flags (h : w.userDefaults = s.userDefaults.flags) (tmppath sql : String)
    (db : Connection) (b : Bool) :
    ((exportDatabase self cfg env tmppath sql db b).final w).userDefaults =
      (s.saveEncryptedStatus self cfg b).userDefaults.flags := by
  simp only [exportDatabase, final_bind]
  refine saveEncryptedStatus_flags ?_ b
  rw [removeDatabasePath, (removeItemAtPath_savesNone _).final, (execDetach_savesNone _).final,
    (execExport_savesNone _).final, (execAttach_savesNone _ _).final, h]

theorem convertDatabase_flags (h : w.userDefaults = s.userDefaults.flags) (path : String)
    (b : Bool) :
    ((convertDatabase self cfg env path b).final w).userDefaults =
        (s.convertDatabase self cfg (env.answers path w) b).1.userDefaults.flags ∧
      (convertDatabase self cfg env path b w).2 =
        (s.convertDatabase self cfg (env.answers path w) b).2 := by
  set moved := (moveItemAtPath env path (path ++ ".tmp") w).2 with hmoved
  have hflags : ((changeDatabasePath env path).final w).userDefaults = s.userDefaults.flags := by
    simp only [changeDatabasePath, final_bind]
    have hmove : ((moveItemAtPath env path (path ++ ".tmp")).final w).userDefaults = _ :=
      (moveItemAtPath_savesNone path (path ++ ".tmp")).final w
    rw [← h, ← hmove]
    split <;> rfl
  have hpath : (changeDatabasePath env path w).2 =
    if moved then some (path ++ ".tmp") else none := by
    simp only [changeDatabasePath, run_bind, ← hmoved]
    split <;> rfl
  simp only [convertDatabase, final_bind, run_bind, hpath, Store.convertDatabase, Launch.answers,
    ← hmoved]
  cases moved with
  | false => exact ⟨hflags, rfl⟩
  | true =>
      have hopen : ((sqlite3_open env (path ++ ".tmp")).final
          ((changeDatabasePath env path).final w)).userDefaults = s.userDefaults.flags := by
        rw [(sqlite3_open_savesNone _).final, hflags]
      cases hfails : env.fails .sqlite3_open
      · have hdb : (sqlite3_open env (path ++ ".tmp")
            ((changeDatabasePath env path).final w)).2 = some ⟨path ++ ".tmp", none⟩ := by
          simp [sqlite3_open, hfails]
        simp only [if_true, final_bind, run_bind, hdb]
        exact ⟨exportDatabase_flags hopen _ _ _ b, rfl⟩
      · have hdb : (sqlite3_open env (path ++ ".tmp")
            ((changeDatabasePath env path).final w)).2 = none := by
          simp [sqlite3_open, hfails]
        simp only [if_true, final_bind, run_bind, hdb]
        exact ⟨hopen, rfl⟩

/-- Without a file at its path, `upgradeDatabase:` saves what is required. -/
theorem upgradeDatabase_missing {path : String} (hf : w.files path = none) :
    upgradeDatabase self cfg env path w =
      ((saveEncryptedStatus self cfg (isNeedEncrypted cfg) w).1, .returned) := by
  have hread : ((Trail.read (isEncrypted self cfg) : Trail Event (World γ) Bool) w) =
      ([], isEncrypted self cfg w) := rfl
  simp only [upgradeDatabase, run_bind, hread, final, fileExistsAtPath, run_read]
  cases isNeedEncrypted cfg <;> simp [run_bind, run_pure, hf]

/-- **What an upgrade saves on the disk is what it saves in a store**, given the answers of the
disk. -/
theorem upgradeDatabase_flags (h : w.userDefaults = s.userDefaults.flags) (path : String) :
    ((upgradeDatabase self cfg env path).final w).userDefaults =
        (s.upgradeDatabase self cfg (env.answers path w)).1.userDefaults.flags ∧
      (upgradeDatabase self cfg env path w).2 =
        (s.upgradeDatabase self cfg (env.answers path w)).2 := by
  have henc : isEncrypted self cfg w = s.userDefaults.isEncrypted self cfg := isEncrypted_flags h
  cases hf : w.files path with
  | none =>
      have hexists : (env.answers path w).fileExists = false := by simp [Launch.answers, hf]
      simp only [final, upgradeDatabase_missing hf, Store.upgradeDatabase, hexists]
      cases isNeedEncrypted cfg
      · exact ⟨saveEncryptedStatus_flags h false, rfl⟩
      · exact ⟨saveEncryptedStatus_flags h true, rfl⟩
  | some f =>
      have hexists : (env.answers path w).fileExists = true := by simp [Launch.answers, hf]
      simp only [final, upgradeDatabase_run self cfg env hf, henc, Store.upgradeDatabase, hexists]
      cases hneed : isNeedEncrypted cfg <;> cases s.userDefaults.isEncrypted self cfg
      · exact ⟨h, rfl⟩
      · exact convertDatabase_flags h path false
      · exact convertDatabase_flags h path true
      · exact ⟨h, rfl⟩

end Disk

/-! ### What is read is what was saved last -/

section Own

/-- What is read for a database of `S` is what was saved last for it, and what `D` holds when
nothing was. -/
structure Own (S : Set Database) (D : Defaults) (s : Store) : Prop where
  status : ∀ (self : DataBase) (cfg : NBDBConfigure), self.database cfg ∈ S →
    s.userDefaults.isEncrypted self cfg =
      (s.lastStatus (self.database cfg)).getD (D.isEncrypted self cfg)
  version : ∀ (self : DataBase) (cfg : NBDBConfigure), self.database cfg ∈ S →
    s.userDefaults.cacheVersion self cfg =
      ((s.lastVersion (self.database cfg)).map Default.string).or (D.cacheVersion self cfg)

theorem Own.start (S : Set Database) (D : Defaults) : Own S D ⟨D, []⟩ :=
  ⟨fun _ _ _ => rfl, fun _ _ _ => rfl⟩

/-- The last of what a list and one element more say. -/
theorem getLast_filterMap_concat {α β : Type} (f : α → Option β) (l : List α) (a : α) :
    ((l ++ [a]).filterMap f).getLast? = (f a).or (l.filterMap f).getLast? := by
  rw [List.filterMap_append, List.getLast?_append]
  cases h : f a <;> simp [h]

variable {S : Set Database} {D : Defaults} {s : Store} {self : DataBase} {cfg : NBDBConfigure}

theorem Own.saveEncryptedStatus (hS : ∀ d ∈ S, ∀ e ∈ S, d ≠ e → ¬ Confused d e) (h : Own S D s)
    (hself : self.database cfg ∈ S) (b : Bool) : Own S D (s.saveEncryptedStatus self cfg b) := by
  constructor
  · intro other cfg' hother
    have hlast := getLast_filterMap_concat (Save.statusOf (other.database cfg')) s.saves
      ⟨self.database cfg, .number b⟩
    rw [Store.lastStatus, Store.saveEncryptedStatus, hlast]
    by_cases heq : self.database cfg = other.database cfg'
    · have hkey : cacheEncryptedStatusKey other cfg' = cacheEncryptedStatusKey self cfg := by
        rw [cacheEncryptedStatusKey_eq, cacheEncryptedStatusKey_eq, heq]
      have hread : (s.userDefaults.saveEncryptedStatus self cfg b).isEncrypted other cfg' = b := by
        rw [Defaults.isEncrypted, hkey]
        exact Defaults.isEncrypted_saveStatus
      rw [hread]
      simp [Save.statusOf, heq]
    · -- the keys of two databases that are not confused are different
      have hkey : cacheEncryptedStatusKey other cfg' ≠ cacheEncryptedStatusKey self cfg := by
        rw [cacheEncryptedStatusKey_eq, cacheEncryptedStatusKey_eq, Ne, Database.statusKey_eq_iff]
        exact (not_confused_iff.mp (hS _ hother _ hself (Ne.symm heq))).1
      rw [Defaults.isEncrypted_congr (Defaults.saveStatus_other hkey), h.status other cfg' hother]
      simp [Save.statusOf, heq, Store.lastStatus]
  · intro other cfg' hother
    have hkey : cacheVersionKey other cfg' ≠ cacheEncryptedStatusKey self cfg := by
      rw [cacheVersionKey_eq, cacheEncryptedStatusKey_eq]
      by_cases heq : other.database cfg' = self.database cfg
      · rw [heq]
        exact Database.versionKey_ne_statusKey _
      · exact (not_confused_iff.mp (hS _ hother _ hself heq)).2.1
    have hlast := getLast_filterMap_concat (Save.versionOf (other.database cfg')) s.saves
      ⟨self.database cfg, .number b⟩
    rw [Store.lastVersion, Store.saveEncryptedStatus, hlast,
      Defaults.cacheVersion_congr (Defaults.saveStatus_other hkey), h.version other cfg' hother]
    simp [Save.versionOf, Store.lastVersion]

theorem Own.saveVersionToLocal (hS : ∀ d ∈ S, ∀ e ∈ S, d ≠ e → ¬ Confused d e) (h : Own S D s)
    (hself : self.database cfg ∈ S) : Own S D (s.saveVersionToLocal self cfg) := by
  constructor
  · intro other cfg' hother
    have hkey : cacheEncryptedStatusKey other cfg' ≠ cacheVersionKey self cfg := by
      rw [cacheVersionKey_eq, cacheEncryptedStatusKey_eq]
      by_cases heq : other.database cfg' = self.database cfg
      · rw [heq]
        exact (Database.versionKey_ne_statusKey _).symm
      · exact ((not_confused_iff.mp (hS _ hother _ hself heq)).2.2).symm
    have hlast := getLast_filterMap_concat (Save.statusOf (other.database cfg')) s.saves
      ⟨self.database cfg, .string cfg.version⟩
    rw [Store.lastStatus, Store.saveVersionToLocal, hlast,
      Defaults.isEncrypted_congr (Defaults.saveVersion_other hkey), h.status other cfg' hother]
    simp [Save.statusOf, Store.lastStatus]
  · intro other cfg' hother
    have hlast := getLast_filterMap_concat (Save.versionOf (other.database cfg')) s.saves
      ⟨self.database cfg, .string cfg.version⟩
    rw [Store.lastVersion, Store.saveVersionToLocal, hlast]
    by_cases heq : self.database cfg = other.database cfg'
    · have hkey : cacheVersionKey other cfg' = cacheVersionKey self cfg := by
        rw [cacheVersionKey_eq, cacheVersionKey_eq, heq]
      have hread : (s.userDefaults.saveVersionToLocal self cfg).cacheVersion other cfg' =
          some (.string cfg.version) := by
        rw [Defaults.cacheVersion, hkey]
        exact Defaults.cacheVersion_saveVersion
      rw [hread]
      simp [Save.versionOf, heq]
    · have hkey : cacheVersionKey other cfg' ≠ cacheVersionKey self cfg := by
        rw [cacheVersionKey_eq, cacheVersionKey_eq]
        exact (not_confused_iff.mp (hS _ hother _ hself (Ne.symm heq))).1
      rw [Defaults.cacheVersion_congr (Defaults.saveVersion_other hkey),
        h.version other cfg' hother]
      simp [Save.versionOf, heq, Store.lastVersion]

/-- An upgrade saves nothing, or a status of its own database. -/
theorem Store.upgradeDatabase_cases (self : DataBase) (cfg : NBDBConfigure) (a : Answers)
    (s : Store) : (s.upgradeDatabase self cfg a).1 = s ∨
      ∃ b, (s.upgradeDatabase self cfg a).1 = s.saveEncryptedStatus self cfg b := by
  have hconvert : ∀ status, (s.convertDatabase self cfg a status).1 = s ∨
      (s.convertDatabase self cfg a status).1 = s.saveEncryptedStatus self cfg status := by
    intro status
    unfold convertDatabase
    cases a.moved
    · exact .inl rfl
    · cases a.opened
      · exact .inl rfl
      · exact .inr rfl
  unfold upgradeDatabase
  cases a.fileExists
  · exact .inr ⟨isNeedEncrypted cfg, by cases isNeedEncrypted cfg <;> rfl⟩
  · cases isNeedEncrypted cfg <;> cases s.userDefaults.isEncrypted self cfg
    · exact .inl rfl
    · exact (hconvert false).imp_right fun h => ⟨false, h⟩
    · exact (hconvert true).imp_right fun h => ⟨true, h⟩
    · exact .inl rfl

theorem Own.upgradeDatabase (hS : ∀ d ∈ S, ∀ e ∈ S, d ≠ e → ¬ Confused d e) (h : Own S D s)
    (hself : self.database cfg ∈ S) (a : Answers) :
    Own S D (s.upgradeDatabase self cfg a).1 := by
  rcases s.upgradeDatabase_cases self cfg a with heq | ⟨b, heq⟩
  · rwa [heq]
  · rw [heq]
    exact h.saveEncryptedStatus hS hself b

end Own

/-! ### Runs of the app -/

/-- The objects of a process, and what outlives it. -/
structure App (ι Path Model : Type) where
  objects : ι → Session.DataBase Path Model
  store : Store

/-- A call on the object `i` under a configuration, or the next launch of the app. -/
inductive Request (ι Path : Type) where
  | setupDBWithDBPath (i : ι) (dbPath : Path)
  | setupDBWithDBPath_isEncrypted (i : ι) (cfg : NBDBConfigure) (dbPath : Path) (isEncrypted : Bool)
  | upgradeDatabase (i : ι) (cfg : NBDBConfigure) (a : Answers)
  | openDB (i : ι) (cfg : NBDBConfigure) (a : Answers) (o : Session.Opening)
  | closeDB (i : ι)
  | launch

namespace App

variable {ι Path Model : Type} [DecidableEq ι] [DecidableEq Path]
variable (isPrivate : ι → Bool) (text : Path → String) (debug : Bool)

/-- The object `i` at a path. -/
def receiver (i : ι) (dbPath : Path) : DataBase := ⟨text dbPath, isPrivate i⟩

def setupDBWithDBPath (i : ι) (dbPath : Path) (s : App ι Path Model) : App ι Path Model :=
  { s with objects := Function.update s.objects i ((s.objects i).setupDBWithDBPath dbPath) }

/-- The path the object has already is not set up again. -/
def setupDBWithDBPath_isEncrypted (i : ι) (cfg : NBDBConfigure) (dbPath : Path)
    (isEncrypted : Bool) (s : App ι Path Model) : App ι Path Model :=
  if (s.objects i).dbPath = some dbPath then s
  else
    { objects := Function.update s.objects i
        ((s.objects i).setupDBWithDBPath_isEncrypted dbPath isEncrypted)
      store := s.store.saveEncryptedStatus (receiver isPrivate text i dbPath) cfg isEncrypted }

/-- `[self upgradeDatabase:_dbPath]`; an object that was not set up has no database. -/
def upgradeDatabase (i : ι) (cfg : NBDBConfigure) (a : Answers) (s : App ι Path Model) :
    App ι Path Model :=
  match (s.objects i).dbPath with
  | none => s
  | some dbPath =>
      { s with store := (s.store.upgradeDatabase (receiver isPrivate text i dbPath) cfg a).1 }

/-- `-openDB`.  A failed `NSAssert1` of the upgrade raises through it; in a release build it goes
on. -/
def openDB (i : ι) (cfg : NBDBConfigure) (a : Answers) (o : Session.Opening)
    (s : App ι Path Model) : App ι Path Model :=
  if (s.objects i).isOpened then s
  else
    match (s.objects i).opensPath text with
    | none => s
    | some dbPath =>
        let self := receiver isPrivate text i dbPath
        let (store, exit) := s.store.upgradeDatabase self cfg a
        if debug && exit = .assertion then { s with store := store }
        else
          let (object, _, success) := (s.objects i).openDB text (isNeedEncrypted cfg) o
          { objects := Function.update s.objects i object
            store := if success then store.saveVersionToLocal self cfg else store }

def closeDB (i : ι) (s : App ι Path Model) : App ι Path Model :=
  { s with objects := Function.update s.objects i (s.objects i).closeDB }

/-- The objects of a new process are those of `-init`. -/
def launch (s : App ι Path Model) : App ι Path Model := { s with objects := fun _ => .init }

def step (s : App ι Path Model) : Request ι Path → App ι Path Model
  | .setupDBWithDBPath i dbPath => s.setupDBWithDBPath i dbPath
  | .setupDBWithDBPath_isEncrypted i cfg dbPath isEncrypted =>
      s.setupDBWithDBPath_isEncrypted isPrivate text i cfg dbPath isEncrypted
  | .upgradeDatabase i cfg a => s.upgradeDatabase isPrivate text i cfg a
  | .openDB i cfg a o => s.openDB isPrivate text debug i cfg a o
  | .closeDB i => s.closeDB i
  | .launch => s.launch

/-- The database a call is about, if it is about one: that of the path it sets up, or of the path
its object has. -/
def about (s : App ι Path Model) : Request ι Path → Option Database
  | .setupDBWithDBPath_isEncrypted i cfg dbPath _ =>
      some ((receiver isPrivate text i dbPath).database cfg)
  | .upgradeDatabase i cfg _ | .openDB i cfg _ _ =>
      (s.objects i).dbPath.map fun dbPath => (receiver isPrivate text i dbPath).database cfg
  | .setupDBWithDBPath _ _ | .closeDB _ | .launch => none

/-- The call is about a database of `S`, if it is about one. -/
def Within (S : Set Database) (s : App ι Path Model) (r : Request ι Path) : Prop :=
  ∀ d ∈ s.about isPrivate text r, d ∈ S

variable {isPrivate text debug} {S : Set Database} {D : Defaults} {s : App ι Path Model}

/-- A call about a database of `S` keeps what is read for the databases of `S` their own. -/
theorem step_own (hS : ∀ d ∈ S, ∀ e ∈ S, d ≠ e → ¬ Confused d e) (h : Own S D s.store)
    {r : Request ι Path} (hr : s.Within isPrivate text S r) :
    Own S D (s.step isPrivate text debug r).store := by
  cases r with
  | setupDBWithDBPath i dbPath => exact h
  | closeDB i => exact h
  | launch => exact h
  | setupDBWithDBPath_isEncrypted i cfg dbPath isEncrypted =>
      change Own S D (s.setupDBWithDBPath_isEncrypted isPrivate text i cfg dbPath isEncrypted).store
      unfold setupDBWithDBPath_isEncrypted
      split
      · exact h
      · exact h.saveEncryptedStatus hS (hr _ rfl) isEncrypted
  | upgradeDatabase i cfg a =>
      change Own S D (s.upgradeDatabase isPrivate text i cfg a).store
      unfold upgradeDatabase
      cases hpath : (s.objects i).dbPath with
      | none => exact h
      | some dbPath => exact h.upgradeDatabase hS (hr _ (by simp [about, hpath])) a
  | openDB i cfg a o =>
      change Own S D (s.openDB isPrivate text debug i cfg a o).store
      unfold openDB
      cases hopens : (s.objects i).opensPath text with
      | none => split <;> exact h
      | some dbPath =>
          have hpath : (s.objects i).dbPath = some dbPath :=
            (Session.DataBase.opensPath_eq_some.mp hopens).2.1
          have hd : (receiver isPrivate text i dbPath).database cfg ∈ S :=
            hr _ (by simp [about, hpath])
          have hup := h.upgradeDatabase hS hd a
          split
          · exact h
          · simp only
            split
            · exact hup
            · split
              · exact hup.saveVersionToLocal hS hd
              · exact hup

end App

/-- **The keys of two databases are different exactly when they are not confused**, and in a run
over databases no two of which are confused, what is read for each is what was saved last for
it. -/
theorem savedStatus_own {ι Path Model : Type} [DecidableEq ι] [DecidableEq Path]
    (isPrivate : ι → Bool) (text : Path → String) (debug : Bool) :
    (∀ (self : DataBase) (cfg : NBDBConfigure) (other : DataBase) (cfg' : NBDBConfigure),
      KeysApart self cfg other cfg' ↔
        ¬ Confused (self.database cfg) (other.database cfg')) ∧
    ∀ S : Set Database, (∀ d ∈ S, ∀ e ∈ S, d ≠ e → ¬ Confused d e) →
      ∀ (objects : ι → Session.DataBase Path Model) (D : Defaults) (rs : List (Request ι Path)),
        Loop.Along (App.Within isPrivate text S) (App.step isPrivate text debug)
          ⟨objects, ⟨D, []⟩⟩ rs →
        Own S D (rs.foldl (App.step isPrivate text debug) ⟨objects, ⟨D, []⟩⟩).store := by
  refine ⟨keysApart_iff, ?_⟩
  intro S hS objects D rs hrs
  exact hrs.invariant (I := fun s => Own S D s.store) (fun s r h hr => App.step_own hS h hr)
    (Own.start S D)

/-! ### Two databases of one name -/

/-- A `common.db` in another directory. -/
def documentsDB : DataBase := ⟨"Documents/common.db", false⟩

/-- The private database of the demo. -/
def userDB : DataBase := ⟨"Caches/12345/user.db", true⟩

/-- A process that sets nothing up, on a device that saved nothing. -/
def fresh : App Bool String Unit := ⟨fun _ => .init, ⟨fun _ => none, []⟩⟩

/-- The common object, `false`, is set up with an encrypted `common.db`, and then `i` with a
plaintext file at `path`. -/
def setUps (i : Bool) (path : String) : List (Request Bool String) :=
  [.setupDBWithDBPath_isEncrypted false (demoConfig "0.0.2") "Caches/common.db" true,
    .setupDBWithDBPath_isEncrypted i (demoConfig "0.0.2") path false]

/-- Beside the private database of a user the common one keeps its status. -/
theorem commonDB_keeps_status :
    ((setUps true userDB.dbPath).foldl (App.step id id true) fresh).store.userDefaults.isEncrypted
      commonDB (demoConfig "0.0.2") = true := by
  have hown := (@savedStatus_own Bool String Unit _ _ id id true).2
    {commonDB.database (demoConfig "0.0.2"), userDB.database (demoConfig "0.0.2")}
    (by
      rintro d (rfl | rfl) e (rfl | rfl) hne
      · exact absurd rfl hne
      · exact not_confused_iff.mpr (by decide)
      · exact not_confused_iff.mpr (by decide)
      · exact absurd rfl hne)
    (fun _ => .init) (fun _ => none) (setUps true userDB.dbPath)
    (by
      refine ⟨?_, ?_, trivial⟩
      · rintro d ⟨⟩
        exact .inl rfl
      · rintro d ⟨⟩
        exact .inr rfl)
  exact (hown.status commonDB (demoConfig "0.0.2") (.inl rfl)).trans (by decide)

/-- Two common databases in two directories have the same keys.  The second one, set up as
plaintext, is what is read for the first one, which was saved as encrypted.  The keys of the
users 1 and 1_2 meet too. -/
theorem common_status_shared :
    commonDB.database (demoConfig "0.0.2") ≠ documentsDB.database (demoConfig "0.0.2") ∧
    ¬ KeysApart commonDB (demoConfig "0.0.2") documentsDB (demoConfig "0.0.2") ∧
    ((setUps false documentsDB.dbPath).foldl (App.step id id true) fresh).store.lastStatus
      (commonDB.database (demoConfig "0.0.2")) = some true ∧
    ((setUps false documentsDB.dbPath).foldl (App.step id id true)
      fresh).store.userDefaults.isEncrypted commonDB (demoConfig "0.0.2") = false ∧
    ¬ KeysApart ⟨"Caches/1/2_user.db", true⟩ { demoConfig "0.0.2" with currentUserId := "1" }
      ⟨"Caches/1_2/user.db", true⟩ { demoConfig "0.0.2" with currentUserId := "1_2" } := by
  refine ⟨by decide, ?_, by decide, by decide, ?_⟩
  · unfold KeysApart
    decide
  · unfold KeysApart
    decide

end NBDataBase
