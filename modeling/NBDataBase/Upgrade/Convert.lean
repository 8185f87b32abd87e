import NBDataBase.Upgrade.Disk

/-!
# Upgrade — `upgradeDatabase:`

`-[NBDataBase upgradeDatabase:]` and the part of `-[NBDataBase openDB]` that a launch runs, from
the source.  A database that must be encrypted and is not, or the other way round, is moved to
`.tmp` and exported from there into a new file at its path.

The two conversion branches of the source have the same text but for the flag they save; they
are `convertDatabase` at `true` and at `false`.
-/

namespace NBDataBase
open Trail

/-! ### Configuration and receiver -/

/-- The values of `NBDBConfigure`.  `+secretkey` asserts that there is a key. -/
structure NBDBConfigure where
  version : String
  smallestEncrypteVersion : String
  isEncrypted : Bool
  secretkey : String
  currentUserId : String
  secretkey_ne : secretkey ≠ ""

/-- An `NBDataBase` object: its path, and whether it is an `NBPrivateDataBase`. -/
structure DataBase where
  dbPath : String
  isPrivate : Bool

/-- `-[NSString lastPathComponent]`. -/
def lastPathComponent (path : String) : String :=
  match path.toList.reverse.dropWhile (· = '/') with
  | [] => if path = "" then "" else "/"
  | cs => String.ofList (cs.takeWhile (· ≠ '/')).reverse

def cacheEncryptedStatusKey (self : DataBase) (cfg : NBDBConfigure) : String :=
  (if self.isPrivate then cfg.currentUserId else "") ++
    ("_" ++ (lastPathComponent self.dbPath ++ "_EncryptedStatus"))

/-- `compare:` is not `NSOrderedAscending`, and encryption is configured. -/
def isNeedEncrypted (cfg : NBDBConfigure) : Bool :=
  !decide (cfg.version < cfg.smallestEncrypteVersion) && cfg.isEncrypted

/-! ### From the source -/

/-- How `upgradeDatabase:` ends: it returns, or its `NSAssert1` fails. -/
inductive Exit where
  | returned | assertion
  deriving DecidableEq, Repr

section

variable {γ : Type} (self : DataBase) (cfg : NBDBConfigure)

def isEncrypted (w : World γ) : Bool :=
  (w.userDefaults (cacheEncryptedStatusKey self cfg)).getD false

/-- A flag that is already saved is not saved again. -/
def saveEncryptedStatus (encrypted : Bool) : Trail Event (World γ) Unit := fun w =>
  if encrypted = isEncrypted self cfg w then ([], ())
  else ([(⟨.saveEncryptedStatus, true⟩,
    w.setDefault (cacheEncryptedStatusKey self cfg) encrypted)], ())

variable (env : Launch γ)

def changeDatabasePath (path : String) : Trail Event (World γ) (Option String) := do
  let tmppath := path ++ ".tmp"
  let result ← moveItemAtPath env path tmppath
  if result then return some tmppath else return none

def removeDatabasePath (path : String) : Trail Event (World γ) Bool :=
  removeItemAtPath env path

variable [EmptyCollection γ]

/-- A conversion branch from the three statements on: their return codes, and that of the
removal, are not looked at. -/
def exportDatabase (tmppath sqlQ : String) (db : Connection) (status : Bool) :
    Trail Event (World γ) Exit := do
  let db ← execAttach env sqlQ db
  execExport env db
  execDetach env db
  let _ ← removeDatabasePath env tmppath
  saveEncryptedStatus self cfg status
  return .returned

/-- The body of a conversion branch; `status` is the flag it saves. -/
def convertDatabase (path : String) (status : Bool) : Trail Event (World γ) Exit := do
  match ← changeDatabasePath env path with
  | none => return .returned
  | some tmppath =>
      let sqlQ := attachSQL path cfg.secretkey
      match ← sqlite3_open env tmppath with
      | some db => exportDatabase self cfg env tmppath sqlQ db status
      | none => return .assertion

def upgradeDatabase (path : String) : Trail Event (World γ) Exit := do
  let needEncrypte := isNeedEncrypted cfg
  let isEncrypted ← Trail.read (isEncrypted self cfg)
  if !(← fileExistsAtPath path) then
    if needEncrypte then saveEncryptedStatus self cfg true
    else saveEncryptedStatus self cfg false
    return .returned
  if needEncrypte && isEncrypted then return .returned
  else if needEncrypte && !isEncrypted then convertDatabase self cfg env path true
  else if !isEncrypted then return .returned
  else convertDatabase self cfg env path false

/-! ### `openDB` on a launch -/

/-- `+[FMDatabaseQueue databaseQueueWithPath:]`, with the `setKey:` block: the file is created
under the connection's key when it is not there. -/
def databaseQueueWithPath (path : String) (key : Option String) :
    Trail Event (World γ) Bool := fun w =>
  if env.fails .databaseQueueWithPath then ([(⟨.databaseQueueWithPath, false⟩, w)], false)
  else ([(⟨.databaseQueueWithPath, true⟩,
    if (w.files path).isSome then w else w.setFile path (some ⟨∅, key⟩))], true)

/-- The tables a connection opened with `key` reads from the file at `path`. -/
def serves (w : World γ) (path : String) (key : Option String) : Option γ :=
  (w.files path).bind fun f => if f.key = key then some f.tables else none

/-- `+[NBDataBase updateTableInDB]` on the queue: `migrate` of the tables it reads. -/
def updateTables (migrate : γ → γ) (path : String) (key : Option String) :
    Trail Event (World γ) Unit := fun w =>
  match serves w path key with
  | some tables => ([(⟨.updateTableInDB, true⟩, fill w path (migrate tables))], ())
  | none => ([], ())

/-- The key `openDB` sets on its queue. -/
def queueKey : Option String := if isNeedEncrypted cfg then some cfg.secretkey else none

/-- The first `openDB` of a process.  A failed `NSAssert1` raises through it; in a release build
it goes on. -/
def openDB (debug : Bool) (migrate : γ → γ) : Trail Event (World γ) Bool := do
  if self.dbPath.length < 1 then return false
  let exit ← upgradeDatabase self cfg env self.dbPath
  if debug && exit = .assertion then return false
  let success ← databaseQueueWithPath env self.dbPath (queueKey cfg)
  if success then updateTables migrate self.dbPath (queueKey cfg)
  return success

end

end NBDataBase
