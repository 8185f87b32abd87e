import NBDataBase.Upgrade.Convert

/-!
# Upgrade — what a conversion does when its calls succeed

* `convertDatabase_run`, `exportDatabase_run`: the trail of a conversion branch whose move, open
  and `ATTACH` succeed.  `moved`, `attached`, `exported` are the worlds after these steps, and
  `finish` is the rest of the branch.
* `exported_readable`, `exported_unreadable`: the connection of a conversion is never keyed, so
  the export copies a plaintext `.tmp` and copies nothing from an encrypted one.
* `upgradeDatabase_keeps_iff`: an upgrade whose file operations, opens and `ATTACH` succeed
  keeps the data and reaches the wanted encryption exactly when it is not a decryption and,
  when it encrypts, neither the path nor the key has a quote.
-/

namespace NBDataBase
open Trail Sql

variable {γ : Type}

/-! ### The worlds of a conversion -/

/-- The file at `path` moved to `path.tmp`. -/
def moved (w : World γ) (path : String) : World γ :=
  (w.setFile (path ++ ".tmp") (w.files path)).setFile path none

theorem tmp_ne (path : String) : path ++ ".tmp" ≠ path := fun h => by
  have := congrArg String.length h
  simp [String.length_append] at this

theorem moved_path (w : World γ) (path : String) : (moved w path).files path = none := by
  simp [moved]

theorem moved_tmp (w : World γ) (path : String) :
    (moved w path).files (path ++ ".tmp") = w.files path := by
  simp [moved, World.setFile_files_of_ne _ _ (tmp_ne path)]

@[simp] theorem moved_userDefaults (w : World γ) (path : String) :
    (moved w path).userDefaults = w.userDefaults := rfl

theorem fill_self {w : World γ} {path : String} {f : DbFile γ} (h : w.files path = some f)
    (t : γ) : (fill w path t).files path = some { f with tables := t } := by
  simp [fill, h]

theorem fill_other (w : World γ) {path q : String} (t : γ) (h : q ≠ path) :
    (fill w path t).files q = w.files q := by
  simp [fill, World.setFile_files_of_ne _ _ h]

/-- Filling a file leaves every file in its place. -/
theorem fill_isSome (w : World γ) (path q : String) (t : γ) :
    ((fill w path t).files q).isSome = (w.files q).isSome := by
  by_cases h : q = path
  · subst h; simp [fill]
  · rw [fill_other w t h]

/-- The world after an export that the environment does not make fail. -/
def exported (w : World γ) (tmp path : String) : World γ :=
  match readable w tmp with
  | some tables => fill w path tables
  | none => w

theorem exported_readable {w : World γ} {tmp path : String} {tables : γ}
    (h : w.files tmp = some ⟨tables, none⟩) : exported w tmp path = fill w path tables := by
  simp [exported, readable, h]

theorem exported_unreadable {w : World γ} {tmp path : String} {tables : γ} {k : String}
    (h : w.files tmp = some ⟨tables, some k⟩) : exported w tmp path = w := by
  simp [exported, readable, h]

theorem exported_isSome (w : World γ) (tmp path q : String) :
    ((exported w tmp path).files q).isSome = (w.files q).isSome := by
  unfold exported
  split
  · exact fill_isSome w path q _
  · rfl

/-! ### The end of a conversion branch -/

section Finish

variable (self : DataBase) (cfg : NBDBConfigure) (env : Launch γ)

theorem saveEncryptedStatus_files (b : Bool) (w : World γ) :
    ((saveEncryptedStatus self cfg b).final w).files = w.files := by
  unfold final saveEncryptedStatus
  split <;> rfl

theorem saveEncryptedStatus_isEncrypted (b : Bool) (w : World γ) :
    isEncrypted self cfg ((saveEncryptedStatus self cfg b).final w) = b := by
  unfold final saveEncryptedStatus
  split
  · exact (‹b = _›).symm
  · simp [isEncrypted]

/-- The detach, the removal of `.tmp` and the flag. -/
def finish (tmp : String) (db : Connection) (status : Bool) : Trail Event (World γ) Exit := do
  execDetach env db
  let _ ← removeDatabasePath env tmp
  saveEncryptedStatus self cfg status
  return .returned

variable {self cfg env} {w : World γ} {tmp : String} {db : Connection} {status : Bool}

theorem finish_run : finish self cfg env tmp db status w =
    ((⟨.detach, db.encrypted.isSome && !env.fails .detach⟩, w) ::
      ((removeItemAtPath env tmp w).1 ++
        (saveEncryptedStatus self cfg status ((removeItemAtPath env tmp).final w)).1),
      .returned) := by
  simp [finish, run_bind, removeDatabasePath, execDetach, final, run_pure]

theorem finish_files (hr : env.fails .removeItem = false) (ht : (w.files tmp).isSome) :
    ((finish self cfg env tmp db status).final w).files = (w.setFile tmp none).files := by
  have hrem : (removeItemAtPath env tmp).final w = w.setFile tmp none := by
    simp [removeItemAtPath, final, hr, Option.isSome_iff_ne_none.mp ht]
  simp only [final, finish_run, endOf_cons, endOf_append]
  exact (saveEncryptedStatus_files self cfg status _).trans (congrArg World.files hrem)

theorem finish_isEncrypted :
    isEncrypted self cfg ((finish self cfg env tmp db status).final w) = status := by
  simp only [final, finish_run, endOf_cons, endOf_append]
  exact saveEncryptedStatus_isEncrypted self cfg status _

end Finish

/-- What a conversion is for: the file at the path has the same tables and rows and the
encryption that is asked for, the flag says so, and no `.tmp` file is left. -/
structure Converted (db : DataBase) (cfg : NBDBConfigure) (w w' : World γ) : Prop where
  file : ∃ f f', w.files db.dbPath = some f ∧ w'.files db.dbPath = some f' ∧
    f'.tables = f.tables ∧ f'.key = queueKey cfg
  status : isEncrypted db cfg w' = isNeedEncrypted cfg
  no_tmp : w'.files (db.dbPath ++ ".tmp") = none

/-- Every call of a trail but the export returned its good code. -/
def CallsOk (l : List (Event × World γ)) : Prop :=
  ∀ p ∈ l, p.1.call ≠ .export → p.1.ok = true

/-- Decidable reading of `CallsOk`. -/
theorem callsOk_of_all {l : List (Event × World γ)}
    (h : l.all (fun p => p.1.call = .export ∨ p.1.ok) = true) : CallsOk l := by
  intro p hp hne
  have := List.all_eq_true.mp h p hp
  simpa [hne] using this

/-! ### The trail of a conversion -/

variable [EmptyCollection γ]

/-- The target of an accepted `ATTACH`, created when it is not there. -/
def attached (w : World γ) (path : String) (key : Option String) : World γ :=
  if (w.files path).isSome then w else w.setFile path (some ⟨∅, key⟩)

@[simp] theorem attached_userDefaults (w : World γ) (path : String) (key : Option String) :
    (attached w path key).userDefaults = w.userDefaults := by
  unfold attached; split <;> rfl

theorem attached_of_none {w : World γ} {path : String} (h : w.files path = none)
    (key : Option String) : (attached w path key).files path = some ⟨∅, key⟩ := by
  simp [attached, h]

/-- A file that exists is not changed by an `ATTACH`. -/
theorem attached_of_some {w : World γ} {q : String} {f : DbFile γ} (h : w.files q = some f)
    (path : String) (key : Option String) : (attached w path key).files q = some f := by
  unfold attached
  split
  · exact h
  · have hne : q ≠ path := fun e => by simp_all
    rw [World.setFile_files_of_ne _ _ hne, h]

/-- `ATTACH` makes no file elsewhere. -/
theorem attached_other (w : World γ) {q path : String} (key : Option String) (h : q ≠ path) :
    (attached w path key).files q = w.files q := by
  unfold attached
  split
  · rfl
  · rw [World.setFile_files_of_ne _ _ h]

variable (self : DataBase) (cfg : NBDBConfigure) (env : Launch γ)

theorem convertDatabase_run {w : World γ} {path : String} {f : DbFile γ} (status : Bool)
    (hm : env.fails .moveItem = false) (ho : env.fails .sqlite3_open = false)
    (hf : w.files path = some f) (ht : w.files (path ++ ".tmp") = none) :
    convertDatabase self cfg env path status w =
      ((⟨.moveItem, true⟩, moved w path) :: (⟨.sqlite3_open, true⟩, moved w path) ::
        (exportDatabase self cfg env (path ++ ".tmp") (attachSQL path cfg.secretkey)
          ⟨path ++ ".tmp", none⟩ status (moved w path)).1,
        (exportDatabase self cfg env (path ++ ".tmp") (attachSQL path cfg.secretkey)
          ⟨path ++ ".tmp", none⟩ status (moved w path)).2) := by
  simp [convertDatabase, changeDatabasePath, run_bind, moveItemAtPath, sqlite3_open, hm, ho, hf,
    ht, final, run_pure, moved]

theorem exportDatabase_run {w : World γ} {tmp sql path : String} {key : Option String}
    (status : Bool) (ha : env.fails .attach = false) (he : env.fails .export = false)
    (ht : attachTarget w sql = some (path, key)) :
    exportDatabase self cfg env tmp sql ⟨tmp, none⟩ status w =
      ((⟨.attach, true⟩, attached w path key) ::
        (⟨.export, (readable (attached w path key) tmp).isSome⟩,
          exported (attached w path key) tmp path) ::
        (finish self cfg env tmp ⟨tmp, some path⟩ status
          (exported (attached w path key) tmp path)).1, .returned) := by
  have hexp : execExport env ⟨tmp, some path⟩ (attached w path key) =
      ([(⟨.export, (readable (attached w path key) tmp).isSome⟩,
        exported (attached w path key) tmp path)], ()) := by
    simp only [execExport, exported, he]
    cases readable (attached w path key) tmp <;> simp
  have hatt : execAttach env sql ⟨tmp, none⟩ w =
      ([(⟨.attach, true⟩, attached w path key)], ⟨tmp, some path⟩) := by
    simp [execAttach, ha, ht, attached]
  simp [exportDatabase, run_bind, hatt, hexp, final, finish, run_pure]

/-! ### An upgrade whose calls succeed -/

section Succeeds

variable {self cfg env} {w : World γ} {f : DbFile γ} {status : Bool}

/-- What the good return codes of a conversion say of the environment and of the `ATTACH`. -/
theorem CallsOk.convert {path : String}
    (hok : CallsOk (convertDatabase self cfg env path status w).1)
    (he : env.fails .export = false) (hf : w.files path = some f)
    (ht : w.files (path ++ ".tmp") = none) :
    env.fails .moveItem = false ∧ env.fails .sqlite3_open = false ∧
      env.fails .attach = false ∧ env.fails .removeItem = false ∧
      ∃ p k, attachTarget (moved w path) (attachSQL path cfg.secretkey) = some (p, k) := by
  have hm : env.fails .moveItem = false := by
    by_contra h
    have := hok (⟨.moveItem, false⟩, w) (by
      simp [convertDatabase, changeDatabasePath, run_bind, moveItemAtPath, h]) (by simp)
    cases this
  have ho : env.fails .sqlite3_open = false := by
    by_contra h
    have := hok (⟨.sqlite3_open, false⟩, moved w path) (by
      simp [convertDatabase, changeDatabasePath, run_bind, moveItemAtPath, sqlite3_open, hm, hf,
        ht, h, final, run_pure, moved]) (by simp)
    cases this
  rw [convertDatabase_run self cfg env status hm ho hf ht] at hok
  have ha : env.fails .attach = false ∧
      ∃ p k, attachTarget (moved w path) (attachSQL path cfg.secretkey) = some (p, k) := by
    cases h : (if env.fails .attach then none
        else attachTarget (moved w path) (attachSQL path cfg.secretkey)) with
    | none =>
        have := hok (⟨.attach, false⟩, moved w path) (by
          simp [exportDatabase, run_bind, execAttach, h]) (by simp)
        cases this
    | some t =>
        split at h
        · cases h
        · exact ⟨eq_false_of_ne_true ‹_›, t.1, t.2, h⟩
  obtain ⟨ha, p, k, htgt⟩ := ha
  refine ⟨hm, ho, ha, ?_, p, k, htgt⟩
  rw [exportDatabase_run self cfg env status ha he htgt, finish_run] at hok
  by_contra h
  have := hok (⟨.removeItem, false⟩, _) (by
    simp only [List.mem_cons, List.mem_append]
    exact .inr (.inr (.inr (.inr (.inr (.inl (by simp [removeItemAtPath, h]; rfl)))))))
    (by simp)
  cases this

/-- The files a conversion ends with. -/
theorem convertDatabase_final (status : Bool) {path p : String} {k : Option String}
    (hm : env.fails .moveItem = false) (ho : env.fails .sqlite3_open = false)
    (ha : env.fails .attach = false) (hr : env.fails .removeItem = false)
    (he : env.fails .export = false) (hf : w.files path = some f)
    (ht : w.files (path ++ ".tmp") = none)
    (htgt : attachTarget (moved w path) (attachSQL path cfg.secretkey) = some (p, k)) :
    ((convertDatabase self cfg env path status).final w).files =
        ((exported (attached (moved w path) p k) (path ++ ".tmp") p).setFile
          (path ++ ".tmp") none).files ∧
      isEncrypted self cfg ((convertDatabase self cfg env path status).final w) = status := by
  have htmp : (attached (moved w path) p k).files (path ++ ".tmp") = some f :=
    attached_of_some (by rw [moved_tmp, hf]) p k
  simp only [final, convertDatabase_run self cfg env status hm ho hf ht,
    exportDatabase_run self cfg env status ha he htgt, endOf_cons]
  refine ⟨finish_files hr ?_, finish_isEncrypted⟩
  rw [exported_isSome, htmp]
  rfl

/-- A plaintext file is copied to the file the `ATTACH` text names. -/
theorem exported_plain {path p : String} {k : Option String} {tables : γ}
    (hf : w.files path = some ⟨tables, none⟩) :
    (exported (attached (moved w path) p k) (path ++ ".tmp") p).files path =
      if p = path then some ⟨tables, k⟩ else none := by
  rw [exported_readable (attached_of_some (by rw [moved_tmp, hf]) p k)]
  split
  · subst p
    rw [fill_self (attached_of_none (moved_path w path) k)]
  · rw [fill_other _ _ (Ne.symm ‹_›), attached_other _ _ (Ne.symm ‹_›), moved_path]

/-- Of an encrypted file nothing is copied. -/
theorem exported_keyed {path p key : String} {k : Option String} {tables : γ}
    (hf : w.files path = some ⟨tables, some key⟩) :
    (exported (attached (moved w path) p k) (path ++ ".tmp") p).files path =
      if p = path then some ⟨∅, k⟩ else none := by
  rw [exported_unreadable (attached_of_some (by rw [moved_tmp, hf]) p k)]
  split
  · subst p
    exact attached_of_none (moved_path w path) k
  · rw [attached_other _ _ (Ne.symm ‹_›), moved_path]

theorem keyOf_eq_some {key k : String} (h : k ≠ "") : keyOf key = some k ↔ key = k := by
  unfold keyOf
  split
  · subst key; simp [h.symm]
  · simp

end Succeeds

/-- With a file at its path, `upgradeDatabase:` does nothing or is a conversion branch. -/
theorem upgradeDatabase_run {w : World γ} {path : String} {f : DbFile γ}
    (hf : w.files path = some f) :
    upgradeDatabase self cfg env path w =
      if isNeedEncrypted cfg = isEncrypted self cfg w then ([], .returned)
      else convertDatabase self cfg env path (isNeedEncrypted cfg) w := by
  have hread : ((Trail.read (isEncrypted self cfg) : Trail Event (World γ) Bool) w) =
      ([], isEncrypted self cfg w) := rfl
  simp only [upgradeDatabase, run_bind, hread, final, fileExistsAtPath, run_read]
  cases isNeedEncrypted cfg <;> cases isEncrypted self cfg w <;> simp [run_pure, hf]

/-- **An upgrade whose calls succeed keeps the data exactly when it is no decryption and the
`ATTACH` text of an encryption reads back.**  The start is a file whose flag is truthful, with
no `.tmp` beside it. -/
theorem upgradeDatabase_keeps_iff {w : World γ} {f : DbFile γ}
    (hf : w.files self.dbPath = some f) (ht : w.files (self.dbPath ++ ".tmp") = none)
    (hstatus : f.key = if isEncrypted self cfg w then some cfg.secretkey else none)
    (hexport : env.fails .export = false)
    (hok : CallsOk (upgradeDatabase self cfg env self.dbPath w).1) :
    Converted self cfg w ((upgradeDatabase self cfg env self.dbPath).final w) ↔
      ¬ (isNeedEncrypted cfg = false ∧ isEncrypted self cfg w = true) ∧
      (isNeedEncrypted cfg = true ∧ isEncrypted self cfg w = false →
        Plain self.dbPath.toList ∧ Plain cfg.secretkey.toList) := by
  rw [upgradeDatabase_run self cfg env hf] at hok
  simp only [final, upgradeDatabase_run self cfg env hf]
  by_cases hne : isNeedEncrypted cfg = isEncrypted self cfg w
  · -- nothing to convert: the file and the flag are already what is asked for
    rw [if_pos hne]
    have hkey : f.key = queueKey cfg := by rw [hstatus, queueKey, hne]
    refine iff_of_true ⟨⟨f, f, hf, hf, rfl, hkey⟩, hne.symm, ht⟩ ⟨fun h => ?_, fun h => ?_⟩ <;>
      simp_all
  rw [if_neg hne] at hok ⊢
  obtain ⟨hm, ho, ha, hr, p, k, htgt⟩ := hok.convert hexport hf ht
  obtain ⟨key, hparse, rfl⟩ := attachTarget_eq_some htgt
  obtain ⟨hfiles, hflag⟩ := convertDatabase_final (isNeedEncrypted cfg) hm ho ha hr
    hexport hf ht htgt
  simp only [final] at hfiles hflag
  have hpath := congrFun hfiles self.dbPath
  rw [World.setFile_files_of_ne _ _ (tmp_ne _).symm] at hpath
  obtain ⟨tables, fkey⟩ := f
  cases hneed : isNeedEncrypted cfg with
  | true =>
      -- the encrypting branch: the file is plaintext, and the export fills the target
      have henc : isEncrypted self cfg w = false := by simpa [hneed] using hne
      obtain rfl : fkey = none := by simpa [henc] using hstatus
      rw [exported_plain hf] at hpath
      simp only [henc, Bool.true_eq_false, false_and, not_false_eq_true, true_and,
        and_self, forall_const]
      constructor
      · rintro ⟨⟨g, g', hg, hg', -, hk⟩, -, -⟩
        rw [hneed] at hpath
        rw [hpath] at hg'
        split at hg'
        · obtain rfl := Option.some.inj hg'
          have hkey : key = cfg.secretkey :=
            (keyOf_eq_some cfg.secretkey_ne).mp (by simpa [queueKey, hneed] using hk)
          exact ⟨(parseAttach_path hparse ‹_›).1, (parseAttach_key hparse ‹_›).1 hkey⟩
        · cases hg'
      · rintro ⟨hp, hk⟩
        obtain ⟨rfl, rfl⟩ := Prod.mk.inj
          (Option.some.inj (hparse.symm.trans (parseAttach_plain hp hk)))
        rw [hneed, if_pos rfl] at hpath
        refine ⟨⟨_, _, hf, hpath, rfl, ?_⟩, ?_, ?_⟩
        · simp [queueKey, hneed, keyOf, cfg.secretkey_ne]
        · rw [hneed] at hflag; exact hflag.trans hneed.symm
        · rw [hneed] at hfiles; simp [hfiles]
  | false =>
      -- the decrypting branch: the connection is not keyed, and nothing is exported
      have henc : isEncrypted self cfg w = true := by simpa [hneed] using hne
      obtain rfl : fkey = some cfg.secretkey := by simpa [henc] using hstatus
      rw [exported_keyed hf] at hpath
      refine iff_of_false ?_ (fun h => h.1 ⟨rfl, henc⟩)
      rintro ⟨⟨g, g', hg, hg', -, hk⟩, -, -⟩
      rw [hneed] at hpath
      rw [hpath] at hg'
      split at hg'
      · obtain rfl := Option.some.inj hg'
        have hk' : keyOf key = none := by simpa [queueKey, hneed] using hk
        have hkey : key = "" := by
          by_contra h; simp [keyOf, h] at hk'
        exact (parseAttach_key hparse ‹_›).2 cfg.secretkey_ne hkey
      · cases hg'

/-! ### At a common database -/

/-- `common.db` of the demo. -/
def commonDB : DataBase := ⟨"Caches/common.db", false⟩

/-- The configuration of the demo, at an earlier or a later version. -/
def demoConfig (version : String) : NBDBConfigure where
  version := version
  smallestEncrypteVersion := "0.0.2"
  isEncrypted := true
  secretkey := "12345690po"
  currentUserId := "12345"
  secretkey_ne := by decide

/-- Nothing fails and the process does not die. -/
def calm : Launch (List String) := ⟨fun _ => false, [], none⟩

/-- One file at `path`, and one flag. -/
def oneFile (path : String) (f : DbFile (List String)) (flag : String) (b : Bool) :
    World (List String) where
  files p := if p = path then some f else none
  userDefaults k := if k = flag then some b else none

/-- A plaintext `common.db`, and an encrypted one. -/
def plainCommon : World (List String) :=
  oneFile "Caches/common.db" ⟨["books"], none⟩ "_common.db_EncryptedStatus" false

def encryptedCommon : World (List String) :=
  oneFile "Caches/common.db" ⟨["books"], some "12345690po"⟩ "_common.db_EncryptedStatus" true

/-- The encryption of a plaintext `common.db` keeps its tables. -/
theorem upgradeDatabase_keeps_common :
    Converted commonDB (demoConfig "0.0.2") plainCommon
      ((upgradeDatabase commonDB (demoConfig "0.0.2") calm "Caches/common.db").final
        plainCommon) :=
  (upgradeDatabase_keeps_iff commonDB (demoConfig "0.0.2") calm (f := ⟨["books"], none⟩)
    (by decide) (by decide) (by decide) (by decide) (callsOk_of_all (by decide))).mpr
    ⟨by decide, fun _ => ⟨by decide, by decide⟩⟩

/-- The decryption of an encrypted `common.db`: no call fails, the tables are gone, the file at
the path is a new one under the key, and the flag says plaintext. -/
theorem decryption_loses_tables :
    encryptedCommon.files "Caches/common.db" = some ⟨["books"], some "12345690po"⟩ ∧
    encryptedCommon.files "Caches/common.db.tmp" = none ∧
    isNeedEncrypted (demoConfig "0.0.1") = false ∧
    isEncrypted commonDB (demoConfig "0.0.1") encryptedCommon = true ∧
    CallsOk (upgradeDatabase commonDB (demoConfig "0.0.1") calm "Caches/common.db"
      encryptedCommon).1 ∧
    ((upgradeDatabase commonDB (demoConfig "0.0.1") calm "Caches/common.db").final
      encryptedCommon).files "Caches/common.db" = some ⟨[], some "12345690po"⟩ ∧
    isEncrypted commonDB (demoConfig "0.0.1")
      ((upgradeDatabase commonDB (demoConfig "0.0.1") calm "Caches/common.db").final
        encryptedCommon) = false ∧
    ¬ Converted commonDB (demoConfig "0.0.1") encryptedCommon
      ((upgradeDatabase commonDB (demoConfig "0.0.1") calm "Caches/common.db").final
        encryptedCommon) := by
  refine ⟨by decide, by decide, by decide, by decide, callsOk_of_all (by decide), by decide,
    by decide, ?_⟩
  rintro ⟨⟨f, f', hf, hf', htables, -⟩, -, -⟩
  have h : f = ⟨["books"], some "12345690po"⟩ := Option.some.inj (hf.symm.trans (by decide))
  have h' : f' = ⟨[], some "12345690po"⟩ := Option.some.inj (hf'.symm.trans (by decide))
  rw [h, h'] at htables
  cases htables

end NBDataBase
