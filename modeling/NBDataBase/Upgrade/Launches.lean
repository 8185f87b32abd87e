import NBDataBase.Upgrade.Conversion

/-!
# Upgrade — launches that fail or die

The app is launched again and again; each process runs `openDB` once, in an environment that
makes calls fail and may stop the process between any two effects.  The path, the secret key
and the user are those of `cfg`; the version may change from launch to launch.

* `Held`: the file at the path or the `.tmp` file has all of the tables `c`.  `Complete`: the
  file at the path has.
* `LosesNothing`: what one launch owes `c`.  `LoseNothing`: what a run of launches owes it.
* `SafeLaunch`: the condition, on the state before a launch and on what its environment does,
  under which it pays.  It asks that a successful move be that of a plaintext file, that the
  steps after it up to the export succeed, and that the process live until then.
* `safe_run_loses_nothing`: a run of safe launches loses nothing.

A launch that is not safe reaches the unchecked return codes of `upgradeDatabase:`:
`failed_export_loses_tables`.
-/

namespace NBDataBase
open Trail Sql

variable {γ : Type}

/-! ### Launches -/

/-- One process: its environment, and the release of the app that runs. -/
structure Process (γ : Type) extends Launch γ where
  version : String
  smallestEncrypteVersion : String
  isEncrypted : Bool

/-- The configuration of a process. -/
def NBDBConfigure.on (cfg : NBDBConfigure) (p : Process γ) : NBDBConfigure :=
  { cfg with
    version := p.version
    smallestEncrypteVersion := p.smallestEncrypteVersion
    isEncrypted := p.isEncrypted }

/-- The part of a trail a process gets to perform. -/
def cut (dies : Option ℕ) (l : List (Event × World γ)) : List (Event × World γ) :=
  match dies with
  | none => l
  | some n => l.take n

section Owed

variable (db : DataBase) (cfg : NBDBConfigure)

/-- The file at the path has all of `c`. -/
def Complete (c : γ) (w : World γ) : Prop := ∃ k, w.files db.dbPath = some ⟨c, k⟩

/-- The file at the path or the `.tmp` file has all of `c`. -/
def Held (c : γ) (w : World γ) : Prop :=
  Complete db c w ∨ ∃ k, w.files (db.dbPath ++ ".tmp") = some ⟨c, k⟩

/-- The `.tmp` file is removed only beside a complete copy, and the flag changes only together
with one. -/
def Guards (c : γ) (w w' : World γ) : Prop :=
  (w.files (db.dbPath ++ ".tmp") ≠ none → w'.files (db.dbPath ++ ".tmp") = none →
    Complete db c w) ∧
  (isEncrypted db cfg w' ≠ isEncrypted db cfg w → Complete db c w')

variable [EmptyCollection γ] (debug : Bool) (migrate : γ → γ)

/-- The effects of a process from `w`. -/
def launch (p : Process γ) (w : World γ) : List (Event × World γ) :=
  cut p.dies (openDB db (cfg.on p) p.toLaunch debug migrate w).1

/-- What a process leaves. -/
def boot (p : Process γ) (w : World γ) : World γ := endOf w (launch db cfg debug migrate p w)

/-- What one launch owes the content `c`: it is held in every state, the `.tmp` file and the flag
are guarded, and a launch that lives and in which no step fails serves it. -/
structure LosesNothing (c : γ) (p : Process γ) (w : World γ) : Prop where
  held : ∀ q ∈ launch db cfg debug migrate p w, Held db c q.2
  guards : Linked (Guards db cfg c) w (launch db cfg debug migrate p w)
  serves : p.dies = none → (∀ q ∈ launch db cfg debug migrate p w, q.1.ok = true) →
    serves (boot db cfg debug migrate p w) db.dbPath (queueKey (cfg.on p)) = some c

/-- Every launch of a run loses nothing. -/
def LoseNothing (c : γ) : List (Process γ) → World γ → Prop
  | [], _ => True
  | p :: ps, w => LosesNothing db cfg debug migrate c p w ∧
      LoseNothing c ps (boot db cfg debug migrate p w)

end Owed

/-! ### Safe launches -/

section Safe

variable (db : DataBase) (cfg : NBDBConfigure)

/-- The move to `.tmp` does not happen. -/
def NotMoved (p : Process γ) (w : World γ) : Prop :=
  p.fails .moveItem = true ∨ w.files (db.dbPath ++ ".tmp") ≠ none ∨ p.dies = some 0

/-- An encryption of a plaintext file that lives past its export. -/
structure Encrypts (p : Process γ) (w : World γ) : Prop where
  need : isNeedEncrypted (cfg.on p) = true
  plaintext : ∃ t, w.files db.dbPath = some ⟨t, none⟩
  path : Plain db.dbPath.toList
  key : Plain cfg.secretkey.toList
  opens : p.fails .sqlite3_open = false
  attaches : p.fails .attach = false
  exports : p.fails .export = false
  lives : ∀ n, p.dies = some n → 4 ≤ n

/-- The condition on a launch from `w`.  Where nothing is to be converted, the file is encrypted
as the queue expects, or the process does not get to use it. -/
def SafeLaunch (p : Process γ) (w : World γ) : Prop :=
  if isNeedEncrypted (cfg.on p) = isEncrypted db cfg w then
    p.dies ≠ none ∨ p.fails .databaseQueueWithPath = true ∨
      ∃ t, w.files db.dbPath = some ⟨t, queueKey (cfg.on p)⟩
  else NotMoved db p w ∨ Encrypts db cfg p w

variable [EmptyCollection γ] (debug : Bool) (migrate : γ → γ)

/-- Every launch of a run is safe where it starts. -/
def SafeRun : List (Process γ) → World γ → Prop
  | [], _ => True
  | p :: ps, w => SafeLaunch db cfg p w ∧ SafeRun ps (boot db cfg debug migrate p w)

end Safe

/-! ### What `openDB` does after the upgrade -/

section Opening

variable [EmptyCollection γ] (self : DataBase) (cfg : NBDBConfigure) (env : Launch γ)
  (debug : Bool) (migrate : γ → γ)

/-- `openDB` from the queue on. -/
def opening : Trail Event (World γ) Bool := do
  let success ← databaseQueueWithPath env self.dbPath (queueKey cfg)
  if success then updateTables migrate self.dbPath (queueKey cfg)
  return success

variable {self cfg env debug migrate} {w : World γ} {c : γ} {k : Option String}

theorem openDB_run (hne : self.dbPath ≠ "") :
    (openDB self cfg env debug migrate w).1 =
      (upgradeDatabase self cfg env self.dbPath w).1 ++
        if debug = true ∧ (upgradeDatabase self cfg env self.dbPath w).2 = .assertion then []
        else (opening self cfg env migrate
          ((upgradeDatabase self cfg env self.dbPath).final w)).1 := by
  have hlen : ¬ self.dbPath.length < 1 := by
    rw [Nat.lt_one_iff, String.length_eq_zero_iff]; exact hne
  simp only [openDB, hlen, if_false, run_bind]
  split <;> simp_all [run_pure, opening, run_bind]

/-- Opening a file that is there, with up-to-date tables, leaves it as it is. -/
theorem opening_keeps (hw : w.files self.dbPath = some ⟨c, k⟩) (hmig : migrate c = c) :
    ∀ q ∈ (opening self cfg env migrate w).1, q.2.files self.dbPath = some ⟨c, k⟩ := by
  have hqueue : (databaseQueueWithPath env self.dbPath (queueKey cfg)).final w = w := by
    simp only [final, databaseQueueWithPath]
    split <;> simp [hw]
  have hmem : ∀ q ∈ (databaseQueueWithPath env self.dbPath (queueKey cfg) w).1,
      q.2.files self.dbPath = some ⟨c, k⟩ := by
    simp only [databaseQueueWithPath]
    split <;> simp [hw]
  have hupd : ∀ q ∈ (updateTables migrate self.dbPath (queueKey cfg) w).1,
      q.2.files self.dbPath = some ⟨c, k⟩ := by
    by_cases hk : k = queueKey cfg
    · simp [updateTables, serves, hw, hk, hmig, fill]
    · simp [updateTables, serves, hw, hk]
  intro q hq
  simp only [opening, run_bind, hqueue, List.mem_append] at hq
  rcases hq with hq | hq
  · exact hmem q hq
  · split at hq
    · simp only [run_bind, run_pure, List.append_nil] at hq
      exact hupd q hq
    · simp [run_pure] at hq

end Opening

/-! ### A launch that leaves the file in its place -/

theorem mem_of_mem_cut {d : Option ℕ} {l : List (Event × World γ)} {q : Event × World γ}
    (h : q ∈ cut d l) : q ∈ l := by
  cases d with
  | none => exact h
  | some n => exact List.mem_of_mem_take h

theorem endOf_cut_of_forall {I : World γ → Prop} {w : World γ} {l : List (Event × World γ)}
    (hw : I w) (hl : ∀ q ∈ l, I q.2) (d : Option ℕ) : I (endOf w (cut d l)) := by
  cases d with
  | none => exact endOf_of_forall hw hl
  | some n => exact endOf_take_of_forall hw hl n

theorem Linked.cut {G : World γ → World γ → Prop} {w : World γ} {l : List (Event × World γ)}
    (h : Linked G w l) (d : Option ℕ) : Linked G w (cut d l) := by
  cases d with
  | none => exact h
  | some n => exact h.take n

/-- Between complete copies nothing is lost. -/
theorem Complete.guards {self : DataBase} {cfg : NBDBConfigure} {c : γ} {w w' : World γ}
    (h : Complete self c w) (h' : Complete self c w') : Guards self cfg c w w' :=
  ⟨fun _ _ => h, fun _ => h'⟩

/-- A file encrypted as the queue expects is served. -/
theorem serves_of_file {w : World γ} {c : γ} {path : String} {key : Option String}
    (h : w.files path = some ⟨c, key⟩) : serves w path key = some c := by
  simp [serves, h]

section Launch

variable [EmptyCollection γ] {self : DataBase} {cfg : NBDBConfigure} {debug : Bool}
  {migrate : γ → γ} {p : Process γ} {w : World γ} {c : γ}

/-- A launch all of whose states have a complete copy loses nothing, if it serves it. -/
theorem losesNothing_of_complete (hw : Complete self c w)
    (hl : ∀ q ∈ launch self cfg debug migrate p w, Complete self c q.2)
    (hs : p.dies = none → (∀ q ∈ launch self cfg debug migrate p w, q.1.ok = true) →
      serves (boot self cfg debug migrate p w) self.dbPath (queueKey (cfg.on p)) = some c) :
    LosesNothing self cfg debug migrate c p w where
  held q hq := .inl (hl q hq)
  guards := linked_of_forall (fun _ _ h h' => h.guards h') hw hl
  serves := hs

/-- Where nothing is to be converted, `openDB` leaves the file as it is. -/
theorem openDB_of_eq (hne : self.dbPath ≠ "") {k : Option String}
    (hw : w.files self.dbPath = some ⟨c, k⟩) (hmig : migrate c = c) {cfg : NBDBConfigure}
    (he : isNeedEncrypted cfg = isEncrypted self cfg w) (env : Launch γ) (debug : Bool) :
    ∀ q ∈ (openDB self cfg env debug migrate w).1, q.2.files self.dbPath = some ⟨c, k⟩ := by
  have hup := upgradeDatabase_run self cfg env hw
  rw [if_pos he] at hup
  rw [openDB_run hne, hup]
  simpa [final, hup] using opening_keeps hw hmig

/-- Where nothing is to be converted, a queue that fails is a failed step. -/
theorem queue_fails (hne : self.dbPath ≠ "") {k : Option String}
    (hw : w.files self.dbPath = some ⟨c, k⟩) {cfg : NBDBConfigure}
    (he : isNeedEncrypted cfg = isEncrypted self cfg w) {env : Launch γ}
    (hq : env.fails .databaseQueueWithPath = true) :
    (⟨.databaseQueueWithPath, false⟩, w) ∈ (openDB self cfg env debug migrate w).1 := by
  have hup := upgradeDatabase_run self cfg env hw
  rw [if_pos he] at hup
  rw [openDB_run hne, hup]
  simp [final, hup, opening, run_bind, databaseQueueWithPath, hq]

/-- Where the move does not happen, `openDB` leaves the file as it is, and the move is a failed
step. -/
theorem openDB_of_notMoved (hne : self.dbPath ≠ "") {k : Option String}
    (hw : w.files self.dbPath = some ⟨c, k⟩) (hmig : migrate c = c) {cfg : NBDBConfigure}
    (he : isNeedEncrypted cfg ≠ isEncrypted self cfg w) {env : Launch γ}
    (hn : env.fails .moveItem = true ∨ w.files (self.dbPath ++ ".tmp") ≠ none) (debug : Bool) :
    (∀ q ∈ (openDB self cfg env debug migrate w).1, q.2.files self.dbPath = some ⟨c, k⟩) ∧
      ∃ q ∈ (openDB self cfg env debug migrate w).1, q.1.ok = false := by
  have hup := upgradeDatabase_run self cfg env hw
  have hmove : moveItemAtPath env self.dbPath (self.dbPath ++ ".tmp") w =
      ([(⟨.moveItem, false⟩, w)], false) := by
    rcases hn with hn | hn
    · simp [moveItemAtPath, hn]
    · simp [moveItemAtPath, Option.isSome_iff_ne_none.mpr hn]
  have hconv : convertDatabase self cfg env self.dbPath (isNeedEncrypted cfg) w =
      ([(⟨.moveItem, false⟩, w)], .returned) := by
    simp [convertDatabase, changeDatabasePath, run_bind, hmove, run_pure]
  rw [if_neg he, hconv] at hup
  rw [openDB_run hne, hup]
  have hopen : ∀ q ∈ (opening self cfg env migrate w).1,
      q.2.files self.dbPath = some ⟨c, k⟩ := opening_keeps hw hmig
  refine ⟨?_, (⟨.moveItem, false⟩, w), by simp, rfl⟩
  intro q hq
  simp only [final, hup, endOf_cons, endOf_nil, List.cons_append, List.nil_append,
    List.mem_cons] at hq
  rcases hq with rfl | hq
  · exact hw
  · exact hopen q (by simpa using hq)

/-! ### A launch that encrypts -/

omit [EmptyCollection γ] in
/-- The end of a conversion branch changes no file but `.tmp`. -/
theorem finish_keeps {cfg : NBDBConfigure} {env : Launch γ} {tmp q : String} {db : Connection}
    {status : Bool} {g : Option (DbFile γ)} (hq : q ≠ tmp) (hw : w.files q = g) :
    ∀ r ∈ (finish self cfg env tmp db status w).1, r.2.files q = g := by
  have hrem : ∀ r ∈ (removeItemAtPath env tmp w).1, r.2.files q = g := by
    simp only [removeItemAtPath]
    split <;> simp [World.setFile_files_of_ne _ _ hq, hw]
  have hrem' : ((removeItemAtPath env tmp).final w).files q = g := by
    simp only [final, removeItemAtPath]
    split <;> simp [World.setFile_files_of_ne _ _ hq, hw]
  intro r hr
  simp only [finish_run, List.mem_cons, List.mem_append] at hr
  rcases hr with rfl | hr | hr
  · exact hw
  · exact hrem r hr
  · simp only [saveEncryptedStatus] at hr
    split at hr
    · simp at hr
    · simp only [List.mem_singleton] at hr
      subst hr
      exact hrem'

omit [EmptyCollection γ] in
/-- SQLite attaches the path under the key, when both read back. -/
theorem attachTarget_moved {path : String} {cfg : NBDBConfigure} (hp : Plain path.toList)
    (hk : Plain cfg.secretkey.toList) :
    attachTarget (moved w path) (attachSQL path cfg.secretkey) =
      some (path, some cfg.secretkey) := by
  simp [attachTarget, parseAttach_plain hp hk, moved_path, keyOf, cfg.secretkey_ne]

/-- The effects of an encryption that gets to its export: while `.tmp` is the only copy the
flag does not change, and from the export on the file at the path is complete. -/
theorem openDB_of_encrypts (hne : self.dbPath ≠ "") (hw : w.files self.dbPath = some ⟨c, none⟩)
    (hmig : migrate c = c) (ht : w.files (self.dbPath ++ ".tmp") = none)
    (hm : p.fails .moveItem = false) (hE : Encrypts self cfg p w)
    (hneq : isNeedEncrypted (cfg.on p) ≠ isEncrypted self cfg w) (debug : Bool) :
    ∃ (w₁ w₂ w₃ : World γ) (rest : List (Event × World γ)),
      (openDB self (cfg.on p) p.toLaunch debug migrate w).1 =
        (⟨.moveItem, true⟩, w₁) :: (⟨.sqlite3_open, true⟩, w₁) :: (⟨.attach, true⟩, w₂) ::
          (⟨.export, true⟩, w₃) :: rest ∧
      (w₁.userDefaults = w.userDefaults ∧
        w₁.files (self.dbPath ++ ".tmp") = some ⟨c, none⟩) ∧
      (w₂.userDefaults = w.userDefaults ∧
        w₂.files (self.dbPath ++ ".tmp") = some ⟨c, none⟩) ∧
      (w₃.userDefaults = w.userDefaults ∧
        w₃.files (self.dbPath ++ ".tmp") = some ⟨c, none⟩ ∧
        w₃.files self.dbPath = some ⟨c, some cfg.secretkey⟩) ∧
      ∀ q ∈ rest, q.2.files self.dbPath = some ⟨c, some cfg.secretkey⟩ := by
  have htgt : attachTarget (moved w self.dbPath) (attachSQL self.dbPath (cfg.on p).secretkey) =
      some (self.dbPath, some cfg.secretkey) := attachTarget_moved hE.path hE.key
  have hne' : self.dbPath ≠ self.dbPath ++ ".tmp" := (tmp_ne _).symm
  let w₁ := moved w self.dbPath
  let w₂ := attached w₁ self.dbPath (some cfg.secretkey)
  let w₃ := fill w₂ self.dbPath c
  have ht₁ : w₁.files (self.dbPath ++ ".tmp") = some ⟨c, none⟩ := by
    rw [← hw]; exact moved_tmp w self.dbPath
  have ht₂ : w₂.files (self.dbPath ++ ".tmp") = some ⟨c, none⟩ := attached_of_some ht₁ _ _
  have hp₂ : w₂.files self.dbPath = some ⟨∅, some cfg.secretkey⟩ :=
    attached_of_none (moved_path w self.dbPath) _
  have ht₃ : w₃.files (self.dbPath ++ ".tmp") = some ⟨c, none⟩ := by
    rw [← ht₂]; exact fill_other _ _ hne'.symm
  have hp₃ : w₃.files self.dbPath = some ⟨c, some cfg.secretkey⟩ := fill_self hp₂ c
  have hup : upgradeDatabase self (cfg.on p) p.toLaunch self.dbPath w =
      ((⟨.moveItem, true⟩, w₁) :: (⟨.sqlite3_open, true⟩, w₁) :: (⟨.attach, true⟩, w₂) ::
        (⟨.export, true⟩, w₃) :: (finish self (cfg.on p) p.toLaunch (self.dbPath ++ ".tmp")
          ⟨self.dbPath ++ ".tmp", some self.dbPath⟩ true w₃).1, .returned) := by
    have hneq' : isNeedEncrypted (cfg.on p) ≠ isEncrypted self (cfg.on p) w := hneq
    rw [upgradeDatabase_run self (cfg.on p) p.toLaunch hw, if_neg hneq', hE.need,
      convertDatabase_run self (cfg.on p) p.toLaunch true hm hE.opens hw ht,
      exportDatabase_run self (cfg.on p) p.toLaunch true hE.attaches hE.exports htgt,
      exported_readable ht₂, readable, ht₂]
    rfl
  have hfin : ((upgradeDatabase self (cfg.on p) p.toLaunch self.dbPath).final w).files
      self.dbPath = some ⟨c, some cfg.secretkey⟩ := by
    simp only [final, hup, endOf_cons]
    exact endOf_of_forall (I := fun v : World γ =>
      v.files self.dbPath = some ⟨c, some cfg.secretkey⟩) hp₃ (finish_keeps hne' hp₃)
  refine ⟨w₁, w₂, w₃, _, by rw [openDB_run hne, hup]; rfl, ⟨rfl, ht₁⟩, ⟨?_, ht₂⟩,
    ⟨?_, ht₃, hp₃⟩, ?_⟩
  · exact attached_userDefaults _ _ _
  · exact attached_userDefaults _ _ _
  · intro q hq
    rcases List.mem_append.mp hq with hq | hq
    · exact finish_keeps hne' hp₃ q hq
    · rw [if_neg (by simp)] at hq
      exact opening_keeps hfin hmig q hq

/-! ### A safe launch, and a run of them -/

/-- A launch that leaves the file in its place. -/
theorem safe_of_kept {k : Option String} (hw : w.files self.dbPath = some ⟨c, k⟩)
    (hl : ∀ q ∈ launch self cfg debug migrate p w, q.2.files self.dbPath = some ⟨c, k⟩)
    (hs : p.dies = none → (∀ q ∈ launch self cfg debug migrate p w, q.1.ok = true) →
      k = queueKey (cfg.on p)) :
    LosesNothing self cfg debug migrate c p w ∧
      Complete self c (boot self cfg debug migrate p w) := by
  have hboot : (boot self cfg debug migrate p w).files self.dbPath = some ⟨c, k⟩ :=
    endOf_of_forall (I := fun v : World γ => v.files self.dbPath = some ⟨c, k⟩) hw hl
  refine ⟨losesNothing_of_complete ⟨k, hw⟩ (fun q hq => ⟨k, hl q hq⟩) fun hd hok => ?_,
    k, hboot⟩
  rw [← hs hd hok]
  exact serves_of_file hboot

/-- A launch that encrypts and lives past its export. -/
theorem safe_of_encrypts (hne : self.dbPath ≠ "") (hw : w.files self.dbPath = some ⟨c, none⟩)
    (hmig : migrate c = c) (ht : w.files (self.dbPath ++ ".tmp") = none)
    (hm : p.fails .moveItem = false) (hE : Encrypts self cfg p w)
    (hneq : isNeedEncrypted (cfg.on p) ≠ isEncrypted self cfg w) :
    LosesNothing self cfg debug migrate c p w ∧
      Complete self c (boot self cfg debug migrate p w) := by
  obtain ⟨w₁, w₂, w₃, rest, hrun, ⟨hu₁, ht₁⟩, ⟨hu₂, ht₂⟩, ⟨hu₃, ht₃, hp₃⟩, hrest⟩ :=
    openDB_of_encrypts hne hw hmig ht hm hE hneq debug
  -- the process performs the first four effects and a part of the rest
  obtain ⟨n, hn⟩ : ∃ n, launch self cfg debug migrate p w =
      (⟨.moveItem, true⟩, w₁) :: (⟨.sqlite3_open, true⟩, w₁) :: (⟨.attach, true⟩, w₂) ::
        (⟨.export, true⟩, w₃) :: rest.take n := by
    simp only [launch, hrun]
    cases hd : p.dies with
    | none => exact ⟨rest.length, by simp [cut]⟩
    | some m =>
        obtain ⟨j, rfl⟩ := Nat.exists_eq_add_of_le' (hE.lives m hd)
        exact ⟨j, by simp [cut]⟩
  have hrest' : ∀ q ∈ rest.take n, q.2.files self.dbPath = some ⟨c, some cfg.secretkey⟩ :=
    fun q hq => hrest q (List.mem_of_mem_take hq)
  have hboot : (boot self cfg debug migrate p w).files self.dbPath =
      some ⟨c, some cfg.secretkey⟩ := by
    simp only [boot, hn, endOf_cons]
    exact endOf_of_forall (I := fun v : World γ =>
      v.files self.dbPath = some ⟨c, some cfg.secretkey⟩) hp₃ hrest'
  have hflag : ∀ {v v' : World γ}, v'.userDefaults = v.userDefaults →
      isEncrypted self cfg v' = isEncrypted self cfg v := fun h => by
    simp only [isEncrypted, h]
  refine ⟨⟨?_, ?_, fun _ _ => ?_⟩, _, hboot⟩
  · -- the tables are in `.tmp` until the export has filled the new file
    intro q hq
    simp only [hn, List.mem_cons] at hq
    rcases hq with rfl | rfl | rfl | rfl | hq
    · exact .inr ⟨none, ht₁⟩
    · exact .inr ⟨none, ht₁⟩
    · exact .inr ⟨none, ht₂⟩
    · exact .inl ⟨_, hp₃⟩
    · exact .inl ⟨_, hrest' q hq⟩
  · have stays : ∀ {v v' : World γ}, v'.userDefaults = v.userDefaults →
        v'.files (self.dbPath ++ ".tmp") = some ⟨c, none⟩ → Guards self cfg c v v' :=
      fun hu ht' => ⟨fun _ h => (by cases ht'.symm.trans h), fun h => absurd (hflag hu) h⟩
    rw [hn]
    simp only [linked_cons]
    refine ⟨stays hu₁ ht₁, stays rfl ht₁, stays (hu₂.trans hu₁.symm) ht₂,
      stays (hu₃.trans hu₂.symm) ht₃, ?_⟩
    exact linked_of_forall (A := Complete self c) (fun _ _ h h' => h.guards h') ⟨_, hp₃⟩
      fun q hq => ⟨_, hrest' q hq⟩
  · exact serves_of_file (by rw [hboot, queueKey, hE.need]; rfl)

/-- **A safe launch loses nothing**, and the file at the path is complete when it ends. -/
theorem safe_launch (hne : self.dbPath ≠ "") (hmig : migrate c = c) (hw : Complete self c w)
    (hs : SafeLaunch self cfg p w) (debug : Bool) :
    LosesNothing self cfg debug migrate c p w ∧
      Complete self c (boot self cfg debug migrate p w) := by
  obtain ⟨k, hw⟩ := hw
  unfold SafeLaunch at hs
  split at hs
  · -- nothing to convert
    rename_i heq
    have hkeep := openDB_of_eq hne hw hmig heq p.toLaunch debug
    refine safe_of_kept hw (fun q hq => hkeep q (mem_of_mem_cut hq)) fun hd hok => ?_
    rcases hs with hs | hs | ⟨t, ht⟩
    · exact absurd hd hs
    · have := hok _ (by rw [launch, hd]; exact queue_fails hne hw heq hs)
      cases this
    · rw [hw] at ht
      exact congrArg DbFile.key (Option.some.inj ht)
  · rename_i hneq
    by_cases hn : p.fails .moveItem = true ∨ w.files (self.dbPath ++ ".tmp") ≠ none
    · -- the move fails
      have hmove : p.toLaunch.fails .moveItem = true ∨ w.files (self.dbPath ++ ".tmp") ≠ none := hn
      obtain ⟨hkeep, q, hq, hfail⟩ := openDB_of_notMoved hne hw hmig hneq hmove debug
      refine safe_of_kept hw (fun q hq => hkeep q (mem_of_mem_cut hq)) fun hd hok => ?_
      have := hok q (by rw [launch, hd]; exact hq)
      rw [hfail] at this
      cases this
    · obtain ⟨hm, ht⟩ := not_or.mp hn
      rcases hs with (hs | hs | hd) | hE
      · exact absurd hs hm
      · exact absurd hs ht
      · -- the process dies before the move
        refine safe_of_kept hw (fun q hq => ?_) fun hd' => ?_
        · simp [launch, hd, cut] at hq
        · rw [hd] at hd'; cases hd'
      · obtain ⟨t, ht'⟩ := hE.plaintext
        rw [hw] at ht'
        obtain rfl : k = none := congrArg DbFile.key (Option.some.inj ht')
        exact safe_of_encrypts hne hw hmig (not_not.mp ht) (eq_false_of_ne_true hm) hE hneq

/-- **A run of safe launches loses nothing.** -/
theorem safe_run_loses_nothing (hne : self.dbPath ≠ "") (hmig : migrate c = c)
    {ps : List (Process γ)} (hw : Complete self c w)
    (hs : SafeRun self cfg debug migrate ps w) :
    LoseNothing self cfg debug migrate c ps w := by
  induction ps generalizing w with
  | nil => trivial
  | cons p ps ih =>
      obtain ⟨h, hw'⟩ := safe_launch hne hmig hw hs.1 debug
      exact ⟨h, ih hw' hs.2⟩

end Launch

/-! ### At a common database -/

/-- A process of the demo: the calls that fail in it, and when it dies. -/
def demoProcess (fails : Call → Bool) (dies : Option ℕ) : Process (List String) where
  fails := fails
  leftover := []
  dies := dies
  version := "0.0.2"
  smallestEncrypteVersion := "0.0.2"
  isEncrypted := true

/-- A launch that encrypts `common.db` and dies before it removes `.tmp`, one on which nothing
fails, and one whose queue fails. -/
theorem safe_run_loses_nothing_common :
    LoseNothing commonDB (demoConfig "0.0.2") false id ["books"]
      [demoProcess (fun _ => false) (some 5), demoProcess (fun _ => false) none,
        demoProcess (· = .databaseQueueWithPath) none] plainCommon := by
  refine safe_run_loses_nothing (by decide) rfl ⟨none, by decide⟩ ⟨?_, ?_, ?_, trivial⟩
  · exact .inr ⟨by decide, ⟨["books"], by decide⟩, by decide, by decide, rfl, rfl, rfl,
      fun n hn => by cases hn; decide⟩
  · rw [SafeLaunch, if_neg (by decide)]
    exact .inl (.inr (.inl (by decide)))
  · rw [SafeLaunch, if_neg (by decide)]
    exact .inl (.inr (.inl (by decide)))

/-- An encryption whose `sqlcipher_export` fails: `.tmp` is removed, the flag is saved, and the
tables are nowhere. -/
theorem failed_export_loses_tables :
    plainCommon.files "Caches/common.db" = some ⟨["books"], none⟩ ∧
    plainCommon.files "Caches/common.db.tmp" = none ∧
    isEncrypted commonDB (demoConfig "0.0.2") plainCommon = false ∧
    (launch commonDB (demoConfig "0.0.2") false id (demoProcess (· = .export) none)
      plainCommon).map (·.1) =
        [⟨.moveItem, true⟩, ⟨.sqlite3_open, true⟩, ⟨.attach, true⟩, ⟨.export, false⟩,
          ⟨.detach, true⟩, ⟨.removeItem, true⟩, ⟨.saveEncryptedStatus, true⟩,
          ⟨.databaseQueueWithPath, true⟩, ⟨.updateTableInDB, true⟩] ∧
    (boot commonDB (demoConfig "0.0.2") false id (demoProcess (· = .export) none)
      plainCommon).files "Caches/common.db" = some ⟨[], some "12345690po"⟩ ∧
    ¬ LoseNothing commonDB (demoConfig "0.0.2") false id ["books"]
      [demoProcess (· = .export) none] plainCommon := by
  refine ⟨by decide, by decide, by decide, by decide, by decide, ?_⟩
  rintro ⟨h, -⟩
  have hheld : Held commonDB ["books"] (boot commonDB (demoConfig "0.0.2") false id
      (demoProcess (· = .export) none) plainCommon) :=
    endOf_of_forall (I := Held commonDB ["books"]) (.inl ⟨none, by decide⟩) h.held
  rcases hheld with ⟨k, hk⟩ | ⟨k, hk⟩
  · rw [show (boot commonDB (demoConfig "0.0.2") false id (demoProcess (· = .export) none)
      plainCommon).files commonDB.dbPath = some ⟨[], some "12345690po"⟩ by decide] at hk
    cases hk
  · rw [show (boot commonDB (demoConfig "0.0.2") false id (demoProcess (· = .export) none)
      plainCommon).files (commonDB.dbPath ++ ".tmp") = none by decide] at hk
    cases hk

end NBDataBase
