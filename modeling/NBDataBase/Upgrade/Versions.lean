import Mathlib.Data.String.Basic
import NBDataBase.Lib.Lexical
import NBDataBase.Upgrade.Launches

/-!
# Upgrade — versions

Whether encryption is required from the smallest encrypted version on.  `isNeedEncrypted` compares
the texts of two versions character by character.

* `Version`: a dotted version.  `Version.text`, and `Version.numbers` in their lexicographic order.
* `SortsAsNumbers`: at the first components that differ as texts, the text that comes first is the
  smaller number.  `sortsAsNumbers_iff`: then, and only then, the texts are in the order of the
  numbers.
* `FollowsNumbers`: what the releases of an app are owed: encryption is required from the smallest
  version on, a later release requires it too, and no run of upgrades decrypts.
* `followsNumbers_iff`: they get it exactly when each of them sorts as its numbers.
-/

namespace NBDataBase
open Trail

/-! ### Versions -/

/-- A dotted version: its components, each a text of digits. -/
structure Version where
  components : List String
  ne_nil : components ≠ []
  digits : ∀ c ∈ components, c ≠ "" ∧ c.toList.all Char.isDigit = true

/-- The number of a component. -/
def number (c : String) : ℕ := Lexical.numeral (fun x : Char => x.toNat - 48) 10 c.toList

namespace Version

def text (v : Version) : String := ".".intercalate v.components

def numbers (v : Version) : List ℕ := v.components.map number

end Version

/-- At the first components that differ as texts, the text that comes first is the smaller number;
of equal numbers, that of the smaller rest. -/
def SortsAsNumbers : List String → List String → Prop
  | a :: as, b :: bs =>
      if a = b then SortsAsNumbers as bs
      else if number a = number b then a < b ↔ as.map number < bs.map number
      else a < b ↔ number a < number b
  | _, _ => True

/-- **The texts are in the order of the numbers** exactly when they sort as numbers. -/
theorem sortsAsNumbers_iff (as bs : List String) :
    SortsAsNumbers as bs ↔ (as < bs ↔ as.map number < bs.map number) := by
  induction as generalizing bs with
  | nil => cases bs <;> simp [SortsAsNumbers]
  | cons a as ih =>
      cases bs with
      | nil => simp [SortsAsNumbers]
      | cons b bs =>
          rw [SortsAsNumbers, List.map_cons, List.map_cons, List.cons_lt_cons_iff,
            List.cons_lt_cons_iff]
          by_cases hab : a = b
          · subst hab
            simp [ih]
          · by_cases hn : number a = number b <;> simp [hab, hn]

/-! ### Texts -/

/-- Digits are the characters from `0` to `9`. -/
theorem isDigit_iff {x : Char} : x.isDigit = true ↔ 48 ≤ x.toNat ∧ x.toNat ≤ 57 := by
  rw [Char.isDigit, Bool.and_eq_true, decide_eq_true_eq, decide_eq_true_eq, ge_iff_le,
    UInt32.le_iff_toNat_le, UInt32.le_iff_toNat_le]
  exact Iff.rfl

theorem char_lt_iff {x y : Char} : x < y ↔ x.toNat < y.toNat := by
  rw [Char.lt_def, UInt32.lt_iff_toNat_lt]
  exact Iff.rfl

theorem dot_lt {x : Char} (h : x.isDigit = true) : '.' < x :=
  char_lt_iff.mpr (Nat.lt_of_lt_of_le (by decide : '.'.toNat < 48) (isDigit_iff.mp h).1)

/-- Digits are in the order of their values. -/
theorem digit_strictMonoOn :
    StrictMonoOn (fun x : Char => x.toNat - 48) {x | x.isDigit = true} := by
  intro x hx y hy hxy
  have hlow := (isDigit_iff.mp hx).1
  have hlt := char_lt_iff.mp hxy
  show x.toNat - 48 < y.toNat - 48
  omega

theorem toList_intercalate_dot (cs : List String) :
    (".".intercalate cs).toList = Lexical.joinWith '.' (cs.map String.toList) := by
  induction cs with
  | nil => rfl
  | cons c cs ih =>
      cases cs with
      | nil => simp [Lexical.joinWith]
      | cons d cs =>
          have hdot : ".".toList = ['.'] := by decide
          rw [String.intercalate_cons_cons, String.toList_append, String.toList_append, ih, hdot]
          simp [Lexical.joinWith]

theorem map_toList_lt_iff (as bs : List String) :
    as.map String.toList < bs.map String.toList ↔ as < bs := by
  induction as generalizing bs with
  | nil => cases bs <;> simp
  | cons a as ih =>
      cases bs with
      | nil => simp
      | cons b bs =>
          rw [List.map_cons, List.map_cons, List.cons_lt_cons_iff, List.cons_lt_cons_iff, ih,
            String.lt_iff_toList_lt, String.toList_inj]

/-- **The texts of two versions** are in the order of their components' texts. -/
theorem Version.text_lt_iff (v w : Version) : v.text < w.text ↔ v.components < w.components := by
  have hdots : ∀ u : Version, ∀ a ∈ u.components.map String.toList, ∀ x ∈ a, '.' < x := by
    intro u a ha x hx
    obtain ⟨c, hc, rfl⟩ := List.mem_map.mp ha
    exact dot_lt (List.all_eq_true.mp (u.digits c hc).2 x hx)
  rw [String.lt_iff_toList_lt, Version.text, Version.text, toList_intercalate_dot,
    toList_intercalate_dot, Lexical.joinWith_lt_iff (by simpa using v.ne_nil)
      (by simpa using w.ne_nil) (hdots v) (hdots w), map_toList_lt_iff]

/-- Texts of one width sort as their numbers. -/
theorem number_lt_iff {a b : String} (hlen : a.length = b.length)
    (ha : ∀ x ∈ a.toList, x.isDigit = true) (hb : ∀ x ∈ b.toList, x.isDigit = true) :
    a < b ↔ number a < number b := by
  have hbase : ∀ x ∈ {x : Char | x.isDigit = true}, x.toNat - 48 < 10 := by
    intro x hx
    have hhigh := (isDigit_iff.mp hx).2
    omega
  rw [String.lt_iff_toList_lt]
  refine Lexical.numeral_lt_iff digit_strictMonoOn hbase ?_ ha hb
  rw [String.length_toList, String.length_toList, hlen]

/-- A component without a leading zero: more digits are a larger number. -/
theorem number_lt_of_length {a b : String} (ha : ∀ x ∈ a.toList, x.isDigit = true)
    (hb : ∀ x ∈ b.toList, x.isDigit = true) (hlead : b.toList.head? ≠ some '0')
    (hlen : a.length < b.length) : number a < number b := by
  have hbase : ∀ x ∈ a.toList, x.toNat - 48 < 10 := by
    intro x hx
    have hhigh := (isDigit_iff.mp (ha x hx)).2
    omega
  have hlt := Lexical.numeral_lt hbase
  rw [← String.length_toList, ← String.length_toList] at hlen
  unfold number
  cases hbs : b.toList with
  | nil =>
      rw [hbs] at hlen
      cases hlen
  | cons d ds =>
      rw [hbs] at hlen hlead hb
      have hlow := (isDigit_iff.mp (hb d List.mem_cons_self)).1
      have hd : 1 ≤ d.toNat - 48 := by
        by_contra hzero
        have hd : d.toNat = '0'.toNat := by
          show d.toNat = 48
          omega
        exact hlead (congrArg some (Char.toNat_inj.mp hd))
      have hpow : 10 ^ a.toList.length ≤ 10 ^ ds.length :=
        Nat.pow_le_pow_right (by decide) (Nat.le_of_lt_succ hlen)
      have hmul := Nat.mul_le_mul_right (10 ^ ds.length) hd
      rw [Lexical.numeral_cons]
      omega

/-- **Components without leading zeros** sort as their numbers exactly when the one with fewer
digits comes first. -/
theorem component_sorts_iff {a b : String} (ha : ∀ x ∈ a.toList, x.isDigit = true)
    (hb : ∀ x ∈ b.toList, x.isDigit = true) (hla : a.toList.head? ≠ some '0')
    (hlb : b.toList.head? ≠ some '0') :
    (a < b ↔ number a < number b) ↔
      (a.length < b.length → a < b) ∧ (b.length < a.length → ¬ a < b) := by
  rcases lt_trichotomy a.length b.length with hlen | hlen | hlen
  · simp [number_lt_of_length ha hb hlb hlen, hlen, hlen.not_gt]
  · simp [number_lt_iff hlen ha hb, hlen]
  · simp [(number_lt_of_length hb ha hla hlen).not_gt, hlen, hlen.not_gt]

/-! ### Releases -/

/-- The configuration of a release, with encryption on. -/
def NBDBConfigure.release (cfg : NBDBConfigure) (v s : Version) : NBDBConfigure :=
  { cfg with
    version := v.text
    smallestEncrypteVersion := s.text
    isEncrypted := true }

/-- **Encryption is required** unless the components of the version come before those of the
smallest one as texts. -/
theorem isNeedEncrypted_release (cfg : NBDBConfigure) (v s : Version) :
    isNeedEncrypted (cfg.release v s) = true ↔ ¬ v.components < s.components := by
  rw [← Version.text_lt_iff]
  simp [isNeedEncrypted, NBDBConfigure.release]

section Runs

variable {γ : Type}

/-- The process of a release. -/
def Launch.release (env : Launch γ) (v s : Version) : Process γ where
  toLaunch := env
  version := v.text
  smallestEncrypteVersion := s.text
  isEncrypted := true

variable (db : DataBase) (cfg : NBDBConfigure) [EmptyCollection γ] (s : Version)

/-- `upgradeDatabase:` takes its decrypting branch. -/
def Decrypts (v : Version) (w : World γ) : Prop :=
  (w.files db.dbPath).isSome = true ∧ isNeedEncrypted (cfg.release v s) = false ∧
    isEncrypted db cfg w = true

/-- No launch of a run of releases decrypts. -/
def NeverDecrypts (debug : Bool) (migrate : γ → γ) : List (Version × Launch γ) → World γ → Prop
  | [], _ => True
  | p :: ps, w => ¬ Decrypts db cfg s p.1 w ∧
      NeverDecrypts debug migrate ps (boot db cfg debug migrate (p.2.release p.1 s) w)

/-- What the releases `vs` of an app are owed when the smallest encrypted version is `s`:
encryption is required from `s` on, a later release requires it too, and no run of upgrades from a
database that is not encrypted decrypts. -/
structure FollowsNumbers (γ : Type) [EmptyCollection γ] (db : DataBase) (cfg : NBDBConfigure)
    (s : Version) (vs : List Version) : Prop where
  required : ∀ v ∈ vs, isNeedEncrypted (cfg.release v s) = true ↔ s.numbers ≤ v.numbers
  monotone : ∀ v ∈ vs, ∀ w ∈ vs, v.numbers ≤ w.numbers →
    isNeedEncrypted (cfg.release v s) = true → isNeedEncrypted (cfg.release w s) = true
  upgrades : ∀ (debug : Bool) (migrate : γ → γ) (ps : List (Version × Launch γ)) (w : World γ),
    (∀ p ∈ ps, p.1 ∈ vs) → ps.Pairwise (fun p q => p.1.numbers ≤ q.1.numbers) →
      isEncrypted db cfg w = false → NeverDecrypts db cfg s debug migrate ps w

end Runs

/-! ### The saved flag -/

section Flag

variable {γ α : Type} {self : DataBase} {cfg : NBDBConfigure} {env : Launch γ}

/-- The computation saves no flag. -/
def SavesNone (m : Trail Event (World γ) α) : Prop :=
  ∀ w, ∀ q ∈ (m w).1, q.2.userDefaults = w.userDefaults

theorem moveItemAtPath_savesNone (path toPath : String) :
    SavesNone (moveItemAtPath env path toPath) := by
  intro w q hq
  unfold moveItemAtPath at hq
  split at hq <;> (obtain rfl := List.mem_singleton.mp hq; rfl)

theorem removeItemAtPath_savesNone (path : String) : SavesNone (removeItemAtPath env path) := by
  intro w q hq
  unfold removeItemAtPath at hq
  split at hq <;> (obtain rfl := List.mem_singleton.mp hq; rfl)

theorem sqlite3_open_savesNone (path : String) : SavesNone (sqlite3_open env path) := by
  intro w q hq
  unfold sqlite3_open at hq
  split at hq <;> (obtain rfl := List.mem_singleton.mp hq; rfl)

theorem execExport_savesNone (db : Connection) : SavesNone (execExport env db) := by
  intro w q hq
  unfold execExport at hq
  split at hq
  · split at hq <;> (obtain rfl := List.mem_singleton.mp hq; rfl)
  · obtain rfl := List.mem_singleton.mp hq
    rfl

theorem execDetach_savesNone (db : Connection) : SavesNone (execDetach env db) := by
  intro w q hq
  obtain rfl := List.mem_singleton.mp hq
  rfl

section

variable [EmptyCollection γ]

theorem execAttach_savesNone (sql : String) (db : Connection) :
    SavesNone (execAttach env sql db) := by
  intro w q hq
  unfold execAttach at hq
  split at hq <;> obtain rfl := List.mem_singleton.mp hq
  · rfl
  · split <;> rfl

theorem databaseQueueWithPath_savesNone (path : String) (key : Option String) :
    SavesNone (databaseQueueWithPath env path key) := by
  intro w q hq
  unfold databaseQueueWithPath at hq
  split at hq <;> obtain rfl := List.mem_singleton.mp hq
  · rfl
  · split <;> rfl

end

theorem updateTables_savesNone (migrate : γ → γ) (path : String) (key : Option String) :
    SavesNone (updateTables migrate path key) := by
  intro w q hq
  unfold updateTables at hq
  split at hq
  · obtain rfl := List.mem_singleton.mp hq
    rfl
  · cases hq

/-- The flag is `b`, or what is required. -/
def FlagOf (self : DataBase) (cfg : NBDBConfigure) (b : Bool) (w : World γ) : Prop :=
  isEncrypted self cfg w = b ∨ isEncrypted self cfg w = isNeedEncrypted cfg

variable {b : Bool}

theorem SavesNone.keeps {m : Trail Event (World γ) α} (h : SavesNone m) :
    Keeps (FlagOf self cfg b) m := by
  intro w hw q hq
  unfold FlagOf isEncrypted at hw ⊢
  rwa [h w q hq]

theorem saveEncryptedStatus_flag {status : Bool} (h : status = isNeedEncrypted cfg) :
    Keeps (FlagOf self cfg b) (saveEncryptedStatus self cfg status :
      Trail Event (World γ) Unit) := by
  intro w _ q hq
  unfold saveEncryptedStatus at hq
  split at hq
  · cases hq
  · obtain rfl := List.mem_singleton.mp hq
    exact .inr (by simp [isEncrypted, h])

variable [EmptyCollection γ]

theorem exportDatabase_flag (tmppath sql : String) (db : Connection) {status : Bool}
    (h : status = isNeedEncrypted cfg) :
    Keeps (FlagOf self cfg b) (exportDatabase self cfg env tmppath sql db status) :=
  .bind (execAttach_savesNone sql db).keeps fun db' =>
    .bind (execExport_savesNone db').keeps fun _ =>
      .bind (execDetach_savesNone db').keeps fun _ =>
        .bind (removeItemAtPath_savesNone tmppath).keeps fun _ =>
          .bind (saveEncryptedStatus_flag h) fun _ => .pure _ _

theorem convertDatabase_flag (path : String) {status : Bool} (h : status = isNeedEncrypted cfg) :
    Keeps (FlagOf self cfg b) (convertDatabase self cfg env path status) := by
  refine .bind (.bind (moveItemAtPath_savesNone path _).keeps fun moved => ?_) fun tmppath => ?_
  · cases moved <;> exact .pure _ _
  · cases tmppath with
    | none => exact .pure _ _
    | some tmppath =>
        refine .bind (sqlite3_open_savesNone tmppath).keeps fun db => ?_
        cases db with
        | none => exact .pure _ _
        | some db => exact exportDatabase_flag tmppath _ db h

/-- `upgradeDatabase:` saves no flag but what is required. -/
theorem upgradeDatabase_flag (path : String) :
    Keeps (FlagOf self cfg b) (upgradeDatabase self cfg env path) := by
  refine .bind (.read _ _) fun encrypted => .bind (.read _ _) fun exists' => ?_
  have hsave : ∀ status, status = isNeedEncrypted cfg → Keeps (FlagOf self cfg b)
      (saveEncryptedStatus self cfg status >>= fun _ => pure Exit.returned :
        Trail Event (World γ) Exit) := fun status h =>
    .bind (saveEncryptedStatus_flag h) fun _ => .pure _ _
  cases hneed : isNeedEncrypted cfg <;> cases encrypted <;> cases exists'
  · exact hsave false hneed.symm
  · exact .pure _ _
  · exact hsave false hneed.symm
  · exact convertDatabase_flag path hneed.symm
  · exact hsave true hneed.symm
  · exact convertDatabase_flag path hneed.symm
  · exact hsave true hneed.symm
  · exact .pure _ _

/-- `openDB` saves no flag but what is required. -/
theorem openDB_flag (debug : Bool) (migrate : γ → γ) :
    Keeps (FlagOf self cfg b) (openDB self cfg env debug migrate) := by
  have hqueue : Keeps (FlagOf self cfg b) (opening self cfg env migrate) := by
    refine .bind (databaseQueueWithPath_savesNone _ _).keeps fun success => ?_
    cases success with
    | false => exact .pure _ _
    | true => exact .bind (updateTables_savesNone migrate _ _).keeps fun _ => .pure _ _
  intro w hw q hq
  by_cases hne : self.dbPath = ""
  · have hlen : self.dbPath.length < 1 := by simp [hne]
    simp [openDB, hlen, run_pure] at hq
  · rw [openDB_run hne] at hq
    rcases List.mem_append.mp hq with hq | hq
    · exact upgradeDatabase_flag _ w hw q hq
    · split at hq
      · cases hq
      · exact hqueue _ ((upgradeDatabase_flag _).final hw) q hq

end Flag

/-! ### Runs of upgrades -/

section Upgrades

variable {γ : Type} [EmptyCollection γ] {db : DataBase} {cfg : NBDBConfigure} {s : Version}
  {vs : List Version}

/-- After a launch the flag is what it was, or what the release requires. -/
theorem boot_flag (debug : Bool) (migrate : γ → γ) (p : Version × Launch γ) (w : World γ) :
    FlagOf db (cfg.release p.1 s) (isEncrypted db cfg w)
      (boot db cfg debug migrate (p.2.release p.1 s) w) :=
  endOf_cut_of_forall (.inl rfl) (openDB_flag debug migrate w (.inl rfl)) _

/-- Releases each of which requires encryption when an earlier one, or the flag, does, never
decrypt. -/
theorem neverDecrypts_of_mono (debug : Bool) (migrate : γ → γ) {ps : List (Version × Launch γ)}
    {w : World γ}
    (hflag : isEncrypted db cfg w = true →
      ∀ p ∈ ps, isNeedEncrypted (cfg.release p.1 s) = true)
    (hmono : ps.Pairwise fun p q => isNeedEncrypted (cfg.release p.1 s) = true →
      isNeedEncrypted (cfg.release q.1 s) = true) :
    NeverDecrypts db cfg s debug migrate ps w := by
  induction ps generalizing w with
  | nil => trivial
  | cons p ps ih =>
      obtain ⟨hp, hps⟩ := List.pairwise_cons.mp hmono
      refine ⟨fun ⟨_, hneed, henc⟩ => ?_, ih (fun henc q hq => ?_) hps⟩
      · rw [hflag henc p List.mem_cons_self] at hneed
        cases hneed
      · -- the flag was YES before the launch, or the release of the launch requires it
        have hboot : FlagOf db (cfg.release p.1 s) (isEncrypted db cfg w)
            (boot db cfg debug migrate (p.2.release p.1 s) w) := boot_flag debug migrate p w
        rcases hboot with h | h
        · exact hflag (h.symm.trans henc) q (List.mem_cons_of_mem _ hq)
        · exact hp q hq (h.symm.trans henc)

/-- **Encryption follows the numbers of the versions** exactly when each of the versions and the
smallest one sort as their numbers. -/
theorem followsNumbers_iff (γ : Type) [EmptyCollection γ] (db : DataBase) (cfg : NBDBConfigure)
    (s : Version) (vs : List Version) :
    FollowsNumbers γ db cfg s vs ↔
      ∀ v ∈ vs, SortsAsNumbers v.components s.components := by
  have hsorts : ∀ v : Version, SortsAsNumbers v.components s.components ↔
      (isNeedEncrypted (cfg.release v s) = true ↔ s.numbers ≤ v.numbers) := fun v => by
    rw [sortsAsNumbers_iff, isNeedEncrypted_release, ← not_lt, not_iff_not]
    exact Iff.rfl
  constructor
  · exact fun h v hv => (hsorts v).mpr (h.required v hv)
  · intro h
    have hreq : ∀ v ∈ vs, isNeedEncrypted (cfg.release v s) = true ↔ s.numbers ≤ v.numbers :=
      fun v hv => (hsorts v).mp (h v hv)
    have hmono : ∀ v ∈ vs, ∀ w ∈ vs, v.numbers ≤ w.numbers →
        isNeedEncrypted (cfg.release v s) = true → isNeedEncrypted (cfg.release w s) = true :=
      fun v hv w hw hvw hv' => (hreq w hw).mpr (le_trans ((hreq v hv).mp hv') hvw)
    refine ⟨hreq, hmono, fun debug migrate ps w hps hsorted hflag => ?_⟩
    refine neverDecrypts_of_mono debug migrate (fun henc => ?_) ?_
    · rw [hflag] at henc
      cases henc
    · exact hsorted.imp_of_mem fun {p q} hp hq hpq => hmono p.1 (hps p hp) q.1 (hps q hq) hpq

end Upgrades

/-! ### A component with one digit more -/

/-- Versions 9.0 and 10.0. -/
def nineZero : Version := ⟨["9", "0"], by decide, by decide⟩
def tenZero : Version := ⟨["10", "0"], by decide, by decide⟩

/-- With encryption from 9.0 on, 10.0 does not require it, and the upgrade from 9.0 decrypts. -/
theorem ten_requires_less :
    nineZero.numbers ≤ tenZero.numbers ∧
    isNeedEncrypted ((demoConfig "").release nineZero nineZero) = true ∧
    isNeedEncrypted ((demoConfig "").release tenZero nineZero) = false ∧
    Decrypts commonDB (demoConfig "") nineZero tenZero
      (boot commonDB (demoConfig "") false id (calm.release nineZero nineZero) plainCommon) ∧
    ¬ FollowsNumbers (List String) commonDB (demoConfig "") nineZero [nineZero, tenZero] := by
  have hten : isNeedEncrypted ((demoConfig "").release tenZero nineZero) = false := by decide
  refine ⟨by decide, by decide, hten, ⟨by decide, hten, by decide⟩, fun h => ?_⟩
  have hreq := (h.required tenZero (by simp)).mpr (by decide)
  rw [hten] at hreq
  cases hreq

end NBDataBase
