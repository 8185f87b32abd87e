import NBDataBase.Orm.Registration

/-!
# Orm — the releases of an app

A database that is opened by any sequence of releases, each of which registers its classes, so that
`updateTableInDB` runs with them.  Releases may be skipped, repeated, or go back to an older one.

* `openedBy`: the database after such a sequence.
* `KeptIn`: what a release declares, a later one declares too.
* `openedBy_schema`: where every release is kept in the latest one, and that was among them, the
  schema is the one that the latest release gives by itself.
-/

namespace NBDataBase
open Sql

/-- An opening of the database by a release: its registered classes, and how its dictionaries
enumerate their keys. -/
structure Release where
  order : KeyOrder
  classes : List ModelClass

/-- The database after the openings. -/
def openedBy (R : Runtime) (releases : List Release) (db : Db) : Db :=
  releases.foldl (fun db r => (updateTableInDB R r.order (r.classes.map some) db).2) db

/-- Each class has one of the latest classes with its table and key, and with its columns at their
types. -/
def KeptIn (latest classes : List ModelClass) : Prop :=
  ∀ cls ∈ classes, ∃ cls' ∈ latest, tableKey cls' = tableKey cls ∧ classKey cls' = classKey cls ∧
    ∀ c t, classType cls c = some t → classType cls' c = some t

variable {R : Runtime} {db : Db} {releases : List Release} {latest : Release}

theorem sharing_append (k : String) (classes classes' : List ModelClass) :
    sharing k (classes ++ classes') = sharing k classes ++ sharing k classes' :=
  List.filter_append _ _

/-- **The tables after the openings** are filled by all their classes in a row. -/
theorem openedBy_fills (db : Db)
    (h : ∀ r ∈ releases, ∀ cls ∈ r.classes, ∃ T, Registers R cls T) (k : String) :
    columnType (openedBy R releases db k) =
        ((sharing k (releases.flatMap Release.classes)).map classType).foldl Fill.fill
          (columnType (db k)) ∧
      primaryKeyColumns (openedBy R releases db k) =
        ((sharing k (releases.flatMap Release.classes)).map classKey).foldl Fill.fill
          (primaryKeyColumns (db k)) := by
  induction releases generalizing db with
  | nil => exact ⟨rfl, rfl⟩
  | cons r releases ih =>
      have hr := h r List.mem_cons_self
      obtain ⟨issued, db', hrun, hdb'⟩ := registrationLoop_run hr r.order db
      have hcreates : ∀ cls ∈ sharing k r.classes, ∃ T, cls.Creates T := by
        intro cls hcls
        obtain ⟨T, hT⟩ := hr cls (sharing_mem.mp hcls).1
        exact ⟨T, hT.creates⟩
      obtain ⟨htypes, hkey⟩ := ih db' fun r' hr' => h r' (List.mem_cons_of_mem _ hr')
      have hopened : openedBy R (r :: releases) db = openedBy R releases db' := by
        rw [openedBy, List.foldl_cons, hrun]
        rfl
      rw [hopened, htypes, hkey, hdb', migratedBy_columnType hcreates, migratedBy_primaryKey,
        List.flatMap_cons, sharing_append, List.map_append, List.map_append, List.foldl_append,
        List.foldl_append]
      exact ⟨rfl, rfl⟩

/-- The classes of one table among kept ones are kept, in whatever they declare. -/
theorem KeptIn.sharing {κ ν : Type} {declares : ModelClass → κ → Option ν} {k : String}
    {latest classes : List ModelClass} (hkept : KeptIn latest classes)
    (hdeclares : ∀ cls cls', classKey cls' = classKey cls →
      (∀ c t, classType cls c = some t → classType cls' c = some t) →
      ∀ x v, declares cls x = some v → declares cls' x = some v) :
    ∀ g ∈ (sharing k classes).map declares, ∃ g' ∈ (sharing k latest).map declares,
      ∀ x v, g x = some v → g' x = some v := by
  intro g hg
  obtain ⟨cls, hcls, rfl⟩ := List.mem_map.mp hg
  obtain ⟨hmem, htable⟩ := sharing_mem.mp hcls
  obtain ⟨cls', hcls', hkey', hsame, htypes⟩ := hkept cls hmem
  exact ⟨declares cls', List.mem_map.mpr ⟨cls', sharing_mem.mpr ⟨hcls', hkey'.trans htable⟩, rfl⟩,
    hdeclares cls cls' hsame htypes⟩

/-- **Every upgrade path ends with one schema**: that of the latest release, opened alone, when it
was among the releases and all of them are kept in it. -/
theorem openedBy_schema (h : ∀ r ∈ releases, ∀ cls ∈ r.classes, ∃ T, Registers R cls T)
    (hmem : latest ∈ releases)
    (hagree : ∀ a ∈ latest.classes, ∀ b ∈ latest.classes, Agree db a b)
    (hkept : ∀ r ∈ releases, KeptIn latest.classes r.classes) (k : String) :
    SameSchema (openedBy R releases db k) (openedBy R [latest] db k) := by
  have hall : KeptIn latest.classes (releases.flatMap Release.classes) := by
    intro cls hcls
    obtain ⟨r, hr, hin⟩ := List.mem_flatMap.mp hcls
    exact hkept r hr cls hin
  have hsub : ∀ cls ∈ sharing k latest.classes,
      cls ∈ sharing k (releases.flatMap Release.classes) := by
    intro cls hcls
    obtain ⟨hcls, htable⟩ := sharing_mem.mp hcls
    exact sharing_mem.mpr ⟨List.mem_flatMap.mpr ⟨latest, hmem, hcls⟩, htable⟩
  obtain ⟨htypes, hkey⟩ := openedBy_fills db h k
  have hlatest : ∀ r ∈ [latest], ∀ cls ∈ r.classes, ∃ T, Registers R cls T :=
    fun r hr => List.mem_singleton.mp hr ▸ h latest hmem
  obtain ⟨htypes', hkey'⟩ := openedBy_fills db hlatest k
  rw [List.flatMap_cons, List.flatMap_nil, List.append_nil] at htypes' hkey'
  rw [SameSchema, htypes, hkey, htypes', hkey']
  refine ⟨Fill.foldl_fill_kept ?_ (hall.sharing fun cls cls' _ htypes => htypes)
      (Agree.compatible_types hagree k),
    Fill.foldl_fill_kept ?_ (hall.sharing fun cls cls' hsame _ x v hv => ?_)
      (Agree.compatible_keys hagree k)⟩
  · exact fun g hg => List.map_subset _ hsub hg
  · exact fun g hg => List.map_subset _ hsub hg
  · rw [hsame]
    exact hv

/-! ### Releases of users -/

/-- The users of a release, by its properties besides the key. -/
def userRelease (properties : List Property) : Release where
  order := insertionOrder
  classes := [
    { chain := [⟨"User", ⟨"_pk_uid", "@\"NSString\"", "uid"⟩ :: properties, []⟩]
      getTableName := some "tb_users"
      ivar_word := by simp }]

def firstUsers : Release := userRelease []

def agedUsers : Release := userRelease [⟨"age", "i", "age"⟩]

def namedUsers : Release := userRelease [⟨"name", "@\"NSString\"", "name"⟩, ⟨"age", "i", "age"⟩]

theorem userRelease_registers : ∀ r ∈ [firstUsers, agedUsers, namedUsers, firstUsers],
    ∀ cls ∈ r.classes, ∃ T, Registers demoRuntime cls T := by
  have hcreates : ∀ r ∈ [firstUsers, agedUsers, namedUsers, firstUsers], ∀ cls ∈ r.classes,
      cls.getTableName = some "tb_users" ∧ (∀ d ∈ storedColumns cls.chain, Name d.1) ∧
        (∀ k ∈ getPrimaryKeys cls.chain, Name k) ∧ storedColumns cls.chain ≠ [] ∧
        Creatable "tb_users" (storedColumns cls.chain) (getPrimaryKeys cls.chain) := by
    decide +kernel
  intro r hr cls hcls
  obtain ⟨htable, hcolumns, hkeys, hstores, hcreatable⟩ := hcreates r hr cls hcls
  exact ⟨"tb_users", ⟨htable, by decide +kernel, hcolumns, hkeys, hstores, hcreatable⟩, rfl⟩

/-- More columns have the types of fewer. -/
theorem typeIn_subset {ds ds' : List (String × String)} (hsub : ds ⊆ ds')
    (hnodup : (ds'.map fun d => fold d.1).Nodup) {c t : String} (h : typeIn ds c = some t) :
    typeIn ds' c = some t := by
  obtain ⟨d, hd, rfl⟩ := Option.map_eq_some_iff.mp h
  exact (typeIn_some hnodup).mpr
    ⟨d, hsub (List.mem_of_find?_eq_some hd), by simpa using List.find?_some hd, rfl⟩

/-- The names of the users come last, and an old app is opened once more. -/
theorem users_same_schema :
    SameSchema (openedBy demoRuntime [firstUsers, agedUsers, namedUsers, firstUsers]
      (fun _ => none) "tb_users")
      (openedBy demoRuntime [namedUsers] (fun _ => none) "tb_users") := by
  refine openedBy_schema userRelease_registers (by simp) (fun a ha b hb => ?_) ?_ "tb_users"
  · obtain rfl : b = a := (List.mem_singleton.mp hb).trans (List.mem_singleton.mp ha).symm
    exact ⟨fun k _ _ c _ t u ht hu => Option.some.inj (ht.symm.trans hu), fun _ _ _ _ => rfl⟩
  · have hcolumns : ∀ r ∈ [firstUsers, agedUsers, namedUsers, firstUsers], ∀ cls ∈ r.classes,
        ∀ cls' ∈ namedUsers.classes, tableKey cls' = tableKey cls ∧
          getPrimaryKeys cls'.chain = getPrimaryKeys cls.chain ∧
          storedColumns cls.chain ⊆ storedColumns cls'.chain ∧
          ((storedColumns cls'.chain).map fun d => fold d.1).Nodup := by
      decide +kernel
    intro r hr cls hcls
    obtain ⟨htable, hkey, hsub, hnodup⟩ := hcolumns r hr cls hcls _ (List.mem_singleton.mpr rfl)
    refine ⟨_, List.mem_singleton.mpr rfl, htable, ?_, fun c t ht => typeIn_subset hsub hnodup ht⟩
    funext u
    simp only [classKey, hkey]

end NBDataBase
