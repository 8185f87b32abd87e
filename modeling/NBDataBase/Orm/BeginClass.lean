import NBDataBase.Orm.Distinct

/-!
# Orm — the two inserts of a whole model

How `createInsertSQLWithModelAndBeginClass` and `createInsertSQL` agree.

* `insertStatement`: the insert of some columns with their values.
* `properties_split`: the walk from a class goes on where the walk below it ends.
* `createInsertSQL_segments`: the columns and values of the one end those of the other.
-/

namespace NBDataBase

/-- The insert of some columns with their values, if there are any. -/
def insertStatement (T : String) (replace : Bool) (l : List (String × Obj)) :
    Option (String × List Obj) :=
  if l.isEmpty then none
  else some ("insert " ++ ((if replace then "or replace into " else "or ignore into ") ++
    (T ++ (" (" ++ (String.intercalate "," (l.map (·.1)) ++
      (") values (" ++ (String.intercalate "," (l.map fun _ => "?") ++ ")")))))), l.map (·.2))

theorem insertStatement_eq_none {T : String} {replace : Bool} {l : List (String × Obj)} :
    insertStatement T replace l = none ↔ l = [] := by
  cases l <;> simp [insertStatement]

/-- The loop's texts are those of the statement. -/
theorem insertText_of (T : String) (replace : Bool) {l : List (String × Obj)}
    (h : ∀ e ∈ l, e.1 ≠ "") : insertText T replace (.of l) = insertStatement T replace l := by
  rw [InsertState.of_eq h, insertText, insertStatement]
  cases l with
  | nil => rfl
  | cons e l =>
      have hmarks : String.intercalate "," ((e :: l).map fun _ => "?") ≠ "" :=
        intercalate_ne (by simp) fun x hx => by
          obtain ⟨y, -, rfl⟩ := List.mem_map.mp hx
          decide
      rw [if_neg hmarks]
      rfl

section Segments

variable {R : Runtime} {m : Model} {B : ModelClass} {T : String}

/-- A bound column has a name. -/
theorem insertBindings_named (ps : List Property) : ∀ e ∈ insertBindings R m ps, e.1 ≠ "" := by
  intro e he
  obtain ⟨p, -, hp⟩ := List.mem_filterMap.mp he
  unfold insertBinding at hp
  split at hp
  · obtain ⟨v, -, rfl⟩ := Option.map_eq_some_iff.mp hp
    exact p.column_ne
  · cases hp

/-- **A walk** over a class and its ancestors goes on where the walk below the class ends. -/
theorem properties_split (below chain : List ClassDecl) :
    properties (below ++ chain) = properties below ++ properties chain := by
  induction below with
  | nil => rfl
  | cons d below ih =>
      show d.properties ++ properties (below ++ chain) = _
      rw [ih, ← List.append_assoc]
      rfl

/-- The walk from a class builds the insert of its own segment. -/
theorem createInsertSQLWithModelAndBeginClass_run (replace : Bool) (hT : B.getTableName = some T)
    (h : AllBacked m.cls.chain (properties B.chain)) :
    createInsertSQLWithModelAndBeginClass R m B replace =
      .ok (insertStatement T replace (insertBindings R m (properties B.chain))) := by
  unfold createInsertSQLWithModelAndBeginClass
  rw [hT, ← insertText_of T replace (insertBindings_named _)]
  simp only [insertLoop_run h]
  rfl

/-- **The two inserts of a whole model.**  When the one over all classes returns, the one from a
class returns as well, with the columns and values of that class and its ancestors, which end those
of the first.  Each is nil only without columns, and from the class itself they are one. -/
theorem createInsertSQL_segments (R : Runtime) (m : Model) (B : ModelClass) (T : String)
    (replace : Bool) (hB : B.IsAncestor m.cls) (hT : B.getTableName = some T) :
    (∃ below, m.cls.chain = below ++ B.chain ∧
      ∀ full, createInsertSQL R m (some T) replace = .ok full →
        full = insertStatement T replace (insertBindings R m (properties below) ++
          insertBindings R m (properties B.chain)) ∧
        createInsertSQLWithModelAndBeginClass R m B replace =
          .ok (insertStatement T replace (insertBindings R m (properties B.chain)))) ∧
    (∀ l, insertStatement T replace l = none ↔ l = []) ∧
    (B = m.cls → createInsertSQLWithModelAndBeginClass R m B replace =
      createInsertSQL R m (some T) replace) := by
  refine ⟨?_, fun l => insertStatement_eq_none, fun hself => ?_⟩
  · obtain ⟨below, hbelow⟩ := hB
    refine ⟨below, hbelow.symm, fun full hfull => ?_⟩
    have hsplit : properties m.cls.chain = properties below ++ properties B.chain := by
      rw [← hbelow, properties_split]
    have hall : AllBacked m.cls.chain (properties m.cls.chain) := by
      by_contra hnot
      rw [createInsertSQL_error replace rfl hnot] at hfull
      cases hfull
    have hbindings : insertBindings R m (properties m.cls.chain) =
        insertBindings R m (properties below) ++ insertBindings R m (properties B.chain) := by
      rw [hsplit, insertBindings, List.filterMap_append]
      rfl
    have hown : AllBacked m.cls.chain (properties B.chain) :=
      fun p hp => hall p (hsplit ▸ List.mem_append_right _ hp)
    rw [createInsertSQL_run replace rfl hall, insertText_of T replace (insertBindings_named _),
      hbindings] at hfull
    exact ⟨(Except.ok.inj hfull).symm, createInsertSQLWithModelAndBeginClass_run replace hT hown⟩
  · subst hself
    unfold createInsertSQLWithModelAndBeginClass createInsertSQL createInsertSQLWithColumns
    rw [hT]
    rfl

end Segments

/-- A novel with a genre and an identifier. -/
def novel : Model := .ofIvars novelClass fun key =>
  if key = "_genre" then some (.string "NSString" "crime")
  else if key = "_bookId" then some (.string "NSString" "7")
  else none

example : createInsertSQL demoRuntime novel (some "tb_books") false =
    .ok (some ("insert or ignore into tb_books (_genre,_bookId) values (?,?)",
      [.string "NSString" "crime", .string "NSString" "7"])) := by decide +kernel

/-- The insert of a novel among the books has the columns of a book. -/
theorem novel_among_books :
    createInsertSQLWithModelAndBeginClass demoRuntime novel bookClass false =
      .ok (insertStatement "tb_books" false
        (insertBindings demoRuntime novel (properties bookClass.chain))) := by
  obtain ⟨⟨below, -, hfull⟩, -⟩ := createInsertSQL_segments demoRuntime novel bookClass "tb_books"
    false (List.suffix_cons _ _) rfl
  refine (hfull (some ("insert or ignore into tb_books (_genre,_bookId) values (?,?)",
    [.string "NSString" "crime", .string "NSString" "7"])) ?_).2
  decide +kernel

end NBDataBase
