import NBDataBase.Orm.Encoding
import NBDataBase.Sql.Assignments

/-!
# Orm — the forms of `sets`

The comment on `sets` lists its forms: names of columns, assignments, a dictionary.  Each stands
for an assignment to the columns it names.

* `SetsForm`: the forms; `SetsForm.Documented`: what they say, for a model.
* `SetsForm.StandsFor`: a `SET` list and its values give that assignment.
* `SetsForm.Handled`: the forms the builder makes it of: one assignment, a dictionary with an
  entry, and different names whose values are all there.
* `assignsAsNamed_iff`: the update does what `sets` stands for exactly for these.
* `two_assignments_raise`: two assignments are taken for two names.
-/

namespace NBDataBase
open Sql

/-- The documented forms of `sets`. -/
inductive SetsForm where
  | columns (cs : List String)
  | array (cs : List String)
  | assignments (s : String)
  | dictionary (dic : NSDictionary Obj)

namespace SetsForm

/-- The argument. -/
def sets : SetsForm → Sets
  | columns cs => .string (String.intercalate "," cs)
  | array cs => .array cs
  | assignments s => .string s
  | dictionary dic => .dictionary dic

/-- The columns a form names. -/
def named : SetsForm → List String
  | columns cs => cs
  | array cs => cs
  | assignments s => ((setClause s).getD []).map (·.1)
  | dictionary dic => dic.entries.map (·.1)

/-- The names are those of columns that the model has; the assignments are assignments. -/
def Documented (m : Model) : SetsForm → Prop
  | columns cs => cs ≠ [] ∧ ∀ c ∈ cs, Name c ∧ (m.valueForKey? c).isSome
  | array cs => ∀ c ∈ cs, Name c ∧ (m.valueForKey? c).isSome
  | assignments s => (setClause s).isSome
  | dictionary dic => ∀ e ∈ dic.entries, Name e.1

/-- Each column is assigned a parameter, and each parameter is bound to what `P` says. -/
def BindsEach (P : String → Obj → Prop) (assigned : List (String × String)) (values : List Obj) :
    Prop :=
  List.Forall₂ (fun e v => e.2 = "?" ∧ P e.1 v) assigned values

/-- What the columns are assigned. -/
def Gives (m : Model) (key : String) (assigned : List (String × String)) (values : List Obj) :
    SetsForm → Prop
  | columns _ => BindsEach (fun c v => v = (m.value c).getD .null) assigned values
  | array _ => BindsEach (fun c v => v = (m.value c).getD .null) assigned values
  | assignments s => key = s ∧ values = []
  | dictionary dic => BindsEach (fun c v => (c, v) ∈ dic.entries) assigned values

/-- The `SET` list and the values assign exactly the columns named, each once and as the form
says. -/
def StandsFor (m : Model) (form : SetsForm) (key : String) (values : List Obj) : Prop :=
  ∃ assigned, setClause key = some assigned ∧ (assigned.map (·.1)).Nodup ∧
    (∀ c, c ∈ assigned.map (·.1) ↔ c ∈ form.named) ∧ form.Gives m key assigned values

/-- The forms that the update of a table takes too. -/
def OfTable : SetsForm → Prop
  | assignments _ => True
  | dictionary _ => True
  | _ => False

/-- With every `where` that gives a clause, the update of the model sets what the form stands
for; the update of the table has the same `SET` list. -/
def AssignsAsNamed (R : Runtime) (m : Model) (form : SetsForm) : Prop :=
  ∃ key values, form.StandsFor m key values ∧
    ∀ tableName condition r,
      (extractWhereSql R (updateText (formatted tableName) key) condition true (some m) = .ok r →
        r.error = false →
        createUpdateSQLWithModelAndTableName R m tableName (some form.sets) condition =
          .ok (some (r.sql, values ++ r.values))) ∧
      (form.OfTable →
        extractWhereSql R (updateText (formatted tableName) key) condition false none = .ok r →
        createUpdateSQLWithTableName R tableName (some form.sets) condition =
          .ok (some (r.sql, values ++ r.values)))

/-- What the builder handles. -/
def Handled (m : Model) : SetsForm → Prop
  | columns cs => cs.Nodup ∧ ∀ c ∈ cs, (m.value c).isSome
  | array cs => cs ≠ [] ∧ cs.Nodup ∧ ∀ c ∈ cs, (m.value c).isSome
  | assignments s => ',' ∉ s.toList
  | dictionary dic => dic.entries ≠ []

end SetsForm

variable {R : Runtime} {m : Model} {form : SetsForm}

/-! ### The list of `sets` -/

/-- The update of a model starts with the list of its `sets`. -/
theorem updateSets_of_update {tableName : Option String} {condition : Option Where}
    {sets : Sets} {sql : String} {vs : List Obj}
    (h : createUpdateSQLWithModelAndTableName R m tableName (some sets) condition =
      .ok (some (sql, vs))) :
    ∃ key values r, updateSets m sets = .ok (key, values) ∧
      extractWhereSql R (updateText (formatted tableName) key) condition true (some m) = .ok r ∧
      sql = r.sql ∧ vs = values ++ r.values := by
  unfold createUpdateSQLWithModelAndTableName at h
  obtain ⟨⟨key, values⟩, hsets, h⟩ := Loop.of_bind_ok h
  obtain ⟨r, hr, h⟩ := Loop.of_bind_ok h
  cases he : r.error with
  | true => simp only [he, if_true] at h; cases h
  | false =>
      simp only [he, Bool.false_eq_true, if_false] at h
      cases h
      exact ⟨key, values, r, hsets, hr, rfl, rfl⟩

/-- A `where` with a text is put behind the update. -/
theorem extractWhereSql_text (sql : String) (usePrimaryKey : Bool) (model : Option Model) :
    extractWhereSql R sql (some (.string "1=1")) usePrimaryKey model =
      .ok ⟨sql ++ (" where " ++ "1=1"), [], false⟩ := by
  have hempty : checkStringIsEmpty "1=1" = false := by decide
  unfold extractWhereSql
  simp only [hempty]
  rfl

theorem updateText_inj {T key key' post : String}
    (h : updateText T key ++ post = updateText T key' ++ post) : key = key' := by
  have h := String.append_left_inj post |>.mp h
  unfold updateText at h
  rw [String.append_right_inj, String.append_right_inj, String.append_right_inj,
    String.append_left_inj] at h
  exact h

/-- What the update of a model stands for is what `sets` gives. -/
theorem SetsForm.AssignsAsNamed.sets_ok (h : form.AssignsAsNamed R m) :
    ∃ key values, updateSets m form.sets = .ok (key, values) ∧ form.StandsFor m key values := by
  obtain ⟨key, values, hstands, hrun⟩ := h
  have hrun := (hrun (some "t") (some (.string "1=1")) _).1 (extractWhereSql_text _ _ _) rfl
  obtain ⟨key', values', r, hsets, hr, hsql, hvs⟩ := updateSets_of_update hrun
  rw [extractWhereSql_text] at hr
  cases hr
  rw [List.append_nil, List.append_nil] at hvs
  obtain rfl := updateText_inj hsql
  exact ⟨key, values, hvs ▸ hsets, hstands⟩

theorem SetsForm.AssignsAsNamed.of_sets {key : String} {values : List Obj}
    (hsets : updateSets m form.sets = .ok (key, values)) (hstands : form.StandsFor m key values)
    (htable : form.OfTable → ∀ tableName condition r,
      extractWhereSql R (updateText (formatted tableName) key) condition false none = .ok r →
      createUpdateSQLWithTableName R tableName (some form.sets) condition =
        .ok (some (r.sql, values ++ r.values))) : form.AssignsAsNamed R m := by
  refine ⟨key, values, hstands, fun tableName condition r => ⟨fun hr he => ?_, fun hof =>
    htable hof tableName condition r⟩⟩
  unfold createUpdateSQLWithModelAndTableName
  simp only [setList, hsets]
  show (extractWhereSql _ _ _ _ _ >>= _) = _
  rw [hr]
  show (if r.error = true then _ else _) = _
  rw [he]
  rfl

/-! ### Names -/

/-- The loop over names returns exactly when each has a value. -/
theorem updateColumns_ok_iff {cs : List String} :
    (∃ s, cs.foldlM (updateColumnStep m) ("", []) = .ok s) ↔ ∀ c ∈ cs, (m.value c).isSome := by
  refine Loop.foldlM_ok_iff (P := fun c => (m.value c).isSome) (fun s c _ => ?_) _
  unfold updateColumnStep Model.valueForKey Model.value
  rcases m.valueForKey? c with _ | _ | v
  · exact iff_of_false (by rintro ⟨s', h⟩; cases h) (by simp)
  · exact iff_of_false (by rintro ⟨s', h⟩; cases h) (by simp)
  · exact iff_of_true ⟨_, rfl⟩ rfl

theorem columnBindings_all {cs : List String} (h : ∀ c ∈ cs, (m.value c).isSome) :
    columnBindings m cs = cs.map fun c => (c, (m.value c).getD .null) := by
  induction cs with
  | nil => rfl
  | cons c cs ih =>
      obtain ⟨v, hv⟩ := Option.isSome_iff_exists.mp (h c List.mem_cons_self)
      have ih := ih fun x hx => h x (List.mem_cons_of_mem _ hx)
      simp only [columnBindings] at ih ⊢
      rw [List.filterMap_cons, hv, ih, List.map_cons, hv]
      rfl

theorem updateSets_values {sets : Sets} {cs : List String} (hcs : sets.names = some cs)
    (h : ∀ c ∈ cs, (m.value c).isSome) :
    updateSets m sets = .ok (setText cs, cs.map fun c => (m.value c).getD .null) := by
  obtain ⟨s, hs⟩ := updateColumns_ok_iff.mpr h
  rw [← updateSets_names hcs] at hs
  have hlist := setList_columns hcs hs
  rw [hs, hlist, columnBindings_all h, List.map_map, List.map_map]
  simp [Function.comp_def]

/-- What a list of names gives stands for its assignment exactly when the names differ. -/
theorem names_standsFor_iff {cs : List String} (hn : ∀ c ∈ cs, Name c)
    (hnamed : form.named = cs)
    (hgives : ∀ key assigned values, form.Gives m key assigned values ↔
      SetsForm.BindsEach (fun c v => v = (m.value c).getD .null) assigned values) :
    form.StandsFor m (setText cs) (cs.map fun c => (m.value c).getD .null) ↔
      cs ≠ [] ∧ cs.Nodup := by
  by_cases hne : cs = []
  · subst hne
    have hnone : setClause (setText []) = none := by decide
    simp [SetsForm.StandsFor, hnone]
  have hread : setClause (setText cs) = some (cs.map fun c => (c, "?")) :=
    setClause_marks hne hn
  have hcs : (cs.map fun c => (c, "?")).map Prod.fst = cs := by simp [Function.comp_def]
  constructor
  · rintro ⟨assigned, hassigned, hnodup, -⟩
    obtain rfl := Option.some.inj (hread.symm.trans hassigned)
    exact ⟨hne, hcs ▸ hnodup⟩
  · rintro ⟨-, hnodup⟩
    refine ⟨_, hread, hcs.symm ▸ hnodup, fun c => by rw [hcs, hnamed], ?_⟩
    rw [hgives, SetsForm.BindsEach, List.forall₂_map_left_iff, List.forall₂_map_right_iff]
    exact List.forall₂_same.mpr fun c _ => ⟨rfl, rfl⟩

/-- The two forms with names. -/
theorem names_iff {cs : List String} (hcs : form.sets.names = some cs) (hn : ∀ c ∈ cs, Name c)
    (hnamed : form.named = cs) (htable : ¬ form.OfTable)
    (hgives : ∀ key assigned values, form.Gives m key assigned values ↔
      SetsForm.BindsEach (fun c v => v = (m.value c).getD .null) assigned values) :
    form.AssignsAsNamed R m ↔ cs ≠ [] ∧ cs.Nodup ∧ ∀ c ∈ cs, (m.value c).isSome := by
  constructor
  · intro h
    obtain ⟨key, values, hsets, hstands⟩ := h.sets_ok
    have hsome : ∀ c ∈ cs, (m.value c).isSome := by
      rw [updateSets_names hcs] at hsets
      exact updateColumns_ok_iff.mp ⟨_, hsets⟩
    rw [updateSets_values hcs hsome] at hsets
    cases hsets
    obtain ⟨hne, hnodup⟩ := (names_standsFor_iff hn hnamed hgives).mp hstands
    exact ⟨hne, hnodup, hsome⟩
  · rintro ⟨hne, hnodup, hsome⟩
    exact .of_sets (updateSets_values hcs hsome)
      ((names_standsFor_iff hn hnamed hgives).mpr ⟨hne, hnodup⟩) fun h => absurd h htable

theorem hasSubstring_eq {s : String} : hasSubstring s "=" = true ↔ '=' ∈ s.toList := by
  rw [hasSubstring, decide_eq_true_iff]
  exact List.singleton_infix_iff '=' s.toList

/-- Names with commas between them are the components of their text. -/
theorem components_words {cs : List String} (hne : cs ≠ []) (h : ∀ c ∈ cs, Word c) :
    componentsSeparatedByComma (String.intercalate "," cs) = cs := by
  have hcomma : ∀ x ∈ cs.map String.toList, ',' ∉ x := by
    intro x hx hm
    obtain ⟨c, hc, rfl⟩ := List.mem_map.mp hx
    exact absurd ((h c hc).2 ',' hm) (by decide)
  have hone : ",".toList = [','] := rfl
  rw [componentsSeparatedByComma, String.toList_intercalate, hone,
    List.splitOn_intercalate ',' hcomma (by simpa using hne), List.map_map]
  exact (List.map_congr_left fun c _ => String.ofList_toList).trans (List.map_id _)

theorem names_columns {cs : List String} (hne : cs ≠ []) (h : ∀ c ∈ cs, Word c) :
    (Sets.string (String.intercalate "," cs)).names = some cs := by
  have hcomponents := components_words hne h
  simp only [Sets.names, hcomponents]
  obtain ⟨c, rest, rfl⟩ := List.exists_cons_of_ne_nil hne
  cases rest with
  | cons c' rest => rw [if_pos (by simp)]
  | nil =>
      have hfree : hasSubstring c "=" = false := by
        rw [← Bool.not_eq_true, hasSubstring_eq]
        exact fun hmem => absurd ((h c List.mem_cons_self).2 '=' hmem) (by decide)
      have hone : String.intercalate "," [c] = c := by simp
      rw [if_neg (by simp), hone, hfree]
      rfl

/-! ### Assignments -/

theorem setText_length (cs : List String) :
    (setText cs).length = (String.intercalate "," cs).length + 2 * cs.length := by
  induction cs with
  | nil => rfl
  | cons c cs ih =>
      cases cs with
      | nil =>
          have hmark : ("=?").length = 2 := rfl
          simp [setText, hmark]
      | cons c' cs =>
          simp only [setText, List.map_cons, String.intercalate_cons_cons, String.length_append]
            at ih ⊢
          have hmark : ("=?").length = 2 := rfl
          simp only [List.length_cons] at ih ⊢
          omega

theorem intercalate_components (s : String) :
    String.intercalate "," (componentsSeparatedByComma s) = s := by
  apply String.toList_injective
  have hone : ",".toList = [','] := rfl
  rw [String.toList_intercalate, componentsSeparatedByComma, hone, List.map_map]
  have hid : String.toList ∘ String.ofList = id := funext fun x => String.toList_ofList
  rw [hid, List.map_id, List.intercalate_splitOn]

/-- A text has more than one component exactly when it has a comma. -/
theorem components_length {s : String} :
    (componentsSeparatedByComma s).length > 1 ↔ ',' ∈ s.toList := by
  constructor
  · intro h
    by_contra hm
    rw [componentsSeparatedByComma, List.splitOn_eq_singleton hm] at h
    exact absurd h (by simp)
  · intro hm
    obtain ⟨x, y, hxy⟩ := List.append_of_mem hm
    rw [componentsSeparatedByComma, List.length_map, hxy, List.splitOn_append_cons_self,
      List.length_append]
    have hx := List.length_pos_of_ne_nil (List.splitOn_ne_nil ',' x)
    have hy := List.length_pos_of_ne_nil (List.splitOn_ne_nil ',' y)
    omega

theorem assignments_iff {s : String} (h : (setClause s).isSome) :
    (SetsForm.assignments s).AssignsAsNamed R m ↔ ',' ∉ s.toList := by
  constructor
  · intro hassigns hc
    -- the text is cut into names, and the marks behind them make the list longer than the text
    obtain ⟨key, values, hsets, assigned, -, -, -, hgives⟩ := hassigns.sets_ok
    have hnames : (Sets.string s).names = some (componentsSeparatedByComma s) := by
      rw [Sets.names, if_pos (components_length.mpr hc)]
    have hsome : ∀ c ∈ componentsSeparatedByComma s, (m.value c).isSome := by
      refine updateColumns_ok_iff.mp ⟨(key, values), ?_⟩
      rw [← updateSets_names hnames]
      exact hsets
    have hkey := updateSets_values hnames hsome
    rw [show updateSets m (.string s) = _ from hsets] at hkey
    obtain ⟨rfl, -⟩ := Prod.mk.inj (Except.ok.inj hkey)
    have hlen := setText_length (componentsSeparatedByComma s)
    rw [hgives.1, intercalate_components] at hlen
    have := components_length.mpr hc
    omega
  · intro hc
    obtain ⟨hmem, e, he⟩ := setClause_single h hc
    have heq := hasSubstring_eq.mpr hmem
    have hcount : ¬ (componentsSeparatedByComma s).length > 1 := by rwa [components_length]
    have hsets : updateSets m (.string s) = .ok (s, []) := by
      simp only [updateSets, if_neg hcount, if_pos heq]
      rfl
    have hstands : (SetsForm.assignments s).StandsFor m s [] :=
      ⟨[e], he, by simp, fun c => by simp [SetsForm.named, he], rfl, rfl⟩
    refine .of_sets hsets hstands fun _ tableName condition r hr => ?_
    · show createUpdateSQLWithTableName R tableName (some (.string s)) condition = _
      unfold createUpdateSQLWithTableName
      simp only [heq, if_true]
      show (extractWhereSql _ _ _ _ _ >>= _) = _
      rw [hr]
      rfl

/-! ### Dictionaries -/

theorem dictionary_iff {dic : NSDictionary Obj} (hn : ∀ e ∈ dic.entries, Name e.1) :
    (SetsForm.dictionary dic).AssignsAsNamed R m ↔ dic.entries ≠ [] := by
  have hsets : updateSets m (.dictionary dic) =
      .ok (setText (dic.entries.map (·.1)), dic.entries.map (·.2)) := by
    rw [← foldl_updateAppend]
    rfl
  constructor
  · intro h hnil
    obtain ⟨key, values, hrun, assigned, hread, -⟩ := h.sets_ok
    rw [show updateSets m (.dictionary dic) = _ from hrun] at hsets
    obtain ⟨rfl, -⟩ := Prod.mk.inj (Except.ok.inj hsets)
    have hnone : setClause (setText []) = none := by decide
    rw [hnil, List.map_nil, hnone] at hread
    cases hread
  · intro hne
    have hread : setClause (setText (dic.entries.map (·.1))) =
        some ((dic.entries.map (·.1)).map fun c => (c, "?")) := by
      refine setClause_marks (by simpa using hne) fun c hc => ?_
      obtain ⟨e, he, rfl⟩ := List.mem_map.mp hc
      exact hn e he
    have hcs : ((dic.entries.map (·.1)).map fun c => (c, "?")).map Prod.fst =
        dic.entries.map (·.1) := by simp [Function.comp_def]
    refine .of_sets hsets ⟨_, hread, hcs.symm ▸ dic.nodup, fun c => by rw [hcs]; rfl, ?_⟩
      fun _ tableName condition r hr => ?_
    · rw [SetsForm.Gives, SetsForm.BindsEach, List.map_map, List.forall₂_map_left_iff,
        List.forall₂_map_right_iff]
      exact List.forall₂_same.mpr fun e he => ⟨rfl, he⟩
    · show createUpdateSQLWithTableName R tableName (some (.dictionary dic)) condition = _
      unfold createUpdateSQLWithTableName
      simp only [foldl_updateAppend]
      show (extractWhereSql _ _ _ _ _ >>= _) = _
      rw [hr]
      rfl

/-! ### All forms -/

/-- **Every documented form of `sets` gives the assignment it stands for** exactly when it is one
the builder handles. -/
theorem assignsAsNamed_iff (R : Runtime) (m : Model) (form : SetsForm) (h : form.Documented m) :
    form.AssignsAsNamed R m ↔ form.Handled m := by
  cases form with
  | columns cs =>
      obtain ⟨hne, hcs⟩ := h
      have hnames := names_columns hne fun c hc => (hcs c hc).1.word
      have hiff : (SetsForm.columns cs).AssignsAsNamed R m ↔ _ :=
        names_iff hnames (fun c hc => (hcs c hc).1) rfl id fun _ _ _ => Iff.rfl
      exact hiff.trans (and_iff_right hne)
  | array cs =>
      have hnames : (SetsForm.array cs).sets.names = some cs := rfl
      exact names_iff hnames (fun c hc => (h c hc).1) rfl id fun _ _ _ => Iff.rfl
  | assignments s => exact assignments_iff h
  | dictionary dic => exact dictionary_iff h

/-- A book with a name. -/
def namedBook : Model := .ofIvars bookClass fun key =>
  if key = "_bookId" then some (.string "NSString" "7")
  else if key = "_name" then some (.string "NSString" "Emma")
  else none

/-- A book's identifier and name, by their names in a string. -/
theorem book_identified :
    (SetsForm.columns ["_bookId", "_name"]).AssignsAsNamed demoRuntime namedBook := by
  have hdocumented : ∀ c ∈ ["_bookId", "_name"],
      Name c ∧ (namedBook.valueForKey? c).isSome = true := by decide +kernel
  have hvalue : ∀ c ∈ ["_bookId", "_name"], (namedBook.value c).isSome = true := by
    decide +kernel
  exact (assignsAsNamed_iff demoRuntime namedBook (.columns ["_bookId", "_name"])
    ⟨by decide, hdocumented⟩).mpr ⟨by decide, hvalue⟩

/-- Two assignments are taken for two names, which the model does not know. -/
theorem two_assignments_raise :
    (SetsForm.assignments "_name='a',_bookId='b'").Documented book ∧
      updateSets book (SetsForm.assignments "_name='a',_bookId='b'").sets =
        .error .undefinedKey ∧
      ¬ (SetsForm.assignments "_name='a',_bookId='b'").AssignsAsNamed demoRuntime book := by
  have hraise : updateSets book (SetsForm.assignments "_name='a',_bookId='b'").sets =
      .error .undefinedKey := by decide +kernel
  refine ⟨?_, hraise, fun h => ?_⟩
  · show (setClause _).isSome
    decide +kernel
  · obtain ⟨key, values, hsets, -⟩ := h.sets_ok
    rw [hraise] at hsets
    cases hsets

end NBDataBase
