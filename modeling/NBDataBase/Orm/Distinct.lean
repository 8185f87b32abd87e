import NBDataBase.Orm.Tables

/-!
# Orm — the columns of a `CREATE TABLE`

Whether the statement of `createTableSQLWithTableName` names every column once and keys columns
that it declares.

* `createText`: the text of a `CREATE TABLE`.  `lex_createText`: SQLite reads its columns and its
  primary key in it.
* `WellFormed`: what the columns and the primary key of a statement owe.
* `Apart`: what the properties of a class owe each other.
* `createTableSQL_wellFormed_iff`: the statement of a class is well formed exactly when its
  properties are apart.  The two walks over the hierarchy do not ask for the same properties, and
  neither looks at what it has met.
-/

namespace NBDataBase
open Sql

/-! ### The statement -/

/-- The text of a `CREATE TABLE`. -/
def createText (T : String) (ds : List (String × String)) (pks : List String) : String :=
  "CREATE TABLE IF NOT EXISTS " ++ (T ++ (" (" ++
    (String.intercalate "," (ds.map defText) ++ (pkText pks ++ ")"))))

/-- The columns are distinct ignoring case, the primary key has no repetition, and it is made of
the columns. -/
structure WellFormed (ds : List (String × String)) (pks : List String) : Prop where
  distinct : (ds.map fun d => fold d.1).Nodup
  once : (pks.map fold).Nodup
  declared : ∀ k ∈ pks, k ∈ ds.map (·.1)

/-- No two stored properties have one column, no two key properties have, and a key property that
is not stored has the column of a stored one that is no key. -/
structure Apart (cls : ModelClass) : Prop where
  stored : (properties cls.chain).Pairwise fun p q =>
    p.isStored = true → q.isStored = true → fold p.column ≠ fold q.column
  keys : (properties cls.chain).Pairwise fun p q =>
    isPrimaryKey p.name = true → isPrimaryKey q.name = true → fold p.column ≠ fold q.column
  columns : ∀ p ∈ properties cls.chain, isPrimaryKey p.name = true → p.isStored = false →
    ∃ q ∈ properties cls.chain, q.isStored = true ∧ isPrimaryKey q.name = false ∧
      q.column = p.column

/-- SQLite reads the columns and the primary key of the text. -/
theorem lex_createText {T : String} {ds : List (String × String)} {pks : List String}
    (hT : Word T) (hne : ds ≠ []) (hd : ∀ d ∈ ds, Word d.1 ∧ Word d.2)
    (hp : ∀ k ∈ pks, Word k) :
    lex (createText T ds pks) =
      .word "CREATE" :: .word "TABLE" :: .word "IF" :: .word "NOT" :: .word "EXISTS" ::
        .word T :: .sym '(' :: defTokens ds pks := by
  have hcreate : lex "CREATE TABLE IF NOT EXISTS " =
      [.word "CREATE", .word "TABLE", .word "IF", .word "NOT", .word "EXISTS"] := by decide
  have hopened : Opened (pkText pks ++ ")") := by
    unfold pkText
    split
    · decide
    · rw [String.append_assoc]
      exact Opened.append (by decide) (by decide) _
  have hbody : lex (" (" ++ (String.intercalate "," (ds.map defText) ++ (pkText pks ++ ")"))) =
      .sym '(' :: defTokens ds pks := by
    rw [lex_closed (by decide), lex_opened hopened, lex_definitions hne hd hp]
    rfl
  have htext : lex (createText T ds pks) = lex "CREATE TABLE IF NOT EXISTS " ++
      lex (T ++ (" (" ++ (String.intercalate "," (ds.map defText) ++ (pkText pks ++ ")")))) :=
    lex_closed (by decide)
  rw [htext, hcreate, lex_word_opened hT (Opened.append (by decide) (by decide) _), hbody]
  rfl

/-! ### The names of the columns -/

theorem removeMarker_ne {part : String} {s : List Char} (h : s ≠ []) :
    removeMarker part s ≠ [] := by
  have hlast : s.getLast?.toList ≠ [] := by simp [List.getLast?_eq_some_getLast h]
  exact List.append_ne_nil_of_right_ne_nil _ hlast

/-- A column has a name. -/
theorem Property.column_ne (p : Property) : p.column ≠ "" := by
  have hne : removeMarker dfltValueIdentify (removeMarker notnullIdentify
      (removeMarker primaryKeyIdentify ('_' :: p.name.toList))) ≠ [] :=
    removeMarker_ne (removeMarker_ne (removeMarker_ne (List.cons_ne_nil _ _)))
  intro h
  rw [Property.column, columnNameFromPropertyName, String.ofList_eq_empty_iff] at h
  exact hne h

variable {cls : ModelClass} {T : String} {p : Property}

theorem storedColumns_ne (hp : p ∈ properties cls.chain) (hst : p.isStored = true) :
    storedColumns cls.chain ≠ [] := by
  obtain ⟨hcol, t, ht⟩ := isStored_iff.mp hst
  exact List.ne_nil_of_mem (stored_mem hp hcol ht)

/-- A declared column is that of a stored property. -/
theorem mem_stored_names {c : String} :
    c ∈ (storedColumns cls.chain).map (·.1) ↔
      ∃ p ∈ properties cls.chain, p.isStored = true ∧ p.column = c := by
  constructor
  · intro h
    obtain ⟨d, hd, rfl⟩ := List.mem_map.mp h
    obtain ⟨p, hp, hcol, hc, ht⟩ := mem_storedColumns.mp hd
    exact ⟨p, hp, isStored_iff.mpr ⟨hcol, d.2, ht⟩, hc⟩
  · rintro ⟨p, hp, hst, rfl⟩
    obtain ⟨hcol, t, ht⟩ := isStored_iff.mp hst
    exact List.mem_map.mpr ⟨_, stored_mem hp hcol ht, rfl⟩

theorem storedColumn_eq_some {d : String × String} (h : storedColumn p = some d) :
    p.isStored = true ∧ d.1 = p.column := by
  unfold storedColumn at h
  split at h
  · obtain ⟨t, ht, rfl⟩ := Option.map_eq_some_iff.mp h
    exact ⟨isStored_iff.mpr ⟨‹_›, t, ht⟩, rfl⟩
  · cases h

/-- **The columns are distinct** exactly when no two stored properties have one. -/
theorem storedColumns_nodup_iff :
    ((storedColumns cls.chain).map fun d => fold d.1).Nodup ↔
      (properties cls.chain).Pairwise fun p q =>
        p.isStored = true → q.isStored = true → fold p.column ≠ fold q.column := by
  rw [List.Nodup, List.pairwise_map, storedColumns, List.pairwise_filterMap]
  refine List.Pairwise.iff fun {p q} => ⟨fun h hp hq => ?_, fun h d hd e he => ?_⟩
  · obtain ⟨hpcol, t, ht⟩ := isStored_iff.mp hp
    obtain ⟨hqcol, u, hu⟩ := isStored_iff.mp hq
    exact h (p.column, t) (by simp [storedColumn, hpcol, ht]) (q.column, u)
      (by simp [storedColumn, hqcol, hu])
  · obtain ⟨hp, hdp⟩ := storedColumn_eq_some hd
    obtain ⟨hq, heq⟩ := storedColumn_eq_some he
    rw [hdp, heq]
    exact h hp hq

/-- **The primary key has no repetition** exactly when no two key properties have one column. -/
theorem getPrimaryKeys_nodup_iff :
    ((getPrimaryKeys cls.chain).map fold).Nodup ↔
      (properties cls.chain).Pairwise fun p q =>
        isPrimaryKey p.name = true → isPrimaryKey q.name = true →
          fold p.column ≠ fold q.column := by
  rw [List.Nodup, List.pairwise_map, getPrimaryKeys, List.pairwise_map, List.pairwise_filter]
  exact Iff.rfl

/-! ### Well-formed statements -/

/-- The key that two key properties have in common is the key of one. -/
theorem eq_of_key (h : ((getPrimaryKeys cls.chain).map fold).Nodup) {q : Property}
    (hp : p ∈ properties cls.chain) (hq : q ∈ properties cls.chain)
    (hpk : isPrimaryKey p.name = true) (hqk : isPrimaryKey q.name = true)
    (hpq : p.column = q.column) : p = q := by
  rw [getPrimaryKeys, List.map_map] at h
  exact List.inj_on_of_nodup_map h (List.mem_filter.mpr ⟨hp, hpk⟩) (List.mem_filter.mpr ⟨hq, hqk⟩)
    (congrArg fold hpq)

theorem WellFormed.apart (h : WellFormed (storedColumns cls.chain) (getPrimaryKeys cls.chain)) :
    Apart cls where
  stored := storedColumns_nodup_iff.mp h.distinct
  keys := getPrimaryKeys_nodup_iff.mp h.once
  columns p hp hk hst := by
    obtain ⟨q, hq, hqst, hqp⟩ :=
      mem_stored_names.mp (h.declared p.column (mem_getPrimaryKeys.mpr ⟨p, hp, hk, rfl⟩))
    refine ⟨q, hq, hqst, ?_, hqp⟩
    by_contra hqk
    -- otherwise the two keys are one, which is stored
    obtain rfl := eq_of_key h.once hq hp (eq_true_of_ne_false hqk) hk hqp
    rw [hst] at hqst
    cases hqst

theorem Apart.wellFormed (h : Apart cls) :
    WellFormed (storedColumns cls.chain) (getPrimaryKeys cls.chain) where
  distinct := storedColumns_nodup_iff.mpr h.stored
  once := getPrimaryKeys_nodup_iff.mpr h.keys
  declared k hk := by
    obtain ⟨p, hp, hkey, rfl⟩ := mem_getPrimaryKeys.mp hk
    rw [mem_stored_names]
    cases hst : p.isStored with
    | true => exact ⟨p, hp, hst, rfl⟩
    | false =>
        obtain ⟨q, hq, hqst, -, hqp⟩ := h.columns p hp hkey hst
        exact ⟨q, hq, hqst, hqp⟩

/-- **The `CREATE TABLE` of a class** with a stored property is well formed exactly when its
properties are apart. -/
theorem createTableSQL_wellFormed_iff (cls : ModelClass) (tableName : Option String) (T : String)
    (hT : tableName.or cls.getTableName = some T)
    (hstored : ∃ p ∈ properties cls.chain, p.isStored = true) :
    createTableSQLWithTableName cls tableName =
        some (createText T (storedColumns cls.chain) (getPrimaryKeys cls.chain)) ∧
      (WellFormed (storedColumns cls.chain) (getPrimaryKeys cls.chain) ↔ Apart cls) := by
  obtain ⟨p, hp, hst⟩ := hstored
  refine ⟨createTableSQL_run hT (storedColumns_ne hp hst) fun k hk => ?_,
    WellFormed.apart, Apart.wellFormed⟩
  obtain ⟨q, -, -, rfl⟩ := mem_getPrimaryKeys.mp hk
  exact q.column_ne

/-- A book's table. -/
theorem book_table_wellFormed :
    WellFormed (storedColumns bookClass.chain) (getPrimaryKeys bookClass.chain) := by
  have hstored : ∃ p ∈ properties bookClass.chain, p.isStored = true := by decide +kernel
  refine (createTableSQL_wellFormed_iff bookClass none "tb_books" rfl hstored).2.mpr ⟨?_, ?_, ?_⟩
  · decide +kernel
  · decide +kernel
  · decide +kernel

/-! ### A redeclared property -/

/-- `Novel`, a `Book` that redeclares its name. -/
def novelClass : ModelClass where
  chain :=
    { name := "Novel"
      properties := [⟨"name", "@\"NSString\"", "name"⟩, ⟨"genre", "@\"NSString\"", "genre"⟩]
      ivars := [⟨"_genre", "@\"NSString\""⟩] } :: bookClass.chain
  getTableName := some "tb_novels"
  ivar_word := by decide

/-- The table of novels has two columns of one name. -/
theorem novel_name_twice :
    (∃ p ∈ properties novelClass.chain, p.isStored = true) ∧
    createTableSQL novelClass = some ("CREATE TABLE IF NOT EXISTS tb_novels (" ++
      ("_name VARCHAR,_genre VARCHAR,_bookId VARCHAR,_name VARCHAR,_infoDic BLOB,_author BLOB" ++
        ",PRIMARY KEY(_bookId))")) ∧
    ¬ WellFormed (storedColumns novelClass.chain) (getPrimaryKeys novelClass.chain) := by
  refine ⟨by decide +kernel, by decide +kernel, fun h => ?_⟩
  have hdistinct := h.distinct
  revert hdistinct
  decide +kernel

end NBDataBase
