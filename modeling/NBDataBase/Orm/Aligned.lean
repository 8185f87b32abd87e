import NBDataBase.Orm.Placeholders

/-!
# Orm — statements and their values

The marks of whole statements.

* `replaceTableName_placed`: the table in place of `@t` leaves every mark beside its key, unless
  the key has `@t` between blanks in it.
* `BuilderCall`: the calls of the statement builders.  `BuilderCall.taken`: from which columns and
  keys a call takes a value, for the list of the statement and for its `WHERE`.
* `placeholders_aligned`: a call whose texts have no `?` returns as many values as marks, each for
  the mark beside the column it was taken from.
* `placeholders_shift`: not of a key that has `@t` between blanks in it, nor of an insert that
  names a column that is empty or has a comma in it.
-/

namespace NBDataBase
open Sql
open Marks (Aligned Forward)

/-! ### The table in place of `@t` -/

/-- The key, put between blanks, has no ` @t ` in it, in either case. -/
def Untabled (c : String) : Prop :=
  ¬ " @t ".toList <:+: ' ' :: (c.toList.map Char.toLower ++ [' '])

instance (c : String) : Decidable (Untabled c) := by unfold Untabled; infer_instance

/-- Text without a blank adds no ` @t `. -/
theorem not_infix_append {s t : List Char} (hs : ¬ " @t ".toList <:+: s) (ht : ' ' ∉ t) :
    ¬ " @t ".toList <:+: s ++ t := by
  induction t using List.reverseRecOn with
  | nil => simpa using hs
  | append_singleton t c ih =>
      have hc : c ≠ ' ' := fun h => ht (by simp [h])
      have ih := ih fun h => ht (List.mem_append_left _ h)
      rw [← List.append_assoc, List.infix_concat_iff]
      rintro (h | h)
      · rcases List.suffix_concat_iff.mp h with h | ⟨x, h, -⟩
        · cases h
        · have hlast := congrArg List.getLast? h
          rw [List.getLast?_concat] at hlast
          exact hc (Option.some.inj hlast).symm
      · exact ih h

/-- The comparison of such a key has none either. -/
theorem Compares.untabled {c : String} {t : List Char} (h : Compares c t) (hc : Untabled c) :
    ¬ " @t ".toList <:+: ' ' :: t.map Char.toLower := by
  cases h with
  | eq =>
      rw [List.map_append, ← List.cons_append]
      refine not_infix_append (fun hin => hc (hin.trans ?_)) (by decide)
      rw [← List.cons_append]
      exact (List.prefix_append _ _).isInfix
  | isIn i =>
      -- the blank before `in` ends what can be ` @t `
      have hsplit : ' ' :: (c.toList ++ (" in(".toList ++
          (List.replicate i "?,".toList).flatten)).map Char.toLower =
          ' ' :: (c.toList.map Char.toLower ++ [' ']) ++ ("in(".toList ++
            (List.replicate i "?,".toList).flatten).map Char.toLower := by simp
      rw [hsplit]
      refine not_infix_append hc ?_
      rw [List.map_append, List.mem_append, List.map_flatten, List.map_replicate]
      rintro (h | h)
      · exact absurd h (by decide)
      · obtain ⟨x, hx, hm⟩ := List.mem_flatten.mp h
        rw [List.eq_of_mem_replicate hx] at hm
        exact absurd hm (by decide)

/-- A piece of a text in which ` @t ` is replaced: a character that is kept, or an occurrence with
what takes its place. -/
def TablePiece (str : List Char) (g : List Char × List Char) : Prop :=
  (∃ c, g = ([c], [c])) ∨ (g.1.map Char.toLower = " @t ".toList ∧ g.2 = str)

/-- The text in pieces. -/
theorem replaceOccurrences_pieces (str s : List Char) :
    ∃ segs : List (List Char × List Char), (∀ g ∈ segs, TablePiece str g) ∧
      segs.flatMap (·.1) = s ∧
      segs.flatMap (·.2) = replaceOccurrences " @t ".toList str 0 s := by
  rw [replaceOccurrences_eq]
  -- Each step takes a character or an occurrence off the text.
  induction hn : s.length using Nat.strong_induction_on generalizing s with
  | _ n ih =>
      rcases Occurrences.replaced_cases Char.toLower " @t ".toList s with
        rfl | ⟨w, t, rfl, hw⟩ | ⟨c, t, rfl, hnot⟩
      · exact ⟨[], by simp, rfl, rfl⟩
      · have hlen : w.length = 4 := by simpa using congrArg List.length hw
        obtain ⟨segs, hsegs, hsrc, himg⟩ := ih t.length
          (by rw [← hn, List.length_append]; omega) t rfl
        refine ⟨(w, str) :: segs, ?_, ?_, ?_⟩
        · intro g hg
          rcases List.mem_cons.mp hg with rfl | hg
          · exact .inr ⟨hw.trans (by decide), rfl⟩
          · exact hsegs g hg
        · rw [List.flatMap_cons, hsrc]
        · rw [List.flatMap_cons, himg, Occurrences.replaced_starts (by decide) hw]
      · obtain ⟨segs, hsegs, hsrc, himg⟩ := ih t.length (by simp [← hn]) t rfl
        refine ⟨([c], [c]) :: segs, ?_, ?_, ?_⟩
        · intro g hg
          rcases List.mem_cons.mp hg with rfl | hg
          · exact .inl ⟨c, rfl⟩
          · exact hsegs g hg
        · rw [List.flatMap_cons, hsrc]
          rfl
        · rw [List.flatMap_cons, himg, Occurrences.replaced_cons hnot]
          rfl

/-- A text that starts with a blank and reaches into ` @t ` has it in it. -/
theorem infix_of_suffix_table {w u : List Char} (hu : u ≠ [])
    (h : ' ' :: u <:+ w ++ " @t ".toList) : " @t ".toList <:+: ' ' :: u := by
  have htable : " @t ".toList = [' ', '@', 't', ' '] := by decide
  rw [htable] at h ⊢
  rcases List.suffix_or_suffix_of_suffix h (List.suffix_append w [' ', '@', 't', ' ']) with h | h
  · simp only [List.suffix_cons_iff, List.cons.injEq, true_and, List.suffix_nil, reduceCtorEq,
      or_false] at h
    rcases h with rfl | h | h | rfl
    · exact List.infix_rfl
    · exact absurd h.1 (by decide)
    · exact absurd h.1 (by decide)
    · exact absurd rfl hu
  · exact h.isInfix

/-- A comparison without ` @t ` stays before its mark: an occurrence of ` @t ` ends at the
latest with the blank before the key. -/
theorem suffix_replaced {str t : List Char} {done : List (List Char × List Char)}
    (hdone : ∀ g ∈ done, TablePiece str g) (hstr : [' '] <:+ str)
    (ht : ¬ " @t ".toList <:+: ' ' :: t.map Char.toLower)
    (h : ' ' :: t <:+ done.flatMap (·.1)) :
    ' ' :: t <:+ done.flatMap (·.2) := by
  induction done using List.reverseRecOn generalizing t with
  | nil => exact absurd (List.suffix_nil.mp h) (by simp)
  | append_singleton done g ih =>
      have ih := fun {t} => @ih t fun x hx => hdone x (List.mem_append_left _ hx)
      simp only [List.flatMap_append, List.flatMap_singleton] at h ⊢
      rcases hdone g (by simp) with ⟨c, rfl⟩ | ⟨hlow, himg⟩
      · -- A kept character is the last one of both texts.
        rcases List.eq_nil_or_concat t with rfl | ⟨t, d, rfl⟩
        · rcases List.suffix_concat_iff.mp h with h | ⟨x, hx, -⟩
          · cases h
          · have hx : [] ++ [' '] = x ++ [c] := hx
            obtain ⟨rfl, hc⟩ := List.append_inj' hx rfl
            exact hc ▸ List.suffix_append _ _
        · rw [List.concat_eq_append, ← List.cons_append] at h ⊢
          rcases List.suffix_concat_iff.mp h with h | ⟨x, hx, hsuffix⟩
          · cases h
          · obtain ⟨rfl, hd⟩ := List.append_inj' hx rfl
            have hfree : ¬ " @t ".toList <:+: ' ' :: t.map Char.toLower := fun hin => ht (by
              rw [List.concat_eq_append, List.map_append, ← List.cons_append]
              exact hin.trans (List.prefix_append _ _).isInfix)
            obtain ⟨y, hy⟩ := ih hfree hsuffix
            exact ⟨y, by rw [← hy, hd, List.append_assoc]⟩
      · by_cases hnil : t = []
        · subst hnil
          rw [himg]
          exact hstr.trans (List.suffix_append _ _)
        · -- Of an occurrence only the blank at its end can belong to `t`.
          have hsuffix := h.map Char.toLower
          rw [List.map_append, hlow] at hsuffix
          exact absurd (infix_of_suffix_table (by simpa using hnil) hsuffix) ht

/-- **The table takes the place of `@t`** and leaves every mark beside its key. -/
theorem replaceTableName_placed {β : Type} {taken : String → β → Prop} {query T : String}
    {values : List β} (hT : MarkFree T) (hkey : ∀ c v, taken c v → Untabled c)
    (h : Placed (Compared taken) query values) :
    Placed (Compared taken) (replaceTableName query T) values := by
  have hquery : Placed (Compared taken)
      (if " @t".toList <:+ query.toList then query ++ " " else query) values := by
    split
    · exact h.then_plain (by decide)
    · exact h
  rw [replaceTableName, Placed, String.toList_ofList]
  obtain ⟨segs, hsegs, hsrc, himg⟩ := replaceOccurrences_pieces (" " ++ (T ++ " ")).toList
    (if " @t".toList <:+ query.toList then query ++ " " else query).toList
  rw [← himg]
  rw [Placed, ← hsrc] at hquery
  have hstr : MarkFree (" " ++ (T ++ " ")) := MarkFree.append (by decide) (hT.append (by decide))
  refine Aligned.rewrite ?_ hsegs ?_ hquery
  · rintro g (hkept | ⟨hlow, himg⟩)
    · exact .inl hkept
    · refine .inr ⟨fun hm => ?_, himg ▸ hstr⟩
      have hlower : Char.toLower '?' ∈ g.1.map Char.toLower := List.mem_map_of_mem hm
      rw [hlow] at hlower
      exact absurd hlower (by decide)
  · rintro done hdone v ⟨c, t, hc, ht, hsuffix⟩
    refine ⟨c, t, hc, ht, suffix_replaced hdone ?_ (ht.untabled (hkey c v hc)) hsuffix⟩
    rw [String.toList_append, String.toList_append, ← List.append_assoc]
    exact List.suffix_append _ _

/-! ### `SELECT` -/

/-- The texts and the names of a query have no `?`. -/
structure PlainParams (params : NBDBQueryParams) : Prop where
  tableName : PlainOption params.tableName
  tableClass : PlainOption (params.tableClass.bind ModelClass.getTableName)
  toClass : PlainOption (params.toClass.bind ModelClass.getTableName)
  columnArray : ∀ c ∈ params.columnArray, MarkFree c
  columns : PlainOption params.columns
  condition : PlainOption params.condition
  groupBy : PlainOption params.groupBy
  orderBy : PlainOption params.orderBy
  whereDic : ∀ dic ∈ params.whereDic, ∀ e ∈ dic.entries, MarkFree e.1

structure PlainUnionParams (params : NBDBUnionParams) : Prop
    extends PlainParams params.toNBDBQueryParams where
  followTableName : PlainOption params.followTableName
  followTableClass : PlainOption (params.followTableClass.bind ModelClass.getTableName)
  followColumnsArray : ∀ c ∈ params.followColumnsArray, MarkFree c
  followColumns : PlainOption params.followColumns
  leftJoinColumnsArray : ∀ c ∈ params.leftJoinColumnsArray, MarkFree c
  leftJoinColumns : PlainOption params.leftJoinColumns
  followWhereDic : ∀ dic ∈ params.followWhereDic, ∀ e ∈ dic.entries, MarkFree e.1
  followWhere : PlainOption params.followWhere

theorem markFree_int (n : ℤ) : MarkFree (toString n) := by
  intro h
  rcases mem_toString h with h | h
  · exact absurd h (by decide)
  · exact absurd h (by decide)

theorem markFree_mainTableName {params : NBDBQueryParams} (h : PlainParams params) :
    PlainOption (mainTableName params) :=
  (h.tableName.or h.tableClass).or h.toClass

/-- What ends a query has no mark. -/
theorem sqlString_plain {params : NBDBQueryParams} (h : PlainParams params) (sql : String) :
    ∃ rest, sqlString sql params = sql ++ rest ∧ MarkFree rest := by
  -- Each part is left out, or appended.
  have hpart : ∀ (b : Bool) {part : String} (sql : String), MarkFree part →
      ∃ rest, (if b then sql else sql ++ part) = sql ++ rest ∧ MarkFree rest := by
    intro b part sql hp
    cases b with
    | true => exact ⟨"", by rw [if_pos rfl, String.append_empty], by decide⟩
    | false => exact ⟨part, rfl, hp⟩
  have hgroupBy : MarkFree " group by " := by decide
  have horderBy : MarkFree " order by " := by decide
  have hlimit : MarkFree (" limit " ++ (toString params.count ++ (" offset " ++
      toString params.offset))) :=
    MarkFree.append (by decide) ((markFree_int _).append
      (MarkFree.append (by decide) (markFree_int _)))
  have hoffset : MarkFree (" limit 2147483647 offset " ++ toString params.offset) :=
    MarkFree.append (by decide) (markFree_int _)
  obtain ⟨group, hgroup, hgroupPlain⟩ := hpart (checkIsEmpty params.groupBy) sql
    (hgroupBy.append (markFree_formatted h.groupBy))
  obtain ⟨order, horder, horderPlain⟩ := hpart (checkIsEmpty params.orderBy) (sql ++ group)
    (horderBy.append (markFree_formatted h.orderBy))
  unfold sqlString
  simp only [hgroup, horder]
  split
  · exact ⟨_, by rw [String.append_assoc, String.append_assoc], hgroupPlain.append
      (horderPlain.append hlimit)⟩
  · split
    · exact ⟨_, by rw [String.append_assoc, String.append_assoc], hgroupPlain.append
        (horderPlain.append hoffset)⟩
    · exact ⟨_, by rw [String.append_assoc], hgroupPlain.append horderPlain⟩

theorem sqlString_placed {β : Type} {P : List Char → β → Prop} {params : NBDBQueryParams}
    (hc : PlainParams params) {sql : String} {values : List β} (h : Placed P sql values) :
    Placed P (sqlString sql params) values := by
  obtain ⟨rest, hrest, hplain⟩ := sqlString_plain hc sql
  rw [hrest]
  exact h.then_plain hplain

theorem conditionGives_none {condition : Option Where} {c : String} {v : Obj}
    (h : conditionGives condition none c v) :
    ∃ dic, condition = some (.dictionary dic) ∧ dic.Gives c v := by
  unfold conditionGives at h
  split at h
  · exact ⟨_, rfl, h⟩
  · rename_i heq
    cases heq
  · exact h.elim

theorem NSDictionary.Gives.mem {dic : NSDictionary WhereValue} {c : String} {v : Obj}
    (h : dic.Gives c v) : ∃ e ∈ dic.entries, e.1 = c := by
  rcases h with h | ⟨vlist, h, -⟩
  · exact ⟨_, h, rfl⟩
  · exact ⟨_, h, rfl⟩

theorem createSelectSQLWithParams_placed {R : Runtime} {params : NBDBQueryParams}
    (hc : PlainParams params)
    (hkey : ∀ dic ∈ params.whereDic, ∀ e ∈ dic.entries, Untabled e.1)
    {text : String} {values : List Obj}
    (h : createSelectSQLWithParams R params = .ok (some (text, values))) :
    Placed (Compared (conditionGives (queryCondition params) none)) text values := by
  have hcolumns : MarkFree (columnsString params) := by
    unfold columnsString
    split
    · exact markFree_intercalate hc.columnArray
    · split
      · decide
      · exact markFree_formatted hc.columns
  have hselect := MarkFree.append (by decide : MarkFree "select ")
    (hcolumns.append (by decide : MarkFree " from @t"))
  have hcondition : PlainWhere (queryCondition params) := by
    have hstring : PlainWhere (params.condition.map .string) := by
      cases hs : params.condition with
      | none => trivial
      | some s => exact hc.condition s hs
    unfold queryCondition
    cases hdic : params.whereDic with
    | none => exact hstring
    | some dic =>
        dsimp only
        split
        · exact hc.whereDic dic hdic
        · exact hstring
  cases hmain : mainTableName params with
  | none =>
      rw [createSelectSQLWithParams, hmain] at h
      cases h
  | some T =>
      cases hblank : checkStringIsEmpty T with
      | true =>
          simp only [createSelectSQLWithParams, hmain, hblank, if_true] at h
          cases h
      | false =>
          rw [createSelectSQLWithParams_eq R hmain hblank] at h
          obtain ⟨r, hr, h⟩ := Loop.of_bind_ok h
          obtain ⟨clause, hsql, hplaced⟩ := extractWhereSql_placed hcondition hr
          obtain ⟨rfl, rfl⟩ := Prod.mk.inj (Option.some.inj (Except.ok.inj h))
          refine replaceTableName_placed (markFree_mainTableName hc T hmain) ?_ ?_
          · intro c v hv
            obtain ⟨dic, hdic, hgives⟩ := conditionGives_none hv
            obtain ⟨e, he, rfl⟩ := hgives.mem
            exact hkey dic (queryCondition_dictionary hdic).1 e he
          · refine sqlString_placed hc ?_
            rw [hsql]
            exact hplaced.after compared_forward hselect

/-! ### `LEFT JOIN` -/

theorem markFree_namedColumns {array : List String} {columns : Option String}
    (ha : ∀ c ∈ array, MarkFree c) (hc : PlainOption columns) :
    ∀ c ∈ namedColumns array columns, MarkFree c := by
  unfold namedColumns
  split
  · exact ha
  · split
    · exact fun c hc => by cases hc
    · exact fun c hm => markFree_component (markFree_formatted hc) hm

theorem markFree_tableColumns {lead table : String} {columns : List String} (hlead : MarkFree lead)
    (ht : MarkFree table) (hc : ∀ c ∈ columns, MarkFree c) :
      MarkFree (tableColumns lead table columns) := by
  refine List.foldlRecOn (motive := MarkFree) columns.zipIdx _ (by decide) fun s hs v hv => ?_
  have hcolumn : MarkFree v.1 := hc v.1 (List.fst_mem_of_mem_zipIdx hv)
  refine hs.append (MarkFree.append ?_ (ht.append
    (MarkFree.append (by decide) (hcolumn.append ?_))))
  · split
    · decide
    · exact hlead
  · split <;> decide

theorem markFree_joinedColumns {main follow : String} {columns : List String} (hm : MarkFree main)
    (hf : MarkFree follow) (hc : ∀ c ∈ columns, MarkFree c) :
    MarkFree (joinedColumns main follow columns) := by
  refine List.foldlRecOn (motive := MarkFree) columns.zipIdx _ (by decide) fun s hs v hv => ?_
  have hcolumn : MarkFree v.1 := hc v.1 (List.fst_mem_of_mem_zipIdx hv)
  have hpair : MarkFree (follow ++ ("." ++ (v.1 ++ " "))) :=
    hf.append (MarkFree.append (by decide) (hcolumn.append (by decide)))
  refine hs.append (MarkFree.append ?_ (MarkFree.append (by decide)
    (hm.append (MarkFree.append (by decide)
    (hcolumn.append (MarkFree.append (by decide) hpair))))))
  split <;> decide

theorem markFree_unionColumns {params : NBDBUnionParams} (hc : PlainUnionParams params)
    {main follow : String} (hm : MarkFree main) (hf : MarkFree follow) :
    MarkFree (unionColumns main follow params) := by
  have hmain : MarkFree (tableColumns "" main (namedColumns params.columnArray params.columns)) :=
    markFree_tableColumns (by decide) hm (markFree_namedColumns hc.columnArray hc.columns)
  have hfollow : MarkFree (tableColumns " " follow
      (namedColumns params.followColumnsArray params.followColumns)) :=
    markFree_tableColumns (by decide) hf (markFree_namedColumns hc.followColumnsArray
      hc.followColumns)
  unfold unionColumns
  dsimp only
  generalize tableColumns "" main _ = mainColumns at hmain ⊢
  generalize namedColumns params.followColumnsArray params.followColumns = array at hfollow ⊢
  generalize tableColumns " " follow array = followColumns at hfollow ⊢
  have hcolumns : MarkFree (mainColumns ++ ((if array.length > 0 ∧ mainColumns.length > 1 then ","
      else "") ++ followColumns)) := by
    refine hmain.append (MarkFree.append ?_ hfollow)
    split <;> decide
  generalize mainColumns ++ _ = columns at hcolumns ⊢
  split
  · exact hcolumns.append (by decide)
  · exact hcolumns

/-- The values of a dictionary that may be nil. -/
def dicGives (dic : Option (NSDictionary WhereValue)) (c : String) (v : Obj) : Prop :=
  ∃ d ∈ dic, d.Gives c v

/-- The marks of a condition on one of two tables. -/
theorem tableWhere_placed {keyword table : String} {dic : Option (NSDictionary WhereValue)}
    {condition : Option String} (hk : MarkFree keyword) (ht : MarkFree table)
    (hdic : ∀ d ∈ dic, ∀ e ∈ d.entries, MarkFree e.1) (hc : PlainOption condition) :
    Placed (Compared (dicGives dic)) (tableWhere keyword table dic condition).1
      (tableWhere keyword table dic condition).2 := by
  unfold tableWhere
  cases dic with
  | none =>
      dsimp only
      split
      · exact placed_plain (by decide)
      · exact placed_plain (hk.append (markFree_formatted hc))
  | some dic =>
      dsimp only
      split
      · have hplaced := dictionaryToSqlWhere_placed (hdic dic rfl)
        refine .after compared_forward hk (.after compared_forward ht (.after compared_forward
          (by decide) (hplaced.mono ?_)))
        rintro pre v ⟨c, t, hgives, hrest⟩
        exact ⟨c, t, ⟨dic, rfl, hgives⟩, hrest⟩
      · exact placed_plain (by decide)

/-- What a part of a statement takes its values from: its list, or its `WHERE`. -/
inductive Part where
  | list | condition
  deriving DecidableEq

/-- The values of a part, each with the part. -/
def valuesOf (part : Part) (values : List Obj) : List (Part × Obj) := values.map fun v => (part, v)

theorem Placed.ofPart {taken : Part → String → Obj → Prop} {part : Part} {text : String}
    {values : List Obj} (h : Placed (Compared (taken part)) text values) :
    Placed (Compared fun c x => taken x.1 c x.2) text (valuesOf part values) :=
  List.forall₂_map_right_iff.mpr h

theorem Placed.besideOfPart {taken : Part → String → Obj → Prop} {part : Part} {text : String}
    {values : List Obj} (h : Placed (BesideTaken (taken part)) text values) :
    Placed (BesideTaken fun c x => taken x.1 c x.2) text (valuesOf part values) :=
  List.forall₂_map_right_iff.mpr h

/-- The values of a query of two tables: the condition on the second is part of the join. -/
def unionGives (params : NBDBUnionParams) : Part → String → Obj → Prop
  | .list => dicGives params.followWhereDic
  | .condition => dicGives params.whereDic

theorem createUnionSelectSQLWithParams_placed {params : NBDBUnionParams}
    (hc : PlainUnionParams params)
    (hkey : ∀ dic ∈ params.whereDic, ∀ e ∈ dic.entries, Untabled e.1)
    (hfollowKey : ∀ dic ∈ params.followWhereDic, ∀ e ∈ dic.entries, Untabled e.1)
    {text : String} {values : List Obj} (h : createUnionSelectSQLWithParams params =
      some (text, values)) :
    ∃ vs ws, values = vs ++ ws ∧ Placed (Compared fun c x => unionGives params x.1 c x.2) text
      (valuesOf .list vs ++ valuesOf .condition ws) := by
  unfold createUnionSelectSQLWithParams at h
  cases hmain : mainTableName params.toNBDBQueryParams with
  | none => rw [hmain] at h; cases h
  | some main =>
      simp only [hmain] at h
      split at h
      · cases h
      · obtain ⟨rfl, rfl⟩ := Prod.mk.inj (Option.some.inj h)
        have hm : MarkFree main := markFree_mainTableName hc.toPlainParams main hmain
        have hf : MarkFree (formatted (params.followTableName.or
            (params.followTableClass.bind ModelClass.getTableName))) :=
          markFree_formatted (hc.followTableName.or hc.followTableClass)
        have hon := markFree_joinedColumns hm hf
          (markFree_namedColumns hc.leftJoinColumnsArray hc.leftJoinColumns)
        have hquery := MarkFree.append (by decide : MarkFree "select ")
          ((markFree_unionColumns hc hm hf).append
          (MarkFree.append (by decide : MarkFree " from @t left join ") hf))
        have hfollow : Placed (Compared (unionGives params .list)) _ _ :=
          tableWhere_placed (by decide : MarkFree " and ") hf hc.followWhereDic hc.followWhere
        have hcondition : Placed (Compared (unionGives params .condition)) _ _ :=
          tableWhere_placed (by decide : MarkFree " where ") hm hc.whereDic hc.condition
        refine ⟨_, _, rfl, replaceTableName_placed hm ?_ (sqlString_placed hc.toPlainParams
          (.append compared_forward (.after compared_forward hquery
            (.after compared_forward hon hfollow.ofPart)) hcondition.ofPart))⟩
        rintro c ⟨part, v⟩ hv
        cases part with
        | list =>
            obtain ⟨dic, hdic, hgives⟩ := hv
            obtain ⟨e, he, rfl⟩ := hgives.mem
            exact hfollowKey dic hdic e he
        | condition =>
            obtain ⟨dic, hdic, hgives⟩ := hv
            obtain ⟨e, he, rfl⟩ := hgives.mem
            exact hkey dic hdic e he

/-! ### The calls -/

/-- A call of a statement builder. -/
inductive BuilderCall where
  | createInsertSQLWithColumns (model : Model) (tableName : Option String)
      (columns : Option Columns) (replace : Bool)
  | createInsertSQLWithModelAndBeginClass (model : Model) (beginClass : ModelClass)
      (replace : Bool)
  | createUpdateSQLWithModelAndTableName (model : Model) (tableName : Option String)
      (sets : Option Sets) (condition : Option Where)
  | createUpdateSQLWithTableName (tableName : Option String) (sets : Option Sets)
      (condition : Option Where)
  | createDeleteSQL (model : Model) (condition : Option Where)
  | createDeleteSQLWithModelAndTableName (model : Model) (tableName : Option String)
      (condition : Option Where)
  | createDeleteSQLWithTableName (tableName : Option String) (condition : Option Where)
  | createSelectSQLWithPrimaryKeyAndTableName (model : Model) (tableName : Option String)
      (fieldName : Option String)
  | createSelectSQLWithParams (params : NBDBQueryParams)
  | createUnionSelectSQLWithParams (params : NBDBUnionParams)

/-- The columns that a `columns` argument names. -/
def Columns.names : Columns → List String
  | .string s => componentsSeparatedByComma s
  | .array columns => columns
  | .other => []

/-- The values of an insert, by their columns: of the columns it names, or of the properties. -/
def insertGives (R : Runtime) (model : Model) (chain : List ClassDecl) (columns : Option Columns)
    (c : String) (v : Obj) : Prop :=
  match columns with
  | some _ => model.valueForKey c = .ok (some v)
  | none => ∃ p ∈ properties chain, p.column = c ∧
      ∃ w, model.valueForKey c = .ok (some w) ∧ v = p.encode R w

namespace BuilderCall

def run (R : Runtime) : BuilderCall → Except Fault (Option (String × List Obj))
  | createInsertSQLWithColumns model tableName columns replace =>
      NBDataBase.createInsertSQLWithColumns R model tableName columns replace
  | createInsertSQLWithModelAndBeginClass model beginClass replace =>
      NBDataBase.createInsertSQLWithModelAndBeginClass R model beginClass replace
  | createUpdateSQLWithModelAndTableName model tableName sets condition =>
      NBDataBase.createUpdateSQLWithModelAndTableName R model tableName sets condition
  | createUpdateSQLWithTableName tableName sets condition =>
      NBDataBase.createUpdateSQLWithTableName R tableName sets condition
  | createDeleteSQL model condition => NBDataBase.createDeleteSQL R model condition
  | createDeleteSQLWithModelAndTableName model tableName condition =>
      NBDataBase.createDeleteSQLWithModelAndTableName R model tableName condition
  | createDeleteSQLWithTableName tableName condition =>
      NBDataBase.createDeleteSQLWithTableName R tableName condition
  | createSelectSQLWithPrimaryKeyAndTableName model tableName fieldName =>
      NBDataBase.createSelectSQLWithPrimaryKeyAndTableName R model tableName fieldName
  | createSelectSQLWithParams params => NBDataBase.createSelectSQLWithParams R params
  | createUnionSelectSQLWithParams params =>
      .ok (NBDataBase.createUnionSelectSQLWithParams params)

/-- The texts and the names of the call have no `?`. -/
def Unmarked : BuilderCall → Prop
  | createInsertSQLWithColumns model tableName columns _ =>
      PlainOption tableName ∧ PlainOption model.cls.getTableName ∧
        ∀ cs ∈ columns, ∀ c ∈ cs.names, MarkFree c
  | createInsertSQLWithModelAndBeginClass _ beginClass _ => PlainOption beginClass.getTableName
  | createUpdateSQLWithModelAndTableName _ tableName sets condition
  | createUpdateSQLWithTableName tableName sets condition =>
      PlainOption tableName ∧ PlainSets sets ∧ PlainWhere condition
  | createDeleteSQL model condition =>
      PlainOption model.cls.getTableName ∧ PlainWhere condition
  | createDeleteSQLWithModelAndTableName model tableName condition =>
      PlainOption tableName ∧ PlainOption model.cls.getTableName ∧ PlainWhere condition
  | createDeleteSQLWithTableName tableName condition =>
      PlainOption tableName ∧ PlainWhere condition
  | createSelectSQLWithPrimaryKeyAndTableName _ tableName fieldName =>
      PlainOption tableName ∧ PlainOption fieldName
  | createSelectSQLWithParams params => PlainParams params
  | createUnionSelectSQLWithParams params => PlainUnionParams params

/-- No column that an insert names is empty or has a comma in it, and no key of a query has `@t`
between blanks in it. -/
def Separate : BuilderCall → Prop
  | createInsertSQLWithColumns _ _ columns _ =>
      ∀ cs ∈ columns, ∀ c ∈ cs.names, c ≠ "" ∧ ',' ∉ c.toList
  | createSelectSQLWithParams params =>
      ∀ dic ∈ params.whereDic, ∀ e ∈ dic.entries, Untabled e.1
  | createUnionSelectSQLWithParams params =>
      (∀ dic ∈ params.whereDic, ∀ e ∈ dic.entries, Untabled e.1) ∧
        ∀ dic ∈ params.followWhereDic, ∀ e ∈ dic.entries, Untabled e.1
  | _ => True

/-- From which columns and keys the parts of a call take their values. -/
def taken (R : Runtime) : BuilderCall → Part → String → Obj → Prop
  | createInsertSQLWithColumns model _ columns _, .list =>
      insertGives R model model.cls.chain columns
  | createInsertSQLWithModelAndBeginClass model beginClass _, .list =>
      insertGives R model beginClass.chain none
  | createUpdateSQLWithModelAndTableName model _ sets _, .list => setsGives sets (some model)
  | createUpdateSQLWithModelAndTableName model _ _ condition, .condition =>
      conditionGives condition (some model)
  | createUpdateSQLWithTableName _ sets _, .list => setsGives sets none
  | createUpdateSQLWithTableName _ _ condition, .condition => conditionGives condition none
  | createDeleteSQL model condition, .condition => conditionGives condition (some model)
  | createDeleteSQLWithModelAndTableName model _ condition, .condition =>
      conditionGives condition (some model)
  | createDeleteSQLWithTableName _ condition, .condition => conditionGives condition none
  | createSelectSQLWithPrimaryKeyAndTableName model _ _, .condition => KeyGives model
  | createSelectSQLWithParams params, .condition => conditionGives (queryCondition params) none
  | createUnionSelectSQLWithParams params, part => unionGives params part
  | _, _ => fun _ _ => False

/-- The values of the list come first, those of the condition after them.  There are as many as
marks, and the i-th mark stands beside a column or key from which its part took the i-th value. -/
def Aligned (R : Runtime) (call : BuilderCall) (text : String) (values : List Obj) : Prop :=
  ∃ vs ws, values = vs ++ ws ∧ Placed (BesideTaken fun c x => call.taken R x.1 c x.2) text
    (valuesOf .list vs ++ valuesOf .condition ws)

variable {R : Runtime} {call : BuilderCall} {text head clause : String} {values vs ws : List Obj}

theorem Aligned.count_eq (h : call.Aligned R text values) :
    text.toList.count '?' = values.length := by
  obtain ⟨vs, ws, rfl, hplaced⟩ := h
  rw [Marks.Aligned.count_eq hplaced]
  simp [valuesOf]

/-- The i-th mark stands beside a column or key from which the i-th value was taken. -/
theorem Aligned.besides (h : call.Aligned R text values) :
    Placed (fun pre v => ∃ part c, call.taken R part c v ∧ Beside pre c) text values := by
  obtain ⟨vs, ws, rfl, hplaced⟩ := h
  have hvalues : vs ++ ws = (valuesOf .list vs ++ valuesOf .condition ws).map (·.2) := by
    simp [valuesOf, Function.comp_def]
  rw [hvalues]
  refine List.forall₂_map_right_iff.mpr (Placed.mono ?_ hplaced)
  rintro pre ⟨part, v⟩ ⟨c, hc, hbeside⟩
  exact ⟨part, c, hc, hbeside⟩

theorem aligned_of_parts (hlist : Placed (BesideTaken (call.taken R .list)) head vs)
    (hcondition : Placed (Compared (call.taken R .condition)) clause ws) :
    call.Aligned R (head ++ clause) (vs ++ ws) :=
  ⟨vs, ws, rfl, hlist.besideOfPart.append beside_forward
    (hcondition.mono Compared.beside).besideOfPart⟩

/-- A statement without a list. -/
theorem aligned_of_condition (hhead : MarkFree head)
    (hcondition : Placed (Compared (call.taken R .condition)) clause ws) :
    call.Aligned R (head ++ clause) ws :=
  aligned_of_parts (placed_plain hhead) hcondition

theorem aligned_of_list (hlist : Placed (BesideTaken (call.taken R .list)) text vs) :
    call.Aligned R text vs := by
  refine ⟨vs, [], by rw [List.append_nil], ?_⟩
  rw [valuesOf.eq_def .condition, List.map_nil, List.append_nil]
  exact hlist.besideOfPart

end BuilderCall

/-! ### The builders -/

theorem updateText_placed {taken : String → Obj → Prop} {T : String} (hT : MarkFree T)
    {s : UpdateState} (hs : SetPlaced taken s) :
    Placed (BesideTaken taken) (updateText T s.1) s.2 := by
  have htext : updateText T s.1 = "update " ++ (T ++ " set") ++ (" " ++ s.1) ++ " " := by
    have hset : " set " = " set" ++ " " := by decide
    rw [updateText, hset]
    simp only [String.append_assoc]
  rw [htext]
  exact (Placed.after beside_forward (MarkFree.append (by decide) (hT.append (by decide)))
    hs).then_plain
    (by decide)

section Inserts

variable {R : Runtime} {model : Model} {T : String} {replace : Bool} {text : String}
variable {values : List Obj}

/-- An insert of properties. -/
theorem insertLoop_placed {chain : List ClassDecl} (hT : MarkFree T)
    (h : (do
      let s ← (properties chain).foldlM (insertStep R model) {}
      return insertText T replace s : Except Fault _) = .ok (some (text, values))) :
    Placed (BesideTaken (insertGives R model chain none)) text values := by
  obtain ⟨s, hloop, h⟩ := Loop.of_bind_ok h
  refine insertText_placed hT ?_ (Except.ok.inj h)
  exact Loop.foldlM_invariant (I := ListPlaced (insertGives R model chain none))
    (fun s p hp s' hs hstep => insertStep_placed (fun v hv => ⟨p, hp, rfl, v, hv, rfl⟩) hs hstep)
    listPlaced_empty hloop

/-- An insert of the columns it names. -/
theorem insertColumns_placed {columns : Columns} (hT : MarkFree T)
    (hc : ∀ c ∈ columns.names, ListedName c)
    (h : (do
      let s ← (← columnsArray R columns).foldlM (insertColumnStep model) {}
      return insertText T replace s : Except Fault _) = .ok (some (text, values))) :
    Placed (BesideTaken (insertGives R model model.cls.chain (some columns))) text values := by
  obtain ⟨cs, hcs, h⟩ := Loop.of_bind_ok h
  obtain ⟨s, hloop, h⟩ := Loop.of_bind_ok h
  have hnames : ∀ c ∈ cs, ListedName c := by
    cases columns with
    | string s => cases hcs; exact hc
    | array columns => cases hcs; exact hc
    | other =>
        obtain ⟨-, -, hcs⟩ := Loop.of_bind_ok hcs
        cases hcs
        exact fun c hc => absurd hc (by simp)
  refine insertText_placed hT ?_ (Except.ok.inj h)
  exact Loop.foldlM_invariant
    (I := ListPlaced (insertGives R model model.cls.chain (some columns)))
    (fun s key hkey s' hs hstep => insertColumnStep_placed (hnames key hkey) (fun v hv => hv) hs
      hstep) listPlaced_empty hloop

end Inserts

/-- A delete, with its clause. -/
theorem delete_placed {R : Runtime} {sql : String} {condition : Option Where} {b : Bool}
    {model : Option Model} {text : String} {values : List Obj} (hc : PlainWhere condition)
    (h : (do
      let result ← extractWhereSql R sql condition b model
      if result.error then return none else return some (result.sql, result.values) :
        Except Fault _) = .ok (some (text, values))) :
    ∃ clause, text = sql ++ clause ∧
      Placed (Compared (conditionGives condition model)) clause values := by
  obtain ⟨r, hr, h⟩ := Loop.of_bind_ok h
  obtain ⟨clause, hsql, hplaced⟩ := extractWhereSql_placed hc hr
  split at h
  · cases h
  · cases h
    exact ⟨clause, hsql, hplaced⟩

/-- The statement is an update by the name of the table, with a clause. -/
def IsTableUpdate (tableName : Option String) (sets : Option Sets) (condition : Option Where)
    (text : String) (values : List Obj) : Prop :=
  ∃ s clause ws, SetPlaced (setsGives sets none) s ∧
    Placed (Compared (conditionGives condition none)) clause ws ∧
    text = updateText (formatted tableName) s.1 ++ clause ∧ values = s.2 ++ ws

theorem tableUpdate_placed {R : Runtime} {tableName : Option String} {sets : Option Sets}
    {condition : Option Where} {text : String} {values : List Obj} (hsets : PlainSets sets)
    (hc : PlainWhere condition)
    (h : createUpdateSQLWithTableName R tableName sets condition = .ok (some (text, values))) :
    IsTableUpdate tableName sets condition text values := by
  have hclause : ∀ s : UpdateState, SetPlaced (setsGives sets none) s →
      (do
        let result ← extractWhereSql R (updateText (formatted tableName) s.1) condition false none
        return some (result.sql, s.2 ++ result.values) : Except Fault _) =
          .ok (some (text, values)) → IsTableUpdate tableName sets condition text values := by
    intro s hs h
    obtain ⟨r, hr, h⟩ := Loop.of_bind_ok h
    obtain ⟨clause, hsql, hplaced⟩ := extractWhereSql_placed hc hr
    obtain ⟨rfl, rfl⟩ := Prod.mk.inj (Option.some.inj (Except.ok.inj h))
    exact ⟨s, clause, r.values, hs, hplaced, hsql, rfl⟩
  simp only [createUpdateSQLWithTableName, pure_bind] at h
  -- Without an assignment the assertion fails, or nothing is set.
  have hnone : (do
      assertNo R
      let result ← extractWhereSql R (updateText (formatted tableName) "") condition false none
      return some (result.sql, [] ++ result.values) : Except Fault _) =
        .ok (some (text, values)) → IsTableUpdate tableName sets condition text values := by
    intro h
    obtain ⟨-, -, h⟩ := Loop.of_bind_ok h
    exact hclause ("", []) (setPlaced_plain (by decide)) h
  cases sets with
  | none => exact hnone h
  | some sets =>
      cases sets with
      | string s =>
          dsimp only at h
          split at h
          · exact hclause (s, []) (setPlaced_plain hsets) h
          · exact hnone h
      | dictionary dic => exact hclause _ (.dictionary hsets fun _ he => he) h
      | array columns => exact hnone h
      | other => exact hnone h

/-- **Placeholders and values stay aligned**, in every statement that is returned. -/
theorem placeholders_aligned {R : Runtime} {call : BuilderCall} {text : String} {values : List Obj}
    (hplain : call.Unmarked) (hsep : call.Separate) (h : call.run R = .ok (some (text, values))) :
    text.toList.count '?' = values.length ∧ call.Aligned R text values := by
  suffices hal : call.Aligned R text values from ⟨hal.count_eq, hal⟩
  cases call with
  | createInsertSQLWithColumns model tableName columns replace =>
      obtain ⟨htable, hcls, hnames⟩ := hplain
      simp only [BuilderCall.run, NBDataBase.createInsertSQLWithColumns] at h
      cases hT : tableName.or model.cls.getTableName with
      | none => rw [hT] at h; cases h
      | some T =>
          have hTplain : MarkFree T := htable.or hcls T hT
          rw [hT] at h
          cases columns with
          | none => exact BuilderCall.aligned_of_list (insertLoop_placed hTplain h)
          | some columns =>
              refine BuilderCall.aligned_of_list (insertColumns_placed hTplain (fun c hc => ?_) h)
              obtain ⟨hne, hcomma⟩ := hsep columns rfl c hc
              exact ⟨hne, hcomma, hnames columns rfl c hc⟩
  | createInsertSQLWithModelAndBeginClass model beginClass replace =>
      simp only [BuilderCall.run, NBDataBase.createInsertSQLWithModelAndBeginClass] at h
      cases hT : beginClass.getTableName with
      | none => rw [hT] at h; cases h
      | some T =>
          rw [hT] at h
          exact BuilderCall.aligned_of_list (insertLoop_placed (hplain T hT) h)
  | createUpdateSQLWithModelAndTableName model tableName sets condition =>
      obtain ⟨htable, hsets, hcondition⟩ := hplain
      obtain ⟨s, hs, h⟩ := Loop.of_bind_ok h
      obtain ⟨r, hr, h⟩ := Loop.of_bind_ok h
      obtain ⟨clause, hsql, hplaced⟩ := extractWhereSql_placed hcondition hr
      split at h
      · cases h
      · obtain ⟨rfl, rfl⟩ := Prod.mk.inj (Option.some.inj (Except.ok.inj h))
        rw [hsql]
        exact BuilderCall.aligned_of_parts
          (updateText_placed (markFree_formatted htable) (setList_placed hsets hs)) hplaced
  | createUpdateSQLWithTableName tableName sets condition =>
      obtain ⟨htable, hsets, hcondition⟩ := hplain
      obtain ⟨s, clause, ws, hs, hplaced, rfl, rfl⟩ := tableUpdate_placed hsets hcondition h
      exact BuilderCall.aligned_of_parts (updateText_placed (markFree_formatted htable) hs) hplaced
  | createDeleteSQL model condition =>
      obtain ⟨clause, rfl, hplaced⟩ := delete_placed hplain.2 h
      exact BuilderCall.aligned_of_condition (MarkFree.append (by decide)
        (markFree_formatted hplain.1)) hplaced
  | createDeleteSQLWithModelAndTableName model tableName condition =>
      obtain ⟨htable, hcls, hcondition⟩ := hplain
      obtain ⟨clause, rfl, hplaced⟩ := delete_placed hcondition h
      exact BuilderCall.aligned_of_condition
        (MarkFree.append (by decide) (markFree_formatted (htable.or hcls))) hplaced
  | createDeleteSQLWithTableName tableName condition =>
      obtain ⟨htable, hcondition⟩ := hplain
      have hdelete : (do
          let result ← extractWhereSql R ("DELETE FROM " ++ formatted tableName) condition false
            none
          if result.error then return none else return some (result.sql, result.values) :
            Except Fault _) = .ok (some (text, values)) := by
        simp only [BuilderCall.run, NBDataBase.createDeleteSQLWithTableName] at h
        split at h
        · obtain ⟨-, -, h⟩ := Loop.of_bind_ok h
          exact h
        · exact h
      obtain ⟨clause, rfl, hplaced⟩ := delete_placed hcondition hdelete
      exact BuilderCall.aligned_of_condition (MarkFree.append (by decide)
        (markFree_formatted htable)) hplaced
  | createSelectSQLWithPrimaryKeyAndTableName model tableName fieldName =>
      obtain ⟨htable, hfield⟩ := hplain
      simp only [BuilderCall.run, NBDataBase.createSelectSQLWithPrimaryKeyAndTableName] at h
      cases tableName with
      | none => cases h
      | some T =>
          obtain ⟨s, hs, h⟩ := Loop.of_bind_ok h
          have hplaced := wherePrimaryKeySQL_placed hs
          have hfieldPlain : MarkFree (fieldName.getD "*") := by
            cases fieldName with
            | none => show MarkFree "*"; decide
            | some f => exact hfield f rfl
          obtain ⟨rfl, rfl⟩ := Prod.mk.inj (Option.some.inj (Except.ok.inj h))
          have htext : "SELECT " ++ (fieldName.getD "*" ++ (" FROM " ++ (T ++ s.1))) =
              "SELECT " ++ (fieldName.getD "*" ++ (" FROM " ++ T)) ++ s.1 := by
            simp only [String.append_assoc]
          rw [htext]
          exact BuilderCall.aligned_of_condition (MarkFree.append (by decide) (hfieldPlain.append
            (MarkFree.append (by decide) (htable T rfl)))) hplaced
  | createSelectSQLWithParams params =>
      have hplaced := createSelectSQLWithParams_placed hplain hsep h
      have hal : (BuilderCall.createSelectSQLWithParams params).Aligned R ("" ++ text) values :=
        BuilderCall.aligned_of_condition (by decide) hplaced
      rwa [String.empty_append] at hal
  | createUnionSelectSQLWithParams params =>
      obtain ⟨vs, ws, hvalues, hplaced⟩ :=
        createUnionSelectSQLWithParams_placed hplain hsep.1 hsep.2 (Except.ok.inj h)
      exact ⟨vs, ws, hvalues, hplaced.mono Compared.beside⟩

/-- An update by the name of the table, under an array. -/
def renameUsers : BuilderCall :=
  .createUpdateSQLWithTableName (some "user")
    (some (.dictionary ⟨[("name", .string "NSString" "Bob")], by decide⟩))
    (some (.dictionary ⟨[("id", .array [.number (.integer 1), .number (.integer 2)])], by decide⟩))

theorem renameUsers_aligned :
    (renameUsers.Unmarked ∧ renameUsers.Separate ∧ renameUsers.run demoRuntime =
      .ok (some ("update user set name=?  where  id in(?,?)",
        [.string "NSString" "Bob", .number (.integer 1), .number (.integer 2)]))) ∧
    "update user set name=?  where  id in(?,?)".toList.count '?' = 3 ∧
      renameUsers.Aligned demoRuntime "update user set name=?  where  id in(?,?)"
        [.string "NSString" "Bob", .number (.integer 1), .number (.integer 2)] := by
  have hplain : renameUsers.Unmarked := by
    refine ⟨fun t ht => ?_, fun e he => ?_, fun e he => ?_⟩
    · exact Option.some.inj ht ▸ (by decide : MarkFree "user")
    · exact List.mem_singleton.mp he ▸ (by decide : MarkFree "name")
    · exact List.mem_singleton.mp he ▸ (by decide : MarkFree "id")
  have hrun : renameUsers.run demoRuntime =
      .ok (some ("update user set name=?  where  id in(?,?)",
        [.string "NSString" "Bob", .number (.integer 1), .number (.integer 2)])) := by
    decide
  exact ⟨⟨hplain, trivial, hrun⟩, placeholders_aligned hplain trivial hrun⟩

/-! ### Where they shift -/

theorem isInfix_intercalate {c : String} {cols : List String} (h : c ∈ cols) :
    c.toList <:+: (String.intercalate "," cols).toList := by
  induction cols using List.reverseRecOn with
  | nil => cases h
  | append_singleton cols x ih =>
      by_cases hcols : cols = []
      · subst hcols
        obtain rfl := List.mem_singleton.mp h
        exact ⟨[], [], by simp⟩
      · rw [intercalate_concat hcols, String.toList_append]
        rcases List.mem_append.mp h with h | h
        · exact (ih h).trans (List.prefix_append _ _).isInfix
        · obtain rfl := List.mem_singleton.mp h
          rw [String.toList_append, ← List.append_assoc]
          exact (List.suffix_append _ _).isInfix

/-- The column beside a mark is in the text before it. -/
theorem Beside.isInfix {pre : List Char} {c : String} (h : Beside pre c) :
    c.toList <:+: pre := by
  cases h with
  | compared ht hs =>
      refine List.IsInfix.trans ?_ hs.isInfix
      cases ht with
      | eq => exact ⟨[' '], "=".toList, rfl⟩
      | isIn i => exact ⟨[' '], _, by rw [List.append_assoc]; rfl⟩
  | assigned hs => exact List.IsInfix.trans ⟨[','], "=".toList, rfl⟩ hs.isInfix
  | @listed head cols i hcols hi h =>
      refine (isInfix_intercalate (List.mem_of_getElem? hi)).trans ?_
      refine ⟨head ++ " (".toList, ") values (".toList ++ (List.replicate i "?,".toList).flatten,
        ?_⟩
      simp only [h, String.toList_append, List.append_assoc]

/-- No mark follows a mark: what a column is beside of ends with a sign, a bracket or a comma. -/
theorem not_beside_mark {pre : List Char} {c : String} : ¬ Beside (pre ++ ['?']) c := by
  have hlast : ∀ {s t : List Char}, t ≠ [] → s ++ t <:+ pre ++ ['?'] → t.getLast? = some '?' := by
    rintro s t ht ⟨x, hx⟩
    have hend := congrArg List.getLast? hx
    rwa [← List.append_assoc, List.getLast?_append_of_ne_nil _ ht, List.getLast?_concat] at hend
  have hmarks : ∀ i, ('(' :: (List.replicate i "?,".toList).flatten).getLast? ≠ some '?' := by
    intro i
    cases i with
    | zero => decide
    | succ i =>
        rw [List.replicate_succ', List.flatten_append, ← List.cons_append,
          List.getLast?_append_of_ne_nil _ (by decide)]
        decide
  intro h
  cases h with
  | @compared t ht hs =>
      cases ht with
      | eq =>
          rw [← List.cons_append] at hs
          exact absurd (hlast (by decide) hs) (by decide)
      | isIn i =>
          have hs : ' ' :: (c.toList ++ " in".toList) ++
              '(' :: (List.replicate i "?,".toList).flatten <:+ pre ++ ['?'] := by
            simpa using hs
          exact hmarks i (hlast (by simp) hs)
  | assigned hs =>
      rw [← List.cons_append] at hs
      exact absurd (hlast (by decide) hs) (by decide)
  | @listed head cols i hcols hi h =>
      have hs : head ++ (" (" ++ (String.intercalate "," cols ++ ") values ")).toList ++
          '(' :: (List.replicate i "?,".toList).flatten <:+ pre ++ ['?'] := by
        rw [h]
        simp
      exact hmarks i (hlast (by simp) hs)

/-- A column with a comma in its name is beside a mark only in a comparison. -/
theorem Beside.compares_of_comma {pre : List Char} {c : String} (hc : ',' ∈ c.toList)
    (h : Beside pre c) : c.toList ++ ['='] <:+: pre ∨ c.toList ++ " in(".toList <:+: pre := by
  cases h with
  | compared ht hs =>
      cases ht with
      | eq => exact .inl (List.IsInfix.trans ⟨[' '], [], by simp⟩ hs.isInfix)
      | isIn i =>
          exact .inr (List.IsInfix.trans ⟨[' '], (List.replicate i "?,".toList).flatten, by simp⟩
            hs.isInfix)
  | assigned hs => exact .inl (List.IsInfix.trans ⟨[','], [], by simp⟩ hs.isInfix)
  | listed head hcols hi h => exact absurd hc (hcols c (List.mem_of_getElem? hi))

/-- A query under a key that has `@t` in it. -/
def tableKeyQuery : BuilderCall :=
  .createSelectSQLWithParams
    { tableName := some "user"
      whereDic := some ⟨[("@t", .array [.number (.integer 1)])], by decide⟩ }

/-- A model of a class that answers every key. -/
def openModel : Model where
  cls := { chain := [], getTableName := some "user", ivar_word := by simp }
  valueForKey? key := some (some (.string "NSString" key))
  ivar_known := by simp

/-- An insert of columns by their names. -/
def namedInsert (columns : List String) : BuilderCall :=
  .createInsertSQLWithColumns openModel none (some (.array columns)) false

theorem namedInsert_unmarked {columns : List String} (h : ∀ c ∈ columns, MarkFree c) :
    (namedInsert columns).Unmarked := by
  refine ⟨(fun t ht => by cases ht), fun t ht => ?_, fun cs hcs c hc => ?_⟩
  · exact Option.some.inj ht ▸ (by decide : MarkFree "user")
  · obtain rfl := Option.some.inj hcs
    exact h c hc

/-- The marks shift under a key with `@t`, and in an insert of a column whose name is empty or has
a comma. -/
theorem placeholders_shift :
    (tableKeyQuery.Unmarked ∧ ∃ text values,
      tableKeyQuery.run demoRuntime = .ok (some (text, values)) ∧
      ¬ tableKeyQuery.Aligned demoRuntime text values) ∧
    ((namedInsert ["", "name"]).Unmarked ∧ ∃ text values,
      (namedInsert ["", "name"]).run demoRuntime = .ok (some (text, values)) ∧
      ¬ (namedInsert ["", "name"]).Aligned demoRuntime text values) ∧
    (namedInsert ["a,b", "c"]).Unmarked ∧ ∃ text values,
      (namedInsert ["a,b", "c"]).run demoRuntime = .ok (some (text, values)) ∧
      ¬ (namedInsert ["a,b", "c"]).Aligned demoRuntime text values := by
  have hkey : tableKeyQuery.run demoRuntime =
      .ok (some ("select * from user where  user in(?)", [.number (.integer 1)])) := by
    decide +kernel
  have hempty : (namedInsert ["", "name"]).run demoRuntime =
      .ok (some ("insert or ignore into user (name) values (??)",
        [.string "NSString" "", .string "NSString" "name"])) := by
    decide +kernel
  have hcomma : (namedInsert ["a,b", "c"]).run demoRuntime =
      .ok (some ("insert or ignore into user (a,b,c) values (?,?)",
        [.string "NSString" "a,b", .string "NSString" "c"])) := by
    decide +kernel
  refine ⟨⟨?_, _, _, hkey, fun h => ?_⟩, ⟨namedInsert_unmarked (by decide), _, _, hempty,
    fun h => ?_⟩, namedInsert_unmarked (by decide), _, _, hcomma, fun h => ?_⟩
  · refine ⟨fun t ht => ?_, fun t ht => (by cases ht), fun t ht => (by cases ht),
      fun c hc => (by cases hc), fun t ht => (by cases ht), fun t ht => (by cases ht),
      fun t ht => (by cases ht), fun t ht => (by cases ht), fun dic hdic e he => ?_⟩
    · exact Option.some.inj ht ▸ (by decide : MarkFree "user")
    · obtain rfl := Option.some.inj hdic
      exact List.mem_singleton.mp he ▸ (by decide : MarkFree "@t")
  · -- The value of `@t` is bound beside the table.
    have hbefore : Marks.before '?' "select * from user where  user in(?)".toList =
        ["select * from user where  user in(".toList] := by decide +kernel
    have hal := h.besides
    rw [Placed, Aligned, hbefore] at hal
    obtain _ | ⟨⟨part, c, hc, hbeside⟩, -⟩ := hal
    cases part with
    | list => exact hc
    | condition =>
        have hgives : NSDictionary.Gives ⟨[("@t", .array [.number (.integer 1)])], by decide⟩ c
            (.number (.integer 1)) := hc
        obtain ⟨e, he, rfl⟩ := hgives.mem
        obtain rfl := List.mem_singleton.mp he
        exact absurd hbeside.isInfix (by decide +kernel)
  · -- The second mark stands right after the first.
    have hbefore : Marks.before '?' "insert or ignore into user (name) values (??)".toList =
        ["insert or ignore into user (name) values (".toList,
          "insert or ignore into user (name) values (".toList ++ ['?']] := by decide +kernel
    have hal := h.besides
    rw [Placed, Aligned, hbefore] at hal
    obtain _ | ⟨-, _ | ⟨⟨part, c, hc, hbeside⟩, -⟩⟩ := hal
    exact not_beside_mark hbeside
  · -- The list has three columns, and the first of them is `a`.
    have hbefore : Marks.before '?' "insert or ignore into user (a,b,c) values (?,?)".toList =
        ["insert or ignore into user (a,b,c) values (".toList,
          "insert or ignore into user (a,b,c) values (?,".toList] := by decide +kernel
    have hal := h.besides
    rw [Placed, Aligned, hbefore] at hal
    obtain _ | ⟨⟨part, c, hc, hbeside⟩, -⟩ := hal
    cases part with
    | condition => exact hc
    | list =>
        obtain rfl : c = "a,b" := by
          have hvalue := Option.some.inj (Except.ok.inj hc)
          cases hvalue
          rfl
        rcases hbeside.compares_of_comma (by decide) with h | h
        · exact absurd h (by decide +kernel)
        · exact absurd h (by decide +kernel)

end NBDataBase
