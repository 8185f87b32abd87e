import NBDataBase.Lib.Marks
import NBDataBase.Orm.Conditions

/-!
# Orm — placeholders

Which column stands beside each `?` of a statement, and which value is bound to it.

* `Beside pre c`: of a text that goes on with a `?`, what stands before it ends with the column
  `c` of that `?`.
* `Placed`: there are as many marks as values, and each value was taken from the column beside its
  mark.  A comparison keeps its column right before the mark (`Compared`).
* `extractWhereSql_placed`, `setList_placed`, `insertText_placed`: so it is of the three kinds of
  pieces that the builders put together.  The loops keep it, step by step.
-/

namespace NBDataBase
open Sql
open Marks (Aligned Forward)

/-! ### Beside a mark -/

/-- `c=`, or `c in(` and some marks. -/
inductive Compares (c : String) : List Char → Prop
  | eq : Compares c (c.toList ++ "=".toList)
  | isIn (i : ℕ) :
      Compares c (c.toList ++ (" in(".toList ++ (List.replicate i "?,".toList).flatten))

/-- What stands before a `?` ends with its column.  In an `INSERT` the column is the one at the
place of the `?` in its list. -/
inductive Beside (pre : List Char) (c : String) : Prop
  | compared {t : List Char} (h : Compares c t) (hs : ' ' :: t <:+ pre)
  | assigned (hs : ',' :: (c.toList ++ "=".toList) <:+ pre)
  | listed (head : List Char) {cols : List String} {i : ℕ} (hcols : ∀ x ∈ cols, ',' ∉ x.toList)
      (hi : cols[i]? = some c)
      (h : pre = head ++ ((" (" ++ (String.intercalate "," cols ++ ") values (")).toList ++
        (List.replicate i "?,".toList).flatten))

section Taken

variable {β : Type} {taken : String → β → Prop}

/-- The `?` stands beside a column or key from which the value was taken. -/
def BesideTaken (taken : String → β → Prop) (pre : List Char) (v : β) : Prop :=
  ∃ c, taken c v ∧ Beside pre c

/-- The `?` of a comparison. -/
def Compared (taken : String → β → Prop) (pre : List Char) (v : β) : Prop :=
  ∃ c t, taken c v ∧ Compares c t ∧ ' ' :: t <:+ pre

/-- The `?` of the text and the values belong together. -/
def Placed (P : List Char → β → Prop) (text : String) (values : List β) : Prop :=
  Aligned '?' P text.toList values

theorem Compared.beside (pre : List Char) (v : β) (h : Compared taken pre v) :
    BesideTaken taken pre v := by
  obtain ⟨c, t, hc, ht, hs⟩ := h
  exact ⟨c, hc, .compared ht hs⟩

theorem compared_forward : Forward (Compared taken) := by
  rintro pre s v ⟨c, t, hc, ht, hs⟩
  exact ⟨c, t, hc, ht, hs.trans (List.suffix_append pre s)⟩

theorem beside_forward : Forward (BesideTaken taken) := by
  rintro pre s v ⟨c, hc, h⟩
  refine ⟨c, hc, ?_⟩
  cases h with
  | compared ht hs => exact .compared ht (hs.trans (List.suffix_append pre s))
  | assigned hs => exact .assigned (hs.trans (List.suffix_append pre s))
  | listed head hcols hi h =>
      exact .listed (pre ++ head) hcols hi (by rw [h, List.append_assoc])

end Taken

/-! ### Texts without a mark -/

/-- The text has no `?`. -/
def MarkFree (s : String) : Prop := '?' ∉ s.toList

instance (s : String) : Decidable (MarkFree s) := by unfold MarkFree; infer_instance

theorem MarkFree.append {s t : String} (hs : MarkFree s) (ht : MarkFree t) : MarkFree (s ++ t) := by
  rw [MarkFree, String.toList_append, List.mem_append]
  exact not_or.mpr ⟨hs, ht⟩

theorem markFree_of_word {s : String} (h : Word s) : MarkFree s := fun hm =>
  absurd (h.2 '?' hm) (by decide)

theorem markFree_intercalate {xs : List String} (h : ∀ x ∈ xs, MarkFree x) :
    MarkFree (String.intercalate "," xs) := by
  induction xs using List.reverseRecOn with
  | nil => decide
  | append_singleton xs x ih =>
      have hx : MarkFree x := h x (by simp)
      have ih := ih fun y hy => h y (List.mem_append_left _ hy)
      by_cases hxs : xs = []
      · subst hxs; simpa using hx
      · rw [intercalate_concat hxs]
        exact ih.append (MarkFree.append (by decide) hx)

/-- No text that may be nil has a `?`. -/
def PlainOption (s : Option String) : Prop := ∀ t ∈ s, MarkFree t

theorem markFree_formatted {s : Option String} (h : PlainOption s) : MarkFree (formatted s) := by
  cases s with
  | none => show MarkFree "(null)"; decide
  | some s => exact h s rfl

theorem PlainOption.or {s t : Option String} (hs : PlainOption s) (ht : PlainOption t) :
    PlainOption (s.or t) := by
  cases s with
  | none => exact ht
  | some s => exact hs

theorem mem_of_mem_splitOn {c : Char} {s x : List Char} (hx : x ∈ s.splitOn c) {a : Char}
    (ha : a ∈ x) : a ∈ s := by
  induction s generalizing x with
  | nil =>
      rw [List.splitOn_nil, List.mem_singleton] at hx
      exact hx ▸ ha
  | cons b s ih =>
      rw [List.splitOn, List.splitOnP_cons_eq_if_modifyHead] at hx
      split at hx
      · rcases List.mem_cons.mp hx with rfl | hx
        · cases ha
        · exact List.mem_cons_of_mem _ (ih hx ha)
      · obtain ⟨y, ys, hys⟩ := List.exists_cons_of_ne_nil (List.splitOnP_ne_nil (· == c) s)
        have ih := @ih
        rw [List.splitOn, hys] at ih
        rw [hys, List.modifyHead_cons] at hx
        rcases List.mem_cons.mp hx with rfl | hx
        · rcases List.mem_cons.mp ha with rfl | ha
          · exact List.mem_cons_self
          · exact List.mem_cons_of_mem _ (ih List.mem_cons_self ha)
        · exact List.mem_cons_of_mem _ (ih (List.mem_cons_of_mem _ hx) ha)

theorem markFree_component {s x : String} (h : MarkFree s) (hx : x ∈ componentsSeparatedByComma s) :
    MarkFree x := by
  obtain ⟨y, hy, rfl⟩ := List.mem_map.mp hx
  intro hm
  rw [String.toList_ofList] at hm
  exact h (mem_of_mem_splitOn hy hm)

/-! ### Texts in a row -/

section Rows

variable {β : Type} {P Q : List Char → β → Prop} {text rest : String} {vs ws : List β}

theorem Placed.mono (hPQ : ∀ s v, P s v → Q s v)
    (h : Placed P text vs) : Placed Q text vs :=
  Aligned.mono hPQ h

theorem placed_plain (h : MarkFree text) : Placed P text [] := Marks.aligned_plain h

theorem Placed.append (hP : Forward P) (h : Placed P text vs) (hr : Placed P rest ws) :
    Placed P (text ++ rest) (vs ++ ws) := by
  rw [Placed, String.toList_append]
  exact Aligned.append hP h hr

theorem Placed.after (hP : Forward P) (ht : MarkFree text) (h : Placed P rest ws) :
    Placed P (text ++ rest) ws :=
  (placed_plain ht).append hP h

theorem Placed.then_plain (h : Placed P text vs) (hr : MarkFree rest) :
    Placed P (text ++ rest) vs := by
  rw [Placed, String.toList_append]
  exact Aligned.then_plain h hr

/-- One mark, after a plain text. -/
theorem placed_mark {v : β} (ht : MarkFree text) (h : P text.toList v) :
    Placed P (text ++ "?") [v] := by
  rw [Placed, String.toList_append]
  exact Marks.aligned_mark ht h

/-- A text without marks has no values. -/
theorem Placed.eq_nil (h : Placed P text vs) (ht : MarkFree text) : vs = [] :=
  List.eq_nil_of_length_eq_zero (h.count_eq.symm.trans (List.count_eq_zero.mpr ht))

/-- Marks with commas between them. -/
theorem placed_list (h : ∀ i v, vs[i]? = some v → P (List.replicate i "?,".toList).flatten v) :
    Placed P (String.intercalate "," (vs.map fun _ => "?")) vs := by
  have hsep : ",".toList = [','] := by decide
  have hone : "?".toList = ['?'] := by decide
  have hmark : (vs.map fun _ => "?").map String.toList = vs.map fun _ => ['?'] := by
    rw [List.map_map]
    exact List.map_congr_left fun _ _ => hone
  rw [Placed, String.toList_intercalate, hsep, hmark]
  exact Marks.aligned_list (by decide) h

end Rows

/-! ### `WHERE` -/

/-- The values of a dictionary, by their keys. -/
def NSDictionary.Gives (dic : NSDictionary WhereValue) (c : String) (v : Obj) : Prop :=
  (c, .scalar v) ∈ dic.entries ∨ ∃ vlist, (c, .array vlist) ∈ dic.entries ∧ v ∈ vlist

/-- The values of the primary key, by their columns. -/
def KeyGives (model : Model) (c : String) (v : Obj) : Prop :=
  ∃ p ∈ properties model.cls.chain, isPrimaryKey p.name ∧ p.column = c ∧
    model.valueForKey c = .ok (some v)

/-- The values that a condition asks for: those of the dictionary, or of the primary key. -/
def conditionGives (condition : Option Where) (model : Option Model) (c : String) (v : Obj) :
    Prop :=
  match condition, model with
  | some (.dictionary dic), _ => dic.Gives c v
  | _, some model => KeyGives model c v
  | _, none => False

/-- No key and no text of the condition has a `?`. -/
def PlainWhere : Option Where → Prop
  | some (.dictionary dic) => ∀ e ∈ dic.entries, MarkFree e.1
  | some (.string s) => MarkFree s
  | _ => True

/-- A mark after the text of a comparison. -/
theorem placed_eq {taken : String → Obj → Prop} {k : String} {v : Obj} (hk : MarkFree k)
    (hv : taken k v) : Placed (Compared taken) (" " ++ (k ++ "=?")) [v] := by
  have htext : " " ++ (k ++ "=?") = " " ++ (k ++ "=") ++ "?" := by
    simp only [String.append_assoc]
    rfl
  rw [htext]
  refine placed_mark (MarkFree.append (by decide) (hk.append (by decide))) ⟨k, _, hv, .eq, ?_⟩
  rw [String.toList_append, String.toList_append]
  exact List.suffix_rfl

/-- The marks after `in(`. -/
theorem placed_in {taken : String → Obj → Prop} {k : String} {vlist : List Obj} (hk : MarkFree k)
    (hv : ∀ v ∈ vlist, taken k v) :
    Placed (Compared taken)
      (" " ++ (k ++ (" in(" ++ (String.intercalate "," (vlist.map fun _ => "?") ++ ")"))))
        vlist := by
  have htext : ∀ marks : String, " " ++ (k ++ (" in(" ++ (marks ++ ")"))) =
      " " ++ (k ++ " in(") ++ marks ++ ")" := fun marks => by simp only [String.append_assoc]
  have hhead : MarkFree (" " ++ (k ++ " in(")) :=
    MarkFree.append (by decide) (hk.append (by decide))
  rw [htext]
  refine Placed.then_plain ?_ (by decide)
  rw [Placed, String.toList_append]
  show Aligned '?' _ _ ([] ++ vlist)
  refine Aligned.append_of (Marks.aligned_plain hhead) (placed_list fun i v hi => ?_)
  refine ⟨k, _, hv v (List.mem_of_getElem? hi), .isIn i, ?_⟩
  simp only [String.toList_append, List.append_assoc]
  exact List.suffix_rfl

theorem placed_entry {taken : String → Obj → Prop} {e : String × WhereValue}
    {a : Atom × List Obj} (h : entryAtom e = some a) (hk : MarkFree e.1)
    (hscalar : ∀ v, e.2 = .scalar v → taken e.1 v)
    (harray : ∀ vlist, e.2 = .array vlist → ∀ v ∈ vlist, taken e.1 v) :
    Placed (Compared taken) (atomText a.1) a.2 := by
  obtain ⟨k, va⟩ := e
  cases va with
  | scalar v =>
      cases h
      exact placed_eq hk (hscalar v rfl)
  | array vlist =>
      cases vlist with
      | nil => cases h
      | cons v vs =>
          cases h
          have hmarks : (List.replicate (v :: vs).length ()).map (fun _ => "?") =
              (v :: vs).map fun _ => "?" := by
            rw [List.map_replicate, List.map_const']
          rw [atomText, hmarks]
          exact placed_in hk (harray (v :: vs) rfl)

/-- **The marks of a dictionary** stand beside the keys of their values. -/
theorem dictionaryToSqlWhere_placed {dic : NSDictionary WhereValue}
    (h : ∀ e ∈ dic.entries, MarkFree e.1) :
    Placed (Compared dic.Gives) (dictionaryToSqlWhere dic).1 (dictionaryToSqlWhere dic).2 := by
  have hatoms : ∀ a ∈ dictionaryAtoms dic.entries,
      Placed (Compared dic.Gives) (atomText a.1) a.2 := by
    intro a ha
    obtain ⟨⟨k, va⟩, he, hea⟩ := List.mem_filterMap.mp ha
    refine placed_entry hea (h _ he) ?_ ?_
    · rintro v rfl
      exact .inl he
    · rintro vlist rfl v hv
      exact .inr ⟨vlist, he, hv⟩
  rw [dictionaryToSqlWhere_eq]
  generalize dictionaryAtoms dic.entries = atoms at hatoms
  induction atoms using List.reverseRecOn with
  | nil => exact placed_plain (by decide)
  | append_singleton atoms a ih =>
      have ih := ih fun x hx => hatoms x (List.mem_append_left _ hx)
      rw [List.foldl_append, List.foldl_cons, List.foldl_nil, clauseAppend]
      refine ih.append compared_forward (.after compared_forward ?_ (hatoms a (by simp)))
      split <;> decide

/-- What a key step adds. -/
theorem primaryKeyStep_placed {model : Model} {v : List ClassDecl × Property}
    (hv : v ∈ visits model.cls.chain) {s s' : String × List Obj}
    (hs : Placed (Compared (KeyGives model)) s.1 s.2) (h : primaryKeyStep model s v = .ok s') :
    Placed (Compared (KeyGives model)) s'.1 s'.2 := by
  unfold primaryKeyStep at h
  by_cases hp : isPrimaryKey v.2.name
  · by_cases hb : Backed v.1 v.2
    · have hbacked := hb.mono (visits_suffix hv)
      simp only [hp, if_true, ivarKey_of_backed hb] at h
      change (model.valueForKey v.2.column >>= _) = _ at h
      rw [hbacked.valueForKey] at h
      cases hval : model.value v.2.column with
      | none =>
          rw [hval] at h
          cases h
          exact hs
      | some x =>
          rw [hval] at h
          cases h
          have hgives : KeyGives model v.2.column x :=
            ⟨v.2, by rw [← visits_snd]; exact List.mem_map_of_mem hv, hp, rfl,
              by rw [hbacked.valueForKey, hval]⟩
          have hmark := placed_eq (markFree_of_word hbacked.word) hgives
          have htext : " " ++ (v.2.column ++ "=? ") = " " ++ (v.2.column ++ "=?") ++ " " := by
            simp only [String.append_assoc]
            rfl
          refine hs.append compared_forward (.after compared_forward ?_ ?_)
          · split <;> decide
          · rw [htext]
            exact hmark.then_plain (by decide)
    · simp only [hp, if_true, ivarKey_of_not_backed hb] at h
      cases h
  · simp only [hp] at h
    cases h
    exact hs

theorem wherePrimaryKeySQL_placed {R : Runtime} {model : Model} {s : String × List Obj}
    (h : wherePrimaryKeySQLWithModel R model = .ok s) :
    Placed (Compared (KeyGives model)) s.1 s.2 := by
  obtain ⟨t, hloop, h⟩ := Loop.of_bind_ok h
  have hplaced : Placed (Compared (KeyGives model)) t.1 t.2 :=
    Loop.foldlM_invariant (I := fun s => Placed (Compared (KeyGives model)) s.1 s.2)
      (fun s v hv s' hs hok => primaryKeyStep_placed hv hs hok) (placed_plain (by decide)) hloop
  dsimp only at h
  split at h
  · obtain ⟨-, -, h⟩ := Loop.of_bind_ok h
    cases h
    exact hplaced
  · cases h
    exact hplaced

theorem byPrimaryKey_placed {R : Runtime} {sql : String} {b : Bool} {model : Option Model}
    {r : Extracted} (h : extractWhereSql.byPrimaryKey R sql b model = .ok r) :
    ∃ clause, r.sql = sql ++ clause ∧
      Placed (Compared fun c v => ∃ m ∈ model, KeyGives m c v) clause r.values := by
  have hbare : ∀ {e : Bool}, (Except.ok ⟨sql, [], e⟩ : Except Fault Extracted) = .ok r →
      ∃ clause, r.sql = sql ++ clause ∧
        Placed (Compared fun c v => ∃ m ∈ model, KeyGives m c v) clause r.values := by
    intro e h
    cases h
    exact ⟨"", by rw [String.append_empty], placed_plain (by decide)⟩
  unfold extractWhereSql.byPrimaryKey at h
  cases b with
  | false => exact hbare h
  | true =>
      rw [if_pos rfl] at h
      cases model with
      | none =>
          obtain ⟨-, -, h⟩ := Loop.of_bind_ok h
          exact hbare h
      | some m =>
          obtain ⟨s, hs, h⟩ := Loop.of_bind_ok h
          have hplaced := wherePrimaryKeySQL_placed hs
          dsimp only at h
          split at h
          · obtain ⟨-, -, h⟩ := Loop.of_bind_ok h
            exact hbare h
          · cases h
            refine ⟨s.1, rfl, hplaced.mono ?_⟩
            rintro pre v ⟨c, t, hc, ht, hsuffix⟩
            exact ⟨c, t, ⟨m, rfl, hc⟩, ht, hsuffix⟩

/-- **The clause of a condition**: what follows the statement, with its values. -/
theorem extractWhereSql_placed {R : Runtime} {sql : String} {condition : Option Where} {b : Bool}
    {model : Option Model} {r : Extracted} (hc : PlainWhere condition)
    (h : extractWhereSql R sql condition b model = .ok r) :
    ∃ clause, r.sql = sql ++ clause ∧
      Placed (Compared (conditionGives condition model)) clause r.values := by
  have hkey : extractWhereSql.byPrimaryKey R sql b model = .ok r →
      (∀ dic, condition ≠ some (.dictionary dic)) → ∃ clause, r.sql = sql ++ clause ∧
        Placed (Compared (conditionGives condition model)) clause r.values := by
    intro h hne
    obtain ⟨clause, hsql, hplaced⟩ := byPrimaryKey_placed h
    refine ⟨clause, hsql, hplaced.mono ?_⟩
    rintro pre v ⟨c, t, ⟨m, rfl, hk⟩, ht, hsuffix⟩
    refine ⟨c, t, ?_, ht, hsuffix⟩
    unfold conditionGives
    split
    · exact absurd rfl (hne _)
    · rename_i heq
      cases heq
      exact hk
    · rename_i heq
      cases heq
  unfold extractWhereSql at h
  split at h
  · rename_i dic
    split at h
    · cases h
      exact ⟨_, rfl, .after compared_forward (by decide) (dictionaryToSqlWhere_placed hc)⟩
    · obtain ⟨-, -, h⟩ := Loop.of_bind_ok h
      cases h
      exact ⟨"", by rw [String.append_empty], placed_plain (by decide)⟩
  · split at h
    · exact hkey h (by simp)
    · cases h
      exact ⟨_, rfl, placed_plain (MarkFree.append (by decide) hc)⟩
  · rename_i h₁ h₂
    exact hkey h fun dic hd => h₁ dic hd

/-! ### `SET` -/

/-- The values of a `SET` list, by their columns: those of the dictionary, or of the model. -/
def setsGives (sets : Option Sets) (model : Option Model) (c : String) (v : Obj) : Prop :=
  match sets, model with
  | some (.dictionary dic), _ => (c, v) ∈ dic.entries
  | _, some model => model.valueForKey c = .ok (some v)
  | _, none => False

/-- No column and no text of the `SET` list has a `?`. -/
def PlainSets : Option Sets → Prop
  | some (.string s) => MarkFree s
  | some (.array columns) => ∀ k ∈ columns, MarkFree k
  | some (.dictionary dic) => ∀ e ∈ dic.entries, MarkFree e.1
  | _ => True

section SetLists

variable {taken : String → Obj → Prop} {s s' : UpdateState} {key : String} {value : Obj}

/-- The marks of a `SET` list, after a blank. -/
def SetPlaced (taken : String → Obj → Prop) (s : UpdateState) : Prop :=
  Placed (BesideTaken taken) (" " ++ s.1) s.2

theorem setPlaced_plain {x : String} (h : MarkFree x) : SetPlaced taken (x, []) :=
  placed_plain (MarkFree.append (by decide) h)

theorem SetPlaced.append (hs : SetPlaced taken s) (hk : MarkFree key) (hv : taken key value) :
    SetPlaced taken (s.append key value) := by
  obtain ⟨updateKey, values⟩ := s
  by_cases he : updateKey = ""
  · subst he
    obtain rfl : values = [] := Placed.eq_nil hs (by simpa using (by decide : MarkFree " "))
    simp only [SetPlaced, UpdateState.append, comma_empty, String.empty_append, List.nil_append]
    exact (placed_eq hk hv).mono Compared.beside
  · have htext : " " ++ (updateKey ++ ("," ++ (key ++ "=?"))) =
        " " ++ updateKey ++ ("," ++ (key ++ "=") ++ "?") := by
      simp only [String.append_assoc]
      rfl
    simp only [SetPlaced, UpdateState.append, comma_of_ne he, htext]
    refine hs.append beside_forward (placed_mark (MarkFree.append (by decide)
      (hk.append (by decide))) ⟨key, hv, .assigned ?_⟩)
    rw [String.toList_append, String.toList_append]
    exact List.suffix_rfl

theorem SetPlaced.dictionary {dic : NSDictionary Obj} (hk : ∀ e ∈ dic.entries, MarkFree e.1)
    (hv : ∀ e ∈ dic.entries, taken e.1 e.2) :
    SetPlaced taken (dic.entries.foldl (fun s e => UpdateState.append s e.1 e.2) ("", [])) :=
  List.foldlRecOn dic.entries _ (setPlaced_plain (by decide)) fun _ hs e he =>
    SetPlaced.append hs (hk e he) (hv e he)

theorem updateColumnStep_placed {model : Model} (hk : MarkFree key)
    (hv : ∀ v, model.valueForKey key = .ok (some v) → taken key v) (hs : SetPlaced taken s)
    (h : updateColumnStep model s key = .ok s') : SetPlaced taken s' := by
  obtain ⟨value, hvalue, h⟩ := Loop.of_bind_ok h
  obtain ⟨values, hadd, h⟩ := Loop.of_bind_ok h
  cases value with
  | none => cases hadd
  | some v =>
      cases hadd
      cases h
      exact hs.append hk (hv v hvalue)

/-- The step over the properties: what it names are the columns of the class. -/
theorem updateStep_placed {model : Model} {p : Property}
    (hv : ∀ c v, model.valueForKey c = .ok (some v) → taken c v) (hs : SetPlaced taken s)
    (h : updateStep model s p = .ok s') : SetPlaced taken s' := by
  by_cases hp : isColumn p.name = true → Backed model.cls.chain p
  · rw [updateStep_eq s hp] at h
    cases hb : updateBinding model p with
    | none =>
        rw [hb] at h
        cases h
        exact hs
    | some e =>
        rw [hb] at h
        cases h
        unfold updateBinding at hb
        split at hb
        · rename_i hcol
          obtain ⟨v, hval, rfl⟩ := Option.map_eq_some_iff.mp hb
          have hbacked : Backed model.cls.chain p := hp hcol.1
          exact hs.append (markFree_of_word hbacked.word)
            (hv _ _ (by rw [hbacked.valueForKey, hval]))
        · cases hb
  · obtain ⟨hcol, hb⟩ := Classical.not_imp.mp hp
    rw [updateStep_error s hcol hb] at h
    cases h

theorem updateSets_placed {model : Model} {sets : Sets} (hc : PlainSets (some sets))
    (h : updateSets model sets = .ok s) : SetPlaced (setsGives (some sets) (some model)) s := by
  -- The columns that an array or a string names.
  have hcolumns : ∀ {columns : List String}, (∀ k ∈ columns, MarkFree k) →
      (∀ c v, model.valueForKey c = .ok (some v) → setsGives (some sets) (some model) c v) →
      columns.foldlM (updateColumnStep model) ("", []) = .ok s →
      SetPlaced (setsGives (some sets) (some model)) s := by
    intro columns hk hv hok
    exact Loop.foldlM_invariant (I := SetPlaced (setsGives (some sets) (some model)))
      (fun s key hkey s' hs hstep => updateColumnStep_placed (hk key hkey) (hv key) hs hstep)
      (setPlaced_plain (by decide)) hok
  cases sets with
  | array columns => exact hcolumns hc (fun _ _ h => h) h
  | string text =>
      simp only [updateSets] at h
      split at h
      · exact hcolumns (fun k hk => markFree_component hc hk) (fun _ _ h => h) h
      · split at h
        · cases h
          exact setPlaced_plain hc
        · exact updateColumnStep_placed hc (fun _ h => h) (setPlaced_plain (by decide)) h
  | dictionary dic =>
      cases h
      exact .dictionary hc fun _ he => he
  | other =>
      cases h
      exact setPlaced_plain (by decide)

theorem setList_placed {model : Model} {sets : Option Sets} (hc : PlainSets sets)
    (h : setList model sets = .ok s) : SetPlaced (setsGives sets (some model)) s := by
  cases sets with
  | some sets => exact updateSets_placed hc h
  | none =>
      exact Loop.foldlM_invariant (I := SetPlaced (setsGives none (some model)))
        (fun s p _ s' hs hstep => updateStep_placed (fun _ _ h => h) hs hstep)
        (setPlaced_plain (by decide)) h

end SetLists

/-! ### `INSERT` -/

/-- A name that stands alone in a list of columns. -/
def ListedName (c : String) : Prop := c ≠ "" ∧ ',' ∉ c.toList ∧ MarkFree c

theorem listedName_of_word {c : String} (h : Word c) : ListedName c :=
  ⟨h.1, fun hm => absurd (h.2 ',' hm) (by decide), markFree_of_word h⟩

section Inserts

variable {taken : String → Obj → Prop} {s s' : InsertState} {key : String} {value : Obj}

/-- The columns and the marks of an insert, one of each for each value. -/
def ListPlaced (taken : String → Obj → Prop) (s : InsertState) : Prop :=
  ∃ cols, (∀ c ∈ cols, ListedName c) ∧ s.keys = String.intercalate "," cols ∧
    s.marks = String.intercalate "," (s.values.map fun _ => "?") ∧
    List.Forall₂ taken cols s.values

theorem listPlaced_empty : ListPlaced taken {} :=
  ⟨[], (fun c hc => absurd hc (by simp)), rfl, rfl, .nil⟩

/-- An item more, after a comma. -/
theorem intercalate_comma {xs : List String} (h : ∀ x ∈ xs, x ≠ "") (x : String) :
    String.intercalate "," xs ++ (comma (String.intercalate "," xs) ++ x) =
      String.intercalate "," (xs ++ [x]) := by
  by_cases hxs : xs = []
  · subst hxs
    simp
  · rw [comma_of_ne (intercalate_ne hxs h), intercalate_concat hxs]

theorem ListPlaced.append (hs : ListPlaced taken s) (hk : ListedName key)
    (hv : taken key value) : ListPlaced taken (s.append key value) := by
  obtain ⟨cols, hcols, hkeys, hmarks, htaken⟩ := hs
  have hmark : ∀ x ∈ s.values.map (fun _ => "?"), x ≠ "" := by
    intro x hx
    obtain ⟨v, -, rfl⟩ := List.mem_map.mp hx
    decide
  -- The comma of both lists depends on the columns alone; there is a mark for each of them.
  have hcomma : comma s.keys = comma s.marks := by
    rw [hkeys, hmarks]
    by_cases hnil : cols = []
    · have hvalues : s.values = [] :=
        List.eq_nil_of_length_eq_zero (htaken.length_eq.symm.trans (by rw [hnil]; rfl))
      rw [hnil, hvalues]
      rfl
    · have hvalues : s.values.map (fun _ => "?") ≠ [] := fun e => hnil
        (List.eq_nil_of_length_eq_zero (htaken.length_eq.trans (by simpa using e)))
      rw [comma_of_ne (intercalate_ne hnil fun c hc => (hcols c hc).1),
        comma_of_ne (intercalate_ne hvalues hmark)]
  refine ⟨cols ++ [key], ?_, ?_, ?_, List.rel_append htaken (.cons hv .nil)⟩
  · intro c hc
    rcases List.mem_append.mp hc with hc | hc
    · exact hcols c hc
    · exact List.mem_singleton.mp hc ▸ hk
  · rw [InsertState.append, hkeys, intercalate_comma fun c hc => (hcols c hc).1]
  · simp only [InsertState.append, hcomma, hmarks, intercalate_comma hmark, List.map_append,
      List.map_singleton]

theorem insertStep_placed {R : Runtime} {model : Model} {p : Property}
    (hv : ∀ v, model.valueForKey p.column = .ok (some v) → taken p.column (p.encode R v))
    (hs : ListPlaced taken s) (h : insertStep R model s p = .ok s') : ListPlaced taken s' := by
  by_cases hp : isColumn p.name = true → Backed model.cls.chain p
  · rw [insertStep_eq s hp] at h
    cases hb : insertBinding R model p with
    | none =>
        rw [hb] at h
        cases h
        exact hs
    | some e =>
        rw [hb] at h
        cases h
        unfold insertBinding at hb
        split at hb
        · rename_i hcol
          obtain ⟨v, hval, rfl⟩ := Option.map_eq_some_iff.mp hb
          have hbacked : Backed model.cls.chain p := hp hcol
          exact hs.append (listedName_of_word hbacked.word)
            (hv v (by rw [hbacked.valueForKey, hval]))
        · cases hb
  · obtain ⟨hcol, hb⟩ := Classical.not_imp.mp hp
    rw [insertStep_error s hcol hb] at h
    cases h

theorem insertColumnStep_placed {model : Model} (hk : ListedName key)
    (hv : ∀ v, model.valueForKey key = .ok (some v) → taken key v) (hs : ListPlaced taken s)
    (h : insertColumnStep model s key = .ok s') : ListPlaced taken s' := by
  obtain ⟨value, hvalue, h⟩ := Loop.of_bind_ok h
  cases value with
  | none =>
      cases h
      exact hs
  | some v =>
      cases h
      exact hs.append hk (hv v hvalue)

/-- **The marks of an insert** stand at the places of their columns. -/
theorem insertText_placed {T : String} (hT : MarkFree T) {replace : Bool} {text : String}
    {values : List Obj} (hs : ListPlaced taken s)
    (h : insertText T replace s = some (text, values)) :
    Placed (BesideTaken taken) text values := by
  obtain ⟨cols, hcols, hkeys, hmarks, htaken⟩ := hs
  unfold insertText at h
  split at h
  · cases h
  · cases h
    have hverb : MarkFree (if replace then "or replace into " else "or ignore into ") := by
      cases replace <;> decide
    have hkeysPlain : MarkFree s.keys := by
      rw [hkeys]
      exact markFree_intercalate fun c hc => (hcols c hc).2.2
    have hhead : MarkFree ("insert " ++ ((if replace then "or replace into " else "or ignore into ")
        ++ T) ++ (" (" ++ (s.keys ++ ") values ("))) :=
      (MarkFree.append (by decide) (hverb.append hT)).append
        (MarkFree.append (by decide) (hkeysPlain.append (by decide)))
    have htext : ∀ verb marks : String, "insert " ++ (verb ++ (T ++ (" (" ++ (s.keys ++
        (") values (" ++ (marks ++ ")")))))) =
        "insert " ++ (verb ++ T) ++ (" (" ++ (s.keys ++ ") values (")) ++ marks ++ ")" :=
      fun verb marks => by simp only [String.append_assoc]
    rw [htext, hmarks]
    refine Placed.then_plain ?_ (by decide)
    rw [Placed, String.toList_append]
    show Aligned '?' _ _ ([] ++ s.values)
    refine Aligned.append_of (Marks.aligned_plain hhead) (placed_list fun i v hi => ?_)
    obtain ⟨hlt, rfl⟩ := List.getElem?_eq_some_iff.mp hi
    have hlt' : i < cols.length := htaken.length_eq ▸ hlt
    refine ⟨cols[i], htaken.get hlt' hlt,
      .listed ("insert " ++ ((if replace then "or replace into " else "or ignore into ") ++
        T)).toList
        (fun c hc => (hcols c hc).2.1) (List.getElem?_eq_getElem hlt') ?_⟩
    rw [String.toList_append, hkeys, List.append_assoc]

end Inserts

end NBDataBase
