import NBDataBase.Lib.Loop
import NBDataBase.Orm.Operations

/-!
# Orm — what the builders build

The loops of the builders, collected: which columns a statement names, and which values it binds.

* `Backed`: the class has the instance variable that the builders look up for a property.
* `insertBindings`, `updateBindings`, `keyBindings`: the columns a loop names, with the values it
  binds.  The insert loops bind what `Property.encode` gives; the other two bind the value.
* `insertLoop_run`, `updateLoop_run`, `keyLoop_run`: the loops collect these.  A loop raises when
  an instance variable it looks up is missing.
* `createInsertSQL_run`, `createUpdateSQL_run`, `createDeleteSQL_run`,
  `createSelectSQL_run`: what the builders return.
-/

namespace NBDataBase
open Sql

/-! ### Commas -/

@[simp] theorem comma_empty : comma "" = "" := rfl

theorem comma_of_ne {s : String} (h : s ≠ "") : comma s = "," := by
  have : s.length ≠ 0 := fun h' => h (String.length_eq_zero_iff.mp h')
  simp [comma, Nat.pos_of_ne_zero this]

theorem append_ne_left {a b : String} (h : a ≠ "") : a ++ b ≠ "" := fun e => by
  rw [String.append_eq_empty_iff] at e
  exact h e.1

theorem append_ne_right {a b : String} (h : b ≠ "") : a ++ b ≠ "" := fun e => by
  rw [String.append_eq_empty_iff] at e
  exact h e.2

theorem intercalate_concat {xs : List String} (h : xs ≠ []) (x : String) :
    String.intercalate "," (xs ++ [x]) = String.intercalate "," xs ++ ("," ++ x) := by
  rw [String.intercalate_append_of_ne_nil h (by simp), String.intercalate_singleton,
    String.append_assoc]

theorem intercalate_ne {xs : List String} (hne : xs ≠ []) (h : ∀ x ∈ xs, x ≠ "") :
    String.intercalate "," xs ≠ "" := by
  obtain ⟨x, xs, rfl⟩ := List.exists_cons_of_ne_nil hne
  have hx : x ≠ "" := h x List.mem_cons_self
  cases xs with
  | nil => simpa using hx
  | cons y ys =>
      rw [String.intercalate_cons_cons, String.append_assoc]
      exact append_ne_left hx

/-- A string grown item by item is the items with commas between them. -/
theorem foldl_comma {xs : List String} (h : ∀ x ∈ xs, x ≠ "") :
    xs.foldl (fun s x => s ++ (comma s ++ x)) "" = String.intercalate "," xs := by
  induction xs using List.reverseRecOn with
  | nil => rfl
  | append_singleton xs x ih =>
      have ih := ih fun y hy => h y (List.mem_append_left _ hy)
      rw [List.foldl_append, List.foldl_cons, List.foldl_nil, ih]
      by_cases hxs : xs = []
      · subst hxs; simp
      · rw [intercalate_concat hxs, comma_of_ne]
        exact intercalate_ne hxs fun y hy => h y (List.mem_append_left _ hy)

/-! ### Decimal texts -/

/-- A decimal text has digits, and perhaps a sign. -/
theorem mem_toString {n : ℤ} {c : Char} (h : c ∈ (toString n).toList) :
    c = '-' ∨ c.isDigit = true := by
  have hdigits : ∀ k : ℕ, ∀ d ∈ k.repr.toList, d.isDigit = true := fun k d hd => by
    rw [Nat.toList_repr] at hd
    exact Nat.isDigit_of_mem_toDigits (by decide) (by decide) hd
  cases n with
  | ofNat k => exact .inr (hdigits k c h)
  | negSucc k =>
      have htext : (toString (Int.negSucc k)).toList = '-' :: (k + 1).repr.toList := by
        show ("-" ++ (k + 1).repr).toList = _
        rw [String.toList_append]
        rfl
      rw [htext, List.mem_cons] at h
      exact h.imp_right (hdigits _ c)

/-! ### Instance variables -/

/-- The class has an instance variable called as the property's column. -/
def Backed (chain : List ClassDecl) (p : Property) : Prop :=
  (getInstanceVariable chain p.column).isSome

instance (chain : List ClassDecl) (p : Property) : Decidable (Backed chain p) := by
  unfold Backed; infer_instance

theorem ivarKey_of_backed {chain : List ClassDecl} {p : Property} (h : Backed chain p) :
    ivarKey chain p = .ok p.column := by
  obtain ⟨iv, hiv⟩ := Option.isSome_iff_exists.mp h
  simp only [ivarKey, hiv, getInstanceVariable_name hiv]
  rfl

theorem ivarKey_of_not_backed {chain : List ClassDecl} {p : Property} (h : ¬ Backed chain p) :
    ivarKey chain p = .error .invalidArgument := by
  have : getInstanceVariable chain p.column = none := by simpa [Backed] using h
  simp only [ivarKey, this]
  rfl

/-- A superclass's instance variables are the class's too. -/
theorem Backed.mono {chain chain' : List ClassDecl} {p : Property} (h : Backed chain p)
    (hs : chain <:+ chain') : Backed chain' p := by
  obtain ⟨pre, rfl⟩ := hs
  simp only [Backed, getInstanceVariable, List.flatMap_append, List.find?_append] at h ⊢
  rw [Option.isSome_or, h, Bool.or_true]

variable {R : Runtime} {m : Model} {p : Property}

theorem Backed.valueForKey (h : Backed m.cls.chain p) :
    m.valueForKey p.column = .ok (m.value p.column) := by
  obtain ⟨iv, hiv⟩ := Option.isSome_iff_exists.mp h
  exact Model.valueForKey_of_ivar hiv

theorem Backed.word {cls : ModelClass} (h : Backed cls.chain p) : Word p.column := by
  obtain ⟨iv, hiv⟩ := Option.isSome_iff_exists.mp h
  obtain ⟨d, hd, hmem⟩ := List.mem_flatMap.mp (List.mem_of_find?_eq_some hiv)
  exact getInstanceVariable_name hiv ▸ cls.ivar_word d hd iv hmem

/-! ### `CREATE TABLE` -/

/-- The column `CREATE TABLE` makes of a property. -/
def storedColumn (p : Property) : Option (String × String) :=
  if isColumn p.name then p.columnType.map fun t => (p.column, t) else none

/-- The columns `CREATE TABLE` declares, with their types. -/
def storedColumns (chain : List ClassDecl) : List (String × String) :=
  (properties chain).filterMap storedColumn

/-- The text of a column definition. -/
def defText (d : String × String) : String := d.1 ++ (" " ++ d.2)

theorem tableParsStep_eq (s : String) (p : Property) :
    tableParsStep s p = (storedColumn p).elim s fun d => s ++ (comma s ++ defText d) := by
  unfold tableParsStep storedColumn
  by_cases hp : isColumn p.name
  · cases ht : p.columnType <;> simp [hp, defText]
  · simp [hp]

theorem tablePars_run (chain : List ClassDecl) :
    (properties chain).foldl tableParsStep "" =
      String.intercalate "," ((storedColumns chain).map defText) := by
  have hstep : tableParsStep =
      fun s p => (storedColumn p).elim s fun d => s ++ (comma s ++ defText d) :=
    funext fun s => funext fun p => tableParsStep_eq s p
  rw [hstep, Loop.foldl_filterMap storedColumn (fun s d => s ++ (comma s ++ defText d)),
    ← foldl_comma, List.foldl_map]
  · rfl
  · intro x hx
    obtain ⟨d, -, rfl⟩ := List.mem_map.mp hx
    exact append_ne_right (append_ne_left (by decide))

/-- The text of the primary key list. -/
def pkText (pks : List String) : String :=
  if pks = [] then "" else ",PRIMARY KEY(" ++ (String.intercalate "," pks ++ ")")

theorem createTableSQL_run {cls : ModelClass} {tableName : Option String} {T : String}
    (hT : tableName.or cls.getTableName = some T) (hne : storedColumns cls.chain ≠ [])
    (hpk : ∀ p ∈ getPrimaryKeys cls.chain, p ≠ "") :
    createTableSQLWithTableName cls tableName = some ("CREATE TABLE IF NOT EXISTS " ++
      (T ++ (" (" ++ (String.intercalate "," ((storedColumns cls.chain).map defText) ++
        (pkText (getPrimaryKeys cls.chain) ++ ")"))))) := by
  have hpars : ¬ (String.intercalate "," ((storedColumns cls.chain).map defText)).length < 1 := by
    rw [Nat.lt_one_iff, String.length_eq_zero_iff]
    refine intercalate_ne (by simpa using hne) fun x hx => ?_
    obtain ⟨d, -, rfl⟩ := List.mem_map.mp hx
    exact append_ne_right (append_ne_left (by decide))
  unfold createTableSQLWithTableName
  simp only [hT, tablePars_run, foldl_comma hpk, if_neg hpars]
  by_cases hpks : getPrimaryKeys cls.chain = []
  · simp [hpks, pkText]
  · have hlen : (String.intercalate "," (getPrimaryKeys cls.chain)).length > 0 :=
      Nat.pos_of_ne_zero fun e => intercalate_ne hpks hpk (String.length_eq_zero_iff.mp e)
    rw [if_pos hlen, pkText, if_neg hpks]

/-! ### The insert loop -/

/-- What an `INSERT` of the whole model binds for a property. -/
def insertBinding (R : Runtime) (m : Model) (p : Property) : Option (String × Obj) :=
  if isColumn p.name then (m.value p.column).map fun v => (p.column, p.encode R v) else none

/-- The columns an `INSERT` of the whole model names, and the values it binds. -/
def insertBindings (R : Runtime) (m : Model) (ps : List Property) : List (String × Obj) :=
  ps.filterMap (insertBinding R m)

/-- The instance variables that a loop over `ps` looks up are there. -/
def AllBacked (chain : List ClassDecl) (ps : List Property) : Prop :=
  ∀ p ∈ ps, isColumn p.name = true → Backed chain p

instance (chain : List ClassDecl) (ps : List Property) : Decidable (AllBacked chain ps) := by
  unfold AllBacked; infer_instance

/-- The state of the insert loop after some bindings. -/
def InsertState.of (l : List (String × Obj)) : InsertState :=
  l.foldl (fun s e => s.append e.1 e.2) {}

theorem insertStep_eq (s : InsertState) (h : isColumn p.name = true → Backed m.cls.chain p) :
    insertStep R m s p =
      .ok ((insertBinding R m p).elim s fun e => s.append e.1 e.2) := by
  unfold insertStep insertBinding
  by_cases hp : isColumn p.name
  · have hb := h hp
    simp only [hp, if_true, ivarKey_of_backed hb]
    show (m.valueForKey p.column >>= _) = _
    rw [hb.valueForKey]
    cases m.value p.column <;> rfl
  · simp only [hp]
    rfl

theorem insertStep_error (s : InsertState) (hp : isColumn p.name = true)
    (h : ¬ Backed m.cls.chain p) : insertStep R m s p = .error .invalidArgument := by
  unfold insertStep
  simp only [hp, if_true, ivarKey_of_not_backed h]
  rfl

/-- **The insert loop** collects the bindings. -/
theorem insertLoop_run {ps : List Property} (h : AllBacked m.cls.chain ps) :
    ps.foldlM (insertStep R m) {} = .ok (InsertState.of (insertBindings R m ps)) := by
  rw [Loop.foldlM_ok fun s p hp => insertStep_eq s (h p hp)]
  exact congrArg _ (Loop.foldl_filterMap (insertBinding R m)
    (fun (s : InsertState) e => s.append e.1 e.2) ps {})

theorem insertLoop_error {ps : List Property} (h : ¬ AllBacked m.cls.chain ps) (s : InsertState) :
    ps.foldlM (insertStep R m) s = .error .invalidArgument := by
  simp only [AllBacked, not_forall] at h
  obtain ⟨p, hp, hcol, hb⟩ := h
  refine Loop.foldlM_error (fun s q _ => ?_) ⟨p, hp, fun s => insertStep_error s hcol hb⟩ s
  by_cases hq : isColumn q.name = true → Backed m.cls.chain q
  · exact .inl ⟨_, insertStep_eq s hq⟩
  · obtain ⟨hq, hb⟩ := Classical.not_imp.mp hq
    exact .inr (insertStep_error s hq hb)

/-- The text and the values of the insert loop. -/
theorem InsertState.of_eq {l : List (String × Obj)} (h : ∀ e ∈ l, e.1 ≠ "") :
    InsertState.of l = ⟨String.intercalate "," (l.map (·.1)),
      String.intercalate "," (l.map fun _ => "?"), l.map (·.2)⟩ := by
  induction l using List.reverseRecOn with
  | nil => rfl
  | append_singleton l e ih =>
      have ih := ih fun x hx => h x (List.mem_append_left _ hx)
      rw [InsertState.of, List.foldl_append]
      show InsertState.append (InsertState.of l) e.1 e.2 = _
      rw [ih, InsertState.append]
      by_cases hl : l = []
      · subst hl; simp
      · have hkeys : String.intercalate "," (l.map (·.1)) ≠ "" := by
          refine intercalate_ne (by simpa using hl) fun x hx => ?_
          obtain ⟨y, hy, rfl⟩ := List.mem_map.mp hx
          exact h y (List.mem_append_left _ hy)
        simp [comma_of_ne hkeys, intercalate_concat, hl]

/-! ### The update loop -/

/-- What an `UPDATE` of the whole model binds for a property. -/
def updateBinding (m : Model) (p : Property) : Option (String × Obj) :=
  if isColumn p.name ∧ isPrimaryKey p.name = false then
    (m.value p.column).map fun v => (p.column, v)
  else none

/-- The columns an `UPDATE` of the whole model sets, and the values it binds. -/
def updateBindings (m : Model) (ps : List Property) : List (String × Obj) :=
  ps.filterMap (updateBinding m)

theorem updateStep_eq (s : UpdateState) (h : isColumn p.name = true → Backed m.cls.chain p) :
    updateStep m s p = .ok ((updateBinding m p).elim s fun e => s.append e.1 e.2) := by
  unfold updateStep updateBinding
  by_cases hp : isColumn p.name
  · have hb := h hp
    simp only [hp, if_true, ivarKey_of_backed hb]
    show (if isPrimaryKey p.name = true then _ else _) = _
    by_cases hk : isPrimaryKey p.name
    · simp only [hk, if_true]
      rfl
    · simp only [hk, hb.valueForKey]
      cases m.value p.column <;> rfl
  · simp only [hp]
    rfl

theorem updateStep_error (s : UpdateState) (hp : isColumn p.name = true)
    (h : ¬ Backed m.cls.chain p) : updateStep m s p = .error .invalidArgument := by
  unfold updateStep
  simp only [hp, if_true, ivarKey_of_not_backed h]
  rfl

/-- The `SET` list of some columns. -/
def setText (keys : List String) : String :=
  String.intercalate "," (keys.map fun k => k ++ "=?")

/-- The text and the values of a list of assignments. -/
theorem foldl_updateAppend (l : List (String × Obj)) :
    l.foldl (fun s e => UpdateState.append s e.1 e.2) ("", []) =
      (setText (l.map (·.1)), l.map (·.2)) := by
  have key : ∀ k : String, k ++ "=?" ≠ "" := fun k => append_ne_right (by decide)
  induction l using List.reverseRecOn with
  | nil => rfl
  | append_singleton l e ih =>
      rw [List.foldl_append, ih]
      by_cases hl : l = []
      · subst hl; simp [setText, UpdateState.append]
      · have hset : setText (l.map (·.1)) ≠ "" := by
          refine intercalate_ne (by simpa using hl) fun x hx => ?_
          obtain ⟨k, -, rfl⟩ := List.mem_map.mp hx
          exact key k
        simp only [List.foldl_cons, List.foldl_nil, UpdateState.append, comma_of_ne hset]
        simp [setText, intercalate_concat, hl]

/-- **The update loop** collects the bindings. -/
theorem updateLoop_run {ps : List Property} (h : AllBacked m.cls.chain ps) :
    ps.foldlM (updateStep m) ("", []) =
      .ok (setText ((updateBindings m ps).map (·.1)), (updateBindings m ps).map (·.2)) := by
  rw [Loop.foldlM_ok fun s p hp => updateStep_eq s (h p hp), ← foldl_updateAppend]
  exact congrArg _ (Loop.foldl_filterMap (updateBinding m)
    (fun (s : UpdateState) e => s.append e.1 e.2) ps ("", []))

theorem updateLoop_error {ps : List Property} (h : ¬ AllBacked m.cls.chain ps)
    (s : UpdateState) : ps.foldlM (updateStep m) s = .error .invalidArgument := by
  simp only [AllBacked, not_forall] at h
  obtain ⟨p, hp, hcol, hb⟩ := h
  refine Loop.foldlM_error (fun s q _ => ?_) ⟨p, hp, fun s => updateStep_error s hcol hb⟩ s
  by_cases hq : isColumn q.name = true → Backed m.cls.chain q
  · exact .inl ⟨_, updateStep_eq s hq⟩
  · obtain ⟨hq, hb⟩ := Classical.not_imp.mp hq
    exact .inr (updateStep_error s hq hb)

/-! ### The primary key loop -/

/-- What the primary key clause binds for a property. -/
def keyBinding (m : Model) (p : Property) : Option (String × Obj) :=
  if isPrimaryKey p.name then (m.value p.column).map fun v => (p.column, v) else none

/-- The columns of the primary key clause, and the values it binds. -/
def keyBindings (m : Model) : List (String × Obj) :=
  (properties m.cls.chain).filterMap (keyBinding m)

/-- The instance variables of the primary key are there, each seen from the class that declares
its property. -/
def KeysBacked (chain : List ClassDecl) : Prop :=
  ∀ v ∈ visits chain, isPrimaryKey v.2.name = true → Backed v.1 v.2

instance (chain : List ClassDecl) : Decidable (KeysBacked chain) := by
  unfold KeysBacked; infer_instance

/-- The primary key clause of some columns. -/
def keyText (keys : List String) : String :=
  keys.foldl (fun s k => s ++ ((if s.length > 0 then "and" else " where ") ++
    (" " ++ (k ++ "=? ")))) ""

/-- The state of the primary key loop after one binding more. -/
def keyAppend (s : String × List Obj) (e : String × Obj) : String × List Obj :=
  (s.1 ++ ((if s.1.length > 0 then "and" else " where ") ++ (" " ++ (e.1 ++ "=? "))),
    s.2 ++ [e.2])

theorem foldl_keyAppend (l : List (String × Obj)) :
    l.foldl keyAppend ("", []) = (keyText (l.map (·.1)), l.map (·.2)) := by
  induction l using List.reverseRecOn with
  | nil => rfl
  | append_singleton l e ih => simp [List.foldl_append, ih, keyAppend, keyText]

theorem primaryKeyStep_eq {v : List ClassDecl × Property} (s : String × List Obj)
    (hv : v.1 <:+ m.cls.chain) (h : isPrimaryKey v.2.name = true → Backed v.1 v.2) :
    primaryKeyStep m s v = .ok ((keyBinding m v.2).elim s (keyAppend s)) := by
  unfold primaryKeyStep keyBinding
  by_cases hp : isPrimaryKey v.2.name
  · simp only [hp, if_true, ivarKey_of_backed (h hp)]
    show (m.valueForKey v.2.column >>= _) = _
    rw [((h hp).mono hv).valueForKey]
    cases m.value v.2.column <;> rfl
  · simp only [hp]
    rfl

theorem primaryKeyStep_error {v : List ClassDecl × Property} (s : String × List Obj)
    (hp : isPrimaryKey v.2.name = true) (h : ¬ Backed v.1 v.2) :
    primaryKeyStep m s v = .error .invalidArgument := by
  unfold primaryKeyStep
  simp only [hp, if_true, ivarKey_of_not_backed h]
  rfl

/-- **The primary key loop** collects the bindings. -/
theorem keyLoop_run (h : KeysBacked m.cls.chain) :
    (visits m.cls.chain).foldlM (primaryKeyStep m) ("", []) =
      .ok (keyText ((keyBindings m).map (·.1)), (keyBindings m).map (·.2)) := by
  rw [Loop.foldlM_ok fun s v hv => primaryKeyStep_eq s (visits_suffix hv) (h v hv),
    ← foldl_keyAppend, keyBindings, ← visits_snd, List.filterMap_map]
  exact congrArg _ (Loop.foldl_filterMap (fun v : List ClassDecl × Property => keyBinding m v.2)
    keyAppend (visits m.cls.chain) ("", []))

theorem keyLoop_error (h : ¬ KeysBacked m.cls.chain) (s : String × List Obj) :
    (visits m.cls.chain).foldlM (primaryKeyStep m) s = .error .invalidArgument := by
  simp only [KeysBacked, not_forall] at h
  obtain ⟨v, hv, hp, hb⟩ := h
  refine Loop.foldlM_error (fun s q hq => ?_) ⟨v, hv, fun s => primaryKeyStep_error s hp hb⟩ s
  by_cases hk : isPrimaryKey q.2.name = true → Backed q.1 q.2
  · exact .inl ⟨_, primaryKeyStep_eq s (visits_suffix hq) hk⟩
  · obtain ⟨hk, hb⟩ := Classical.not_imp.mp hk
    exact .inr (primaryKeyStep_error s hk hb)

theorem keyText_ne {keys : List String} (h : keys ≠ []) : keyText keys ≠ "" := by
  obtain ⟨ks, k, rfl⟩ := List.eq_nil_or_concat keys |>.resolve_left h
  rw [List.concat_eq_append, keyText, List.foldl_append]
  exact append_ne_right (append_ne_right (append_ne_left (by decide)))

/-! ### What the builders return -/

theorem createInsertSQL_run {tableName : Option String} {T : String} (replace : Bool)
    (hT : tableName.or m.cls.getTableName = some T)
    (h : AllBacked m.cls.chain (properties m.cls.chain)) :
    createInsertSQL R m tableName replace =
      .ok (insertText T replace (.of (insertBindings R m (properties m.cls.chain)))) := by
  unfold createInsertSQL createInsertSQLWithColumns
  simp only [hT, insertLoop_run h]
  rfl

theorem createInsertSQL_error {tableName : Option String} {T : String} (replace : Bool)
    (hT : tableName.or m.cls.getTableName = some T)
    (h : ¬ AllBacked m.cls.chain (properties m.cls.chain)) :
    createInsertSQL R m tableName replace = .error .invalidArgument := by
  unfold createInsertSQL createInsertSQLWithColumns
  simp only [hT, insertLoop_error h]
  rfl

/-- An insert of one column that has a value. -/
theorem createInsertSQLWithColumns_single {T c : String} {w : Obj}
    (hv : m.valueForKey? c = some (some w)) (replace : Bool) :
    createInsertSQLWithColumns R m (some T) (some (.array [c])) replace =
      .ok (insertText T replace (.of [(c, w)])) := by
  simp only [createInsertSQLWithColumns, columnsArray]
  show ([c].foldlM (insertColumnStep m) {} >>= _) = _
  simp only [List.foldlM_cons, insertColumnStep, Model.valueForKey, hv]
  rfl

/-- `wherePrimaryKeySQLWithModel` when some key has a value. -/
theorem wherePrimaryKeySQL_run (h : KeysBacked m.cls.chain) (hk : keyBindings m ≠ []) :
    wherePrimaryKeySQLWithModel R m =
      .ok (keyText ((keyBindings m).map (·.1)), (keyBindings m).map (·.2)) := by
  have hne : (keyText ((keyBindings m).map (·.1))).length ≠ 0 := fun e =>
    keyText_ne (by simpa using hk) (String.length_eq_zero_iff.mp e)
  simp only [wherePrimaryKeySQLWithModel, keyLoop_run h]
  show (if _ then _ else _) = _
  rw [if_neg hne]
  rfl

/-- `wherePrimaryKeySQLWithModel` when no key has a value. -/
theorem wherePrimaryKeySQL_nil (h : KeysBacked m.cls.chain) (hk : keyBindings m = []) :
    wherePrimaryKeySQLWithModel R m =
      if R.asserts then .error .assertion else .ok ("", []) := by
  simp only [wherePrimaryKeySQLWithModel, keyLoop_run h, hk, assertNo]
  cases R.asserts <;> rfl

theorem wherePrimaryKeySQL_error (h : ¬ KeysBacked m.cls.chain) :
    wherePrimaryKeySQLWithModel R m = .error .invalidArgument := by
  simp only [wherePrimaryKeySQLWithModel, keyLoop_error h]
  rfl

theorem extractWhereSql_run (sql : String) (h : KeysBacked m.cls.chain)
    (hk : keyBindings m ≠ []) :
    extractWhereSql R sql none true (some m) =
      .ok ⟨sql ++ keyText ((keyBindings m).map (·.1)), (keyBindings m).map (·.2), false⟩ := by
  have hne : (keyText ((keyBindings m).map (·.1))).length ≠ 0 := fun e =>
    keyText_ne (by simpa using hk) (String.length_eq_zero_iff.mp e)
  simp only [extractWhereSql, extractWhereSql.byPrimaryKey, if_true, wherePrimaryKeySQL_run h hk]
  show (if _ then _ else _) = _
  rw [if_neg hne]
  rfl

theorem createSelectSQL_run {T : String} (h : KeysBacked m.cls.chain) (hk : keyBindings m ≠ []) :
    createSelectSQLWithPrimaryKeyAndTableName R m (some T) none =
      .ok (some ("SELECT " ++ ("*" ++ (" FROM " ++
        (T ++ keyText ((keyBindings m).map (·.1))))), (keyBindings m).map (·.2))) := by
  simp only [createSelectSQLWithPrimaryKeyAndTableName, wherePrimaryKeySQL_run h hk]
  rfl

theorem createDeleteSQL_run {T : String} (hT : m.cls.getTableName = some T)
    (h : KeysBacked m.cls.chain) (hk : keyBindings m ≠ []) :
    createDeleteSQL R m none =
      .ok (some ("DELETE FROM " ++ T ++ keyText ((keyBindings m).map (·.1)),
        (keyBindings m).map (·.2))) := by
  simp only [createDeleteSQL, createDeleteSQLWithModelAndTableName, hT, formatted,
    extractWhereSql_run _ h hk]
  rfl

theorem createUpdateSQL_run {T : String} (hA : AllBacked m.cls.chain (properties m.cls.chain))
    (h : KeysBacked m.cls.chain) (hk : keyBindings m ≠ []) :
    createUpdateSQLWithModelAndTableName R m (some T) none none =
      .ok (some (updateText T (setText ((updateBindings m (properties m.cls.chain)).map (·.1))) ++
          keyText ((keyBindings m).map (·.1)),
        (updateBindings m (properties m.cls.chain)).map (·.2) ++ (keyBindings m).map (·.2))) := by
  simp only [createUpdateSQLWithModelAndTableName, setList, updateLoop_run hA]
  show (extractWhereSql R _ none true (some m) >>= _) = _
  rw [extractWhereSql_run _ h hk]
  rfl

/-- Without an instance variable it looks up, an update of the whole model raises. -/
theorem createUpdateSQL_error (h : ¬ AllBacked m.cls.chain (properties m.cls.chain))
    (tableName : Option String) (condition : Option Where) :
    createUpdateSQLWithModelAndTableName R m tableName none condition =
      .error .invalidArgument := by
  unfold createUpdateSQLWithModelAndTableName setList
  simp only [updateLoop_error h]
  rfl

theorem createSelectSQL_error {T : String} (h : ¬ KeysBacked m.cls.chain) :
    createSelectSQLWithPrimaryKeyAndTableName R m (some T) none = .error .invalidArgument := by
  simp only [createSelectSQLWithPrimaryKeyAndTableName, wherePrimaryKeySQL_error h]
  rfl

/-- Without a key the select has no clause, or the assertion fails. -/
theorem createSelectSQL_nil {T : String} (h : KeysBacked m.cls.chain) (hk : keyBindings m = []) :
    createSelectSQLWithPrimaryKeyAndTableName R m (some T) none =
      if R.asserts then .error .assertion
      else .ok (some ("SELECT " ++ ("*" ++ (" FROM " ++ (T ++ keyText []))), [])) := by
  simp only [createSelectSQLWithPrimaryKeyAndTableName, wherePrimaryKeySQL_nil h hk]
  cases R.asserts <;> rfl

/-- Without a key there is no delete, or the assertion fails. -/
theorem createDeleteSQL_nil (h : KeysBacked m.cls.chain) (hk : keyBindings m = []) :
    createDeleteSQL R m none = if R.asserts then .error .assertion else .ok none := by
  simp only [createDeleteSQL, createDeleteSQLWithModelAndTableName, extractWhereSql,
    extractWhereSql.byPrimaryKey, if_true, wherePrimaryKeySQL_nil h hk, assertNo]
  cases R.asserts <;> rfl

end NBDataBase
