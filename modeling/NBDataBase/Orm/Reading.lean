import NBDataBase.Orm.Tables
import NBDataBase.Orm.Where

/-!
# Orm — reading

How a row becomes a model: `executeResult:class:` for the subclasses of `NBBaseDBTableModel`, and
`setValue:forKey:typeEncoding:`, which turns the object of a column into the value of an instance
variable.

* `Foundation`: classes, selectors, archives and number conversions, which stay parameters.
* `objectForColumn`: what FMDB hands out for a value of a row.
* `modelValue`: from the source.  It depends on the type of the instance variable, and on the
  class and the length of the object; `modelValue_ok_iff` says which objects it takes (`Suits`).
* `readColumn`, `executeResult`, `query`: from the source.  A column is read when the model
  responds to the selector called as the column without its first character.
* `executeResult_ok_iff`: rows are read without an exception exactly when every column of every
  row is (`ColumnReads`).  `executeResult_value`: what a model read holds.
-/

namespace NBDataBase
open Sql

/-! ### Foundation -/

/-- The messages that turn an object into a number. -/
inductive Message where
  | doubleValue | longValue | longLongValue | unsignedLongValue | unsignedLongLongValue
  | integerValue
  deriving DecidableEq

/-- The class strings of the types that are no classes; a protocol-qualified `id` has the empty
one. -/
def scalarStrings : List String :=
  ["", "int", "short", "long", "long long", "unsigned long", "unsigned long long", "float",
    "double", "char"]

/-- Classes, selectors and archives, as far as the source does not say. -/
structure Foundation where
  /-- `NSClassFromString` finds a class. -/
  classExists : String → Bool
  isSubclassOfClass : String → String → Bool
  isKindOfClass : Obj → String → Bool
  /-- `respondsToSelector:` of the instances of a model class. -/
  respondsToSelector : ModelClass → String → Bool
  /-- The instance variables after `[[modelClass alloc] init]`. -/
  init : ModelClass → String → Option Obj
  /-- `+[NSKeyedUnarchiver unarchiveObjectWithData:]`; `none` is an exception. -/
  unarchiveObjectWithData : List UInt8 → Option (Option Obj)
  number : Message → Obj → NSNumber
  /-- `CGRectFromString` and the like, by the name of the structure; `none` is an exception. -/
  structFromString : String → Obj → Option Obj
  scalar_no_class : ∀ s ∈ scalarStrings, classExists s = false
  subclass_self : ∀ c, isSubclassOfClass c c = true
  kind_of_string : ∀ c o, isSubclassOfClass c "NSString" = true → isKindOfClass o c = true →
    ∃ cls s, o = .string cls s
  no_empty_archive : ∀ o, unarchiveObjectWithData [] ≠ some (some o)

/-- `-[FMResultSet objectForColumnIndex:]`; `none` is `NSNull`.  The bytes of an empty blob are
`NULL` to SQLite. -/
def objectForColumn : Value → Option Obj
  | .null => none
  | .num (.int n) => some (.number (.integer n.toInt))
  | .num (.real x) => some (.number (.double (some x)))
  | .text s => some (.string "NSString" (cString s))
  | .blob [] => none
  | .blob (b :: bs) => some (.data (b :: bs))

namespace Obj

/-- `respondsToSelector:`, for the objects that FMDB hands out. -/
def respondsTo : Obj → Message → Bool
  | number _, _ => true
  | string _ _, .doubleValue => true
  | string _ _, .longLongValue => true
  | string _ _, .integerValue => true
  | _, _ => false

/-- `length == 0`; an `NSNumber` has no `length`. -/
def lengthIsZero : Obj → Except Fault Bool
  | string _ s => .ok (s == "")
  | data bytes => .ok bytes.isEmpty
  | _ => .error .invalidArgument

end Obj

/-! ### `setValue:forKey:typeEncoding:` -/

/-- `+[NBDBHelper classStringWithDataType:]`. -/
def classStringWithDataType (type : String) : Option String :=
  match type.toList.head? with
  | none => none
  | some c =>
      if c = 'i' then some "int"
      else if c = 's' then some "short"
      else if c = 'l' then some "long"
      else if c = 'q' then some "long long"
      else if c ∈ ['I', 'S', 'L'] then some "unsigned long"
      else if c = 'Q' then some "unsigned long long"
      else if c = 'f' then some "float"
      else if c = 'd' then some "double"
      -- the case of `B` runs on into that of `c`
      else if c ∈ ['B', 'c', 'C'] then some "char"
      else if c = '@' then
        if type.length ≥ 3 then some (classNameOfEncoding type.toList) else none
      else none

/-- `rangeOfString:` finds `part`, which it does not when that is empty. -/
def rangeOfString (s part : String) : Bool := part != "" && hasSubstring s part

def floatTypes : String := "float_double_decimal"
def integerTypes : String := "int_char_short_long_long long_unsigned long_unsigned long long"

/-- The message that an integer type asks its number with. -/
def integerMessage (columnType : String) : Message :=
  if columnType = "long" then .longValue
  else if columnType = "long long" then .longLongValue
  else if columnType = "unsigned long" then .unsignedLongValue
  else if columnType = "unsigned long long" then .unsignedLongLongValue
  else .integerValue

def structTypes : List String := ["CGRect", "CGPoint", "CGSize", "_NSRange"]

section Reader

variable (F : Foundation)

/-- Send a message for a number. -/
def send (message : Message) (value : Obj) : Except Fault Obj :=
  if value.respondsTo message then .ok (.number (F.number message value))
  else .error .invalidArgument

/-- The branch for a type that is no class. -/
def basicValue (columnType : String) (value : Obj) : Except Fault Obj :=
  if rangeOfString floatTypes columnType then send F .doubleValue value
  else if rangeOfString integerTypes columnType then send F (integerMessage columnType) value
  else if columnType ∈ structTypes then
    match F.structFromString columnType value with
    | some o => .ok o
    | none => .error .invalidArgument
  else .ok (.number (.integer 0))

/-- The classes whose values the reader drops. -/
def unsupportedClasses : List String := ["NSDate", "UIColor", "UIImage", "NSData"]

/-- Unarchive an `NSData`; another object is no archive. -/
def unarchive (value : Obj) : Except Fault (Option Obj) :=
  match value with
  | .data bytes =>
      match F.unarchiveObjectWithData bytes with
      | some o => .ok o
      | none => .error .invalidArgument
  | _ => .ok none

/-- The branches for a class. -/
def classValue (columnClass : String) (value : Obj) : Except Fault (Option Obj) := do
  if ← value.lengthIsZero then return none
  else if F.isSubclassOfClass columnClass "NSString" then return some value
  else if F.isSubclassOfClass columnClass "NSNumber" then
    return some (← send F .doubleValue value)
  else if unsupportedClasses.any (F.isSubclassOfClass columnClass) then return none
  else
    let modelValue ← unarchive F value
    return modelValue.filter (F.isKindOfClass · columnClass)

/-- `modelValue` of `setValue:forKey:typeEncoding:`.  Without a class string, `rangeOfString:`
gets nil. -/
def modelValue (typeEncoding : String) (value : Obj) : Except Fault (Option Obj) :=
  match classStringWithDataType typeEncoding with
  | none => .error .invalidArgument
  | some propertyType =>
      if F.classExists propertyType then classValue F propertyType value
      else some <$> basicValue F propertyType value

/-! ### `executeResult:class:` -/

/-- A model that is read, by what `setValue:forKey:` has set of its instance variables. -/
abbrev Instance := String → Option Obj

/-- A column name without its first character. -/
def selectorOfColumn (sqlName : String) : String := String.ofList (sqlName.toList.drop 1)

/-- The body of the loop over the columns. -/
def readColumn (modelClass : ModelClass) (r : Row) (bindingModel : Instance) (sqlName : String) :
    Except Fault Instance :=
  if F.respondsToSelector modelClass (selectorOfColumn sqlName) then
    match getInstanceVariable modelClass.chain sqlName with
    | none => .error .invalidArgument
    | some ivar =>
        match objectForColumn (r (fold sqlName)) with
        | none => .ok bindingModel
        | some value => do
            let modelValue ← modelValue F ivar.typeEncoding value
            return Function.update bindingModel ivar.name modelValue
  else .ok bindingModel

/-- The models of the rows. -/
def executeResult (modelClass : ModelClass) (names : List String) (rows : List Row) :
    Except Fault (List Instance) :=
  rows.mapM fun r => names.foldlM (readColumn F modelClass r) (F.init modelClass)

/-- `query:`.  The columns of `select *` are those of the table. -/
def query (R : Runtime) (modelClass : ModelClass) : Action (List Instance) := do
  let rows ← queryBaseWithParams R
    { tableClass := some modelClass, toClass := some modelClass }
  let names ← getTableSchema (modelClass.getTableName.getD "")
  Action.build (executeResult F modelClass names rows)

end Reader

/-! ### What the reader takes -/

/-- A class takes texts; it takes bytes unless it asks them for a number or they are no archive. -/
def SuitsClass (F : Foundation) (columnClass : String) : Obj → Prop
  | .string _ _ => True
  | .data bytes => bytes = [] ∨ F.isSubclassOfClass columnClass "NSString" = true ∨
      F.isSubclassOfClass columnClass "NSNumber" = false ∧
        (unsupportedClasses.any (F.isSubclassOfClass columnClass) = true ∨
          (F.unarchiveObjectWithData bytes).isSome = true)
  | _ => False

/-- A number type takes what answers its message, a structure what is read as one, and any other
type takes everything. -/
def SuitsBasic (F : Foundation) (columnType : String) (value : Obj) : Prop :=
  if rangeOfString floatTypes columnType then value.respondsTo .doubleValue = true
  else if rangeOfString integerTypes columnType then
    value.respondsTo (integerMessage columnType) = true
  else columnType ∈ structTypes → (F.structFromString columnType value).isSome = true

/-- The object suits an instance variable of the type. -/
def Suits (F : Foundation) (typeEncoding : String) (value : Obj) : Prop :=
  ∃ propertyType, classStringWithDataType typeEncoding = some propertyType ∧
    if F.classExists propertyType then SuitsClass F propertyType value
    else SuitsBasic F propertyType value

instance (F : Foundation) (c : String) : (value : Obj) → Decidable (SuitsClass F c value)
  | .string _ _ => inferInstanceAs (Decidable True)
  | .data _ => inferInstanceAs (Decidable (_ ∨ _))
  | .null => inferInstanceAs (Decidable False)
  | .number _ => inferInstanceAs (Decidable False)
  | .date _ => inferInstanceAs (Decidable False)
  | .other _ _ => inferInstanceAs (Decidable False)

instance (F : Foundation) (c : String) (value : Obj) : Decidable (SuitsBasic F c value) := by
  unfold SuitsBasic; infer_instance

instance (F : Foundation) (t : String) (value : Obj) : Decidable (Suits F t value) :=
  match h : classStringWithDataType t with
  | none => .isFalse (by simp [Suits, h])
  | some c => decidable_of_iff
      (if F.classExists c then SuitsClass F c value else SuitsBasic F c value) (by simp [Suits, h])

variable {F : Foundation}

theorem send_ok_iff {message : Message} {value : Obj} :
    (∃ o, send F message value = .ok o) ↔ value.respondsTo message = true := by
  unfold send
  split
  · simp [*]
  · simp [*]

theorem basicValue_ok_iff {columnType : String} {value : Obj} :
    (∃ o, basicValue F columnType value = .ok o) ↔ SuitsBasic F columnType value := by
  unfold basicValue SuitsBasic
  split
  · exact send_ok_iff
  · split
    · exact send_ok_iff
    · split
      · cases F.structFromString columnType value <;> simp [*]
      · simp [*]

theorem classValue_ok_iff {columnClass : String} {value : Obj} :
    (∃ o, classValue F columnClass value = .ok o) ↔ SuitsClass F columnClass value := by
  cases value with
  | string cls s =>
      refine iff_of_true ?_ trivial
      show ∃ o, (if (s == "") = true then _ else _) = Except.ok o
      split
      · exact ⟨_, rfl⟩
      · split
        · exact ⟨_, rfl⟩
        · split
          · exact ⟨_, rfl⟩
          · split <;> exact ⟨_, rfl⟩
  | data bytes =>
      show (∃ o, (if bytes.isEmpty = true then _ else _) = Except.ok o) ↔ _
      rw [SuitsClass, ← List.isEmpty_iff]
      split
      · exact iff_of_true ⟨_, rfl⟩ (.inl ‹_›)
      · split
        · exact iff_of_true ⟨_, rfl⟩ (.inr (.inl ‹_›))
        · split
          · -- an `NSData` is no number
            refine iff_of_false ?_ (by simp [*])
            rintro ⟨o, ho⟩
            cases ho
          · split
            · exact iff_of_true ⟨_, rfl⟩ (by simp [*])
            · cases harchive : F.unarchiveObjectWithData bytes with
              | none =>
                  refine iff_of_false ?_ (by simp [*])
                  rintro ⟨o, ho⟩
                  simp only [unarchive, harchive] at ho
                  cases ho
              | some o =>
                  refine iff_of_true ⟨o.filter (F.isKindOfClass · columnClass), ?_⟩ (by simp [*])
                  simp only [unarchive, harchive]
                  rfl
  | _ =>
      refine iff_of_false ?_ id
      rintro ⟨o, ho⟩
      cases ho

theorem modelValue_ok_iff {typeEncoding : String} {value : Obj} :
    (∃ o, modelValue F typeEncoding value = .ok o) ↔ Suits F typeEncoding value := by
  unfold modelValue Suits
  cases classStringWithDataType typeEncoding with
  | none =>
      refine iff_of_false ?_ (by simp)
      rintro ⟨o, ho⟩
      cases ho
  | some propertyType =>
      simp only [Option.some.injEq, exists_eq_left']
      split
      · exact classValue_ok_iff
      · rw [← basicValue_ok_iff]
        cases basicValue F propertyType value with
        | error e => exact iff_of_false (by rintro ⟨o, ho⟩; cases ho) (by simp)
        | ok o => exact iff_of_true ⟨_, rfl⟩ ⟨o, rfl⟩

/-! ### Rows -/

/-- The column of the row is read: the model does not respond to its selector, or has the instance
variable, which the object of the column suits. -/
def ColumnReads (F : Foundation) (cls : ModelClass) (r : Row) (c : String) : Prop :=
  F.respondsToSelector cls (selectorOfColumn c) = true →
    ∃ ivar, getInstanceVariable cls.chain c = some ivar ∧
      ∀ value, objectForColumn (r (fold c)) = some value → Suits F ivar.typeEncoding value

/-- What the reader sets of an instance variable when it reads its column, if it sets it. -/
def setOfColumn (F : Foundation) (cls : ModelClass) (r : Row) (c : String) :
    Option (Option Obj) :=
  if F.respondsToSelector cls (selectorOfColumn c) then do
    let ivar ← getInstanceVariable cls.chain c
    let value ← objectForColumn (r (fold c))
    match modelValue F ivar.typeEncoding value with
    | .ok o => some o
    | .error _ => none
  else none

variable {cls : ModelClass} {r : Row} {c : String} {inst : Instance}

/-- **A column that is read** sets its instance variable or nothing. -/
theorem readColumn_ok (h : ColumnReads F cls r c) :
    readColumn F cls r inst c =
      .ok ((setOfColumn F cls r c).elim inst (Function.update inst c)) := by
  unfold readColumn setOfColumn
  split
  · obtain ⟨ivar, hivar, hsuits⟩ := h ‹_›
    simp only [hivar, Option.bind_eq_bind, Option.bind_some, getInstanceVariable_name hivar]
    cases hvalue : objectForColumn (r (fold c)) with
    | none => rfl
    | some value =>
        obtain ⟨o, ho⟩ := modelValue_ok_iff.mpr (hsuits value hvalue)
        simp only [Option.bind_some, ho]
        rfl
  · rfl

theorem readColumn_ok_iff : (∃ inst', readColumn F cls r inst c = .ok inst') ↔
    ColumnReads F cls r c := by
  refine ⟨?_, fun h => ⟨_, readColumn_ok h⟩⟩
  rintro ⟨inst', hread⟩ hresponds
  rw [readColumn, if_pos hresponds] at hread
  cases hivar : getInstanceVariable cls.chain c with
  | none => rw [hivar] at hread; cases hread
  | some ivar =>
      refine ⟨ivar, rfl, fun value hvalue => ?_⟩
      simp only [hivar, hvalue] at hread
      obtain ⟨o, ho, -⟩ := Loop.of_bind_ok hread
      exact modelValue_ok_iff.mp ⟨o, ho⟩

variable {names : List String} {rows : List Row}

/-- What an instance variable holds after the columns of a row are read. -/
def readValue (F : Foundation) (cls : ModelClass) (names : List String) (r : Row) (c : String) :
    Option Obj :=
  if c ∈ names then (setOfColumn F cls r c).getD (F.init cls c) else F.init cls c

theorem readColumns_ok_iff : (∃ inst', names.foldlM (readColumn F cls r) inst = .ok inst') ↔
    ∀ c ∈ names, ColumnReads F cls r c :=
  Loop.foldlM_ok_iff (f := readColumn F cls r) (P := ColumnReads F cls r)
    (fun _ _ _ => readColumn_ok_iff) inst

/-- Columns that are read set their instance variables, each its own. -/
theorem readColumns_ok (hnames : names.Nodup) (h : ∀ c ∈ names, ColumnReads F cls r c) :
    names.foldlM (readColumn F cls r) (F.init cls) = .ok (readValue F cls names r) := by
  rw [Loop.foldlM_ok (f := readColumn F cls r) fun _ c hc => readColumn_ok (h c hc)]
  clear h
  congr 1
  funext c
  induction names using List.reverseRecOn with
  | nil => rfl
  | append_singleton names d ih =>
      obtain ⟨hdistinct, -, hd⟩ := List.nodup_append.mp hnames
      rw [List.foldl_append, List.foldl_cons, List.foldl_nil]
      by_cases hcd : c = d
      · subst hcd
        have hc : c ∉ names := fun hc => hd c hc c (by simp) rfl
        have hprev := ih hdistinct
        rw [readValue, if_neg hc] at hprev
        rw [readValue, if_pos (by simp)]
        cases setOfColumn F cls r c with
        | none => exact hprev
        | some o => exact Function.update_self _ _ _
      · have hother : readValue F cls (names ++ [d]) r c = readValue F cls names r c := by
          simp [readValue, hcd]
        rw [hother, ← ih hdistinct]
        cases setOfColumn F cls r d with
        | none => rfl
        | some o => exact Function.update_of_ne hcd _ _

/-- **Rows are read without an exception** exactly when every column of every row is. -/
theorem executeResult_ok_iff : (∃ insts, executeResult F cls names rows = .ok insts) ↔
    ∀ r ∈ rows, ∀ c ∈ names, ColumnReads F cls r c :=
  Loop.mapM_ok_iff.trans (forall₂_congr fun _ _ => readColumns_ok_iff)

/-- What the models read hold. -/
theorem executeResult_ok (hnames : names.Nodup)
    (h : ∀ r ∈ rows, ∀ c ∈ names, ColumnReads F cls r c) :
    executeResult F cls names rows = .ok (rows.map (readValue F cls names)) :=
  Loop.mapM_ok fun r hr => readColumns_ok hnames (h r hr)

/-- The column sets an instance variable of its name: the model responds to the selector. -/
def SetsOwn (F : Foundation) (cls : ModelClass) (c : String) : Prop :=
  F.respondsToSelector cls (selectorOfColumn c) = true ∧
    (getInstanceVariable cls.chain c).isSome = true

/-- **A column sets its own instance variable** and no other. -/
theorem readColumn_other {inst' : Instance} {key : String}
    (h : readColumn F cls r inst c = .ok inst') (hkey : inst' key ≠ inst key) :
    key = c ∧ SetsOwn F cls c := by
  have hread : readColumn F cls r inst c = .ok _ := readColumn_ok (readColumn_ok_iff.mp ⟨inst', h⟩)
  obtain rfl := Except.ok.inj (h.symm.trans hread)
  cases hset : setOfColumn F cls r c with
  | none =>
      rw [hset] at hkey
      exact absurd rfl hkey
  | some o =>
      rw [hset] at hkey
      refine ⟨by_contra fun hne => hkey (Function.update_of_ne hne _ _), ?_⟩
      rw [setOfColumn] at hset
      split at hset
      · refine ⟨‹_›, ?_⟩
        cases hivar : getInstanceVariable cls.chain c with
        | none => simp [hivar] at hset
        | some ivar => rfl
      · cases hset

/-- What a model read holds and a new one does not, a column set. -/
theorem executeResult_other {insts : List Instance}
    (h : executeResult F cls names rows = .ok insts) :
    ∀ inst ∈ insts, ∀ key, inst key ≠ F.init cls key → key ∈ names ∧ SetsOwn F cls key := by
  intro inst hinst
  obtain ⟨r, -, hread⟩ := Loop.of_mapM_ok h inst hinst
  refine Loop.foldlM_invariant (I := fun inst => ∀ key, inst key ≠ F.init cls key →
    key ∈ names ∧ SetsOwn F cls key) (fun s c hc s' hs hstep key hkey => ?_) (by simp) hread
  by_cases hsame : s' key = s key
  · exact hs key (hsame ▸ hkey)
  · obtain ⟨rfl, hown⟩ := readColumn_other hstep hsame
    exact ⟨hc, hown⟩

/-! ### `query:` -/

variable {R : Runtime} {db : Db} {T : String}

/-- The rows that `query:` reads: those of the table, unless its name is blank. -/
def queriedRows (db : Db) (T : String) : List Row :=
  if checkStringIsEmpty T then [] else ((db (fold T)).map Table.rows).getD []

/-- The names of the columns of a table that may not be there. -/
def queriedColumns (db : Db) (T : String) : List String :=
  ((db (fold T)).map fun tbl => tbl.columns.map (·.1)).getD []

/-- The statement of `query:`. -/
theorem createSelectSQLWithParams_all (hT : cls.getTableName = some T)
    (hblank : checkStringIsEmpty T = false) :
    createSelectSQLWithParams R { tableClass := some cls, toClass := some cls } =
      .ok (some ("select * from " ++ (T ++ " "), [])) := by
  have hmain : mainTableName { tableClass := some cls, toClass := some cls } = some T := by
    simp [mainTableName, hT]
  have hreplace : replaceTableName "select * from @t" T = "select * from " ++ (T ++ " ") := by
    have hrun : ∀ str : List Char, replaceOccurrences " @t ".toList str 0
        "select * from @t ".toList = "select * from".toList ++ str := fun str => by
      have h : replaceOccurrences " @t ".toList str 0 "select * from @t ".toList =
          "select * from".toList ++ (str ++ []) := rfl
      rw [h, List.append_nil]
    have hfrom : "select * from " = "select * from" ++ " " := by decide
    rw [replaceTableName, if_pos (by decide)]
    show String.ofList (replaceOccurrences " @t ".toList _ 0 "select * from @t ".toList) = _
    rw [hrun, ← String.toList_append, String.ofList_toList, hfrom, String.append_assoc]
  simp only [createSelectSQLWithParams, hmain, hblank]
  exact congrArg (fun sql => Except.ok (some (sql, []))) hreplace

theorem queryBaseWithParams_all (hT : cls.getTableName = some T) (hN : Name T) :
    queryBaseWithParams R { tableClass := some cls, toClass := some cls } db =
      (.ok (queriedRows db T), db) := by
  cases hblank : checkStringIsEmpty T with
  | true =>
      have hmain : mainTableName { tableClass := some cls, toClass := some cls } = some T := by
        simp [mainTableName, hT]
      have hnone : createSelectSQLWithParams R { tableClass := some cls, toClass := some cls } =
          .ok none := by
        simp only [createSelectSQLWithParams, hmain, hblank]
        rfl
      rw [queryBaseWithParams, hnone, queriedRows, if_pos hblank]
      rfl
  | false =>
      have hclause : IsClause " " [] := ⟨by decide, by decide, by simp⟩
      rw [queryBaseWithParams, createSelectSQLWithParams_all hT hblank, queriedRows,
        if_neg (by simp [hblank])]
      show executeQuery R _ [] db = _
      rw [executeQuery, prepare_query hN hclause]
      cases htbl : db (fold T) <;> simp [Stmt.params, Sql.select, selectRows, Sql.bind, satisfies,
        htbl]

/-- **`query:`** reads the rows of the table. -/
theorem query_run (hT : cls.getTableName = some T) (hN : Name T) :
    query F R cls db =
      (executeResult F cls (queriedColumns db T) (queriedRows db T), db) := by
  rw [query, Action.bind_ok (queryBaseWithParams_all hT hN), hT]
  rfl

/-! ### The demo's classes -/

def demoNumber (digits : List Char) : NSNumber :=
  .integer (Int.ofNat (digits.foldl (fun n c => 10 * n + (c.toNat - 48)) 0))

/-- An object from its class and its state, as the demo archives it. -/
def demoObject (cls state : List Char) : Obj :=
  let name := String.ofList cls
  if name = "NSNumber" then .number (demoNumber state)
  else if name = "NSString" then .string name (String.ofList state)
  else .other name (String.ofList state)

/-- The classes of Foundation that the demo names, its own, and the archives of `demoRuntime`. -/
def demoFoundation : Foundation where
  classExists c := decide (c ∈ ["NSString", "NSNumber", "NSArray", "NSDictionary", "NSData",
    "NSDate", "UIColor", "UIImage", "User", "Book"])
  isSubclassOfClass c d := c == d
  isKindOfClass o c :=
    match o with
    | .number _ => c == "NSNumber"
    | .string _ _ => c == "NSString"
    | .data _ => c == "NSData"
    | .date _ => c == "NSDate"
    | .other cls _ => c == cls && cls != "NSString"
    | .null => c == "NSNull"
  respondsToSelector cls s := (properties cls.chain).any (·.getter == s)
  init _ _ := none
  unarchiveObjectWithData b :=
    let text := b.map fun c => Char.ofNat c.toNat
    if "bplist00".toList <+: text then
      let body := text.drop 8
      some (some (demoObject (body.takeWhile (· ≠ ':')) ((body.dropWhile (· ≠ ':')).drop 1)))
    else none
  number _ o :=
    match o with
    | .number n => n
    | .string _ s => demoNumber s.toList
    | _ => .integer 0
  structFromString _ _ := none
  scalar_no_class := by decide
  subclass_self _ := by simp
  kind_of_string c o hc ho := by
    obtain rfl : c = "NSString" := by simpa using hc
    cases o with
    | string cls s => exact ⟨cls, s, rfl⟩
    | other cls state =>
        obtain ⟨h, hne⟩ := Bool.and_eq_true_iff.mp ho
        simp [← of_decide_eq_true h] at hne
    | _ => simp at ho
  no_empty_archive o := by simp

end NBDataBase
