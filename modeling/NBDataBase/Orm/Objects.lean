import NBDataBase.Sql.Unread

/-!
# Orm — objects, classes and models

The part of the Objective-C runtime and of Foundation that the statement helpers use.

* `Obj`: the objects that key-value coding hands out and FMDB binds.  `bindObject`: what FMDB
  binds of one.
* `ModelClass`: the classes from a model class up to below `NSObject`, each with its properties
  and instance variables; `visits` is the walk of the helpers over them.
* `Model`: an object of such a class.  Key-value coding finds every instance variable.
* `Runtime`: the functions of Foundation and SQLite that stay parameters, and whether assertions
  are compiled in.
-/

namespace NBDataBase

/-! ### Objects -/

/-- An `NSNumber`.  A double may be NaN (`none`). -/
inductive NSNumber where
  | integer (n : ℤ)
  | double (x : Option Sql.Double)
  deriving DecidableEq

/-- An object: `NSNull`, an `NSNumber`, a string of `NSString` or of a subclass, an `NSData`, an
`NSDate`, or an object of another class. -/
inductive Obj where
  | null
  | number (n : NSNumber)
  | string (cls text : String)
  | data (bytes : List UInt8)
  | date (timeIntervalSince1970 : Option Sql.Double)
  | other (cls state : String)
  deriving DecidableEq

/-- `isKindOfClass:[NSData class]`. -/
def Obj.isData : Obj → Bool
  | data _ => true
  | _ => false

/-- Foundation and SQLite, as far as the source does not say. -/
structure Runtime where
  conv : Sql.Conversions
  /-- SQLite on the texts outside the fragment. -/
  sqlite : Sql.Unread conv
  /-- `+[NSKeyedArchiver archivedDataWithRootObject:]`, of objects that can be archived: it raises
  for the others. -/
  archivedData : Obj → List UInt8
  description : Obj → String
  lowercaseString : String → String
  /-- `assert` and `NSAssert` are compiled in. -/
  asserts : Bool

/-- The bytes of an ASCII text. -/
def asciiBytes (s : String) : List UInt8 := s.toList.map fun c => UInt8.ofNat c.toNat

/-- Foundation and SQLite on what the demo stores: ASCII names, decimal numbers, and objects whose
archives hold their state.  It executes the statements of the fragment. -/
def demoRuntime : Runtime where
  conv :=
    { ofText s := if s.toList ≠ [] ∧ s.toList.all Char.isDigit then
        some (.int (Int64.ofNat (s.toList.foldl (fun n c => 10 * n + (c.toNat - 48)) 0))) else none
      toText n :=
        match n with
        | .int n => toString n.toInt
        | .real (.finite q) => toString q.num ++ (if q.den = 1 then ".0" else "/" ++ toString q.den)
        | .real (.infinite negative) => if negative then "-Inf" else "Inf"
      toDouble n := .finite n.toInt }
  sqlite := .none _
  archivedData o := asciiBytes "bplist00" ++
    match o with
    | .string cls text => asciiBytes (cls ++ ":" ++ text)
    | .other cls state => asciiBytes (cls ++ ":" ++ state)
    | .number (.integer n) => asciiBytes ("NSNumber:" ++ toString n)
    | _ => []
  description o :=
    match o with
    | .other _ state => state
    | _ => ""
  lowercaseString := Sql.fold
  asserts := false

/-- A C string ends at its first NUL. -/
def cString (s : String) : String := String.ofList (s.toList.takeWhile (· ≠ '\x00'))

/-- `sqlite3_bind_double`: NaN is bound as NULL. -/
def bindDouble : Option Sql.Double → Sql.Value
  | some x => .num (.real x)
  | none => .null

/-- `-[FMDatabase bindObject:toColumn:inStatement:]`.  An unsigned 64-bit number is bound as the
signed one with its bits. -/
def bindObject (R : Runtime) : Obj → Sql.Value
  | .null => .null
  | .data b => .blob b
  | .date t => bindDouble t
  | .number (.integer n) => .num (.int (Int64.ofInt n))
  | .number (.double x) => bindDouble x
  | .string _ s => .text (cString s)
  | .other cls state => .text (cString (R.description (.other cls state)))

/-- Only an `NSData` is bound as a blob. -/
theorem bindObject_ne_blob (R : Runtime) {o : Obj} (h : o.isData = false) (b : List UInt8) :
    bindObject R o ≠ .blob b := by
  cases o with
  | data => cases h
  | number n =>
      rcases n with n | x
      · simp [bindObject]
      · cases x <;> simp [bindObject, bindDouble]
  | date t => cases t <;> simp [bindObject, bindDouble]
  | _ => simp [bindObject]

/-! ### Classes -/

/-- A declared property: its name, its type encoding (attribute `T`) and its getter. -/
structure Property where
  name : String
  typeEncoding : String
  getter : String
  deriving DecidableEq

structure Ivar where
  name : String
  typeEncoding : String
  deriving DecidableEq

/-- What one class of a hierarchy adds. -/
structure ClassDecl where
  name : String
  properties : List Property
  ivars : List Ivar

/-- A subclass of `NBBaseDBTableModel`: the classes from it up to below `NSObject`, and what its
`getTableName` returns.  An instance variable has a C identifier as its name. -/
structure ModelClass where
  chain : List ClassDecl
  getTableName : Option String
  ivar_word : ∀ d ∈ chain, ∀ iv ∈ d.ivars, Sql.Word iv.name

/-- `b` is `c` or one of its ancestors. -/
def ModelClass.IsAncestor (b c : ModelClass) : Prop := b.chain <:+ c.chain

/-- The loops over `class_copyPropertyList` and `class_getSuperclass`: each property, with the
class that declares it and its superclasses. -/
def visits : List ClassDecl → List (List ClassDecl × Property)
  | [] => []
  | d :: ds => d.properties.map (fun p => (d :: ds, p)) ++ visits ds

/-- The properties of a hierarchy, as the loops meet them. -/
def properties (chain : List ClassDecl) : List Property := chain.flatMap ClassDecl.properties

theorem visits_snd (chain : List ClassDecl) : (visits chain).map (·.2) = properties chain := by
  induction chain with
  | nil => rfl
  | cons d ds ih => simp [visits, properties, ih, Function.comp_def]

/-- A visit sees its own class and what is above it. -/
theorem visits_suffix {chain : List ClassDecl} {v : List ClassDecl × Property}
    (h : v ∈ visits chain) : v.1 <:+ chain := by
  induction chain with
  | nil => cases h
  | cons d ds ih =>
      rcases List.mem_append.mp h with h | h
      · obtain ⟨p, -, rfl⟩ := List.mem_map.mp h
        exact List.suffix_rfl
      · exact (ih h).trans (List.suffix_cons d ds)

/-- `class_getInstanceVariable`. -/
def getInstanceVariable (chain : List ClassDecl) (name : String) : Option Ivar :=
  (chain.flatMap ClassDecl.ivars).find? fun iv => iv.name = name

theorem getInstanceVariable_name {chain : List ClassDecl} {name : String} {iv : Ivar}
    (h : getInstanceVariable chain name = some iv) : iv.name = name := by
  simpa using List.find?_some h

/-! ### Faults and models -/

/-- How a call ends when it does not return: an argument Foundation rejects (`nil` or `NULL`), a
key that key-value coding does not know, or a failed assertion. -/
inductive Fault where
  | invalidArgument | undefinedKey | assertion
  deriving DecidableEq, Repr

/-- An object of a model class, by what `valueForKey:` answers; `none` is
`NSUndefinedKeyException` and `some none` is nil. -/
structure Model where
  cls : ModelClass
  valueForKey? : String → Option (Option Obj)
  ivar_known : ∀ d ∈ cls.chain, ∀ iv ∈ d.ivars, (valueForKey? iv.name).isSome

/-- `valueForKey:`. -/
def Model.valueForKey (m : Model) (key : String) : Except Fault (Option Obj) :=
  match m.valueForKey? key with
  | some v => .ok v
  | none => .error .undefinedKey

/-- The value of a key, nil when there is none. -/
def Model.value (m : Model) (key : String) : Option Obj := (m.valueForKey? key).join

theorem Model.valueForKey_of_ivar {m : Model} {name : String} {iv : Ivar}
    (h : getInstanceVariable m.cls.chain name = some iv) :
    m.valueForKey name = .ok (m.value name) := by
  obtain ⟨d, hd, hiv⟩ := List.mem_flatMap.mp (List.mem_of_find?_eq_some h)
  obtain ⟨v, hv⟩ := Option.isSome_iff_exists.mp (m.ivar_known d hd iv hiv)
  rw [getInstanceVariable_name h] at hv
  simp [valueForKey, value, hv]

theorem getInstanceVariable_isSome {chain : List ClassDecl} {d : ClassDecl} (hd : d ∈ chain)
    {iv : Ivar} (hiv : iv ∈ d.ivars) : (getInstanceVariable chain iv.name).isSome := by
  rw [getInstanceVariable, List.find?_isSome]
  exact ⟨iv, List.mem_flatMap.mpr ⟨d, hd, hiv⟩, by simp⟩

/-- A model whose keys are its instance variables. -/
def Model.ofIvars (cls : ModelClass) (values : String → Option Obj) : Model where
  cls := cls
  valueForKey? key :=
    if (getInstanceVariable cls.chain key).isSome then some (values key) else none
  ivar_known d hd iv hiv := by rw [if_pos (getInstanceVariable_isSome hd hiv)]; rfl

end NBDataBase
