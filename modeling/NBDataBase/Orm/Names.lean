import NBDataBase.Lib.Occurrences
import NBDataBase.Orm.Objects

/-!
# Orm — names and types

`NBDBNameHelper` and `NBDBHelper`: the column name and the column type of a property, and the
markers in its name.

* `columnNameFromPropertyName`, `isColumn`, `isPrimaryKey`, `columnTypeStringWithDataType`,
  `getPrimaryKeys`: from the source.
* `columnTypeStringWithDataType_mem`: the column types are four.
* `isStored`, `storedProperties`: the properties `createTableSQL` makes columns of.
-/

namespace NBDataBase
open Occurrences

/-! ### Markers -/

def nonColumnIdentify : String := "_non_"
def primaryKeyIdentify : String := "_pk_"
def notnullIdentify : String := "_notnull_"
def dfltValueIdentify : String := "_dflt_value_"

/-- `rangeOfString:` finds `part`. -/
def hasSubstring (s part : String) : Bool := decide (part.toList <:+: s.toList)

def isColumn (name : String) : Bool := !hasSubstring name nonColumnIdentify

def isPrimaryKey (name : String) : Bool := hasSubstring name primaryKeyIdentify

/-- Only letters are the lower case of another character. -/
theorem toLower_eq {c d : Char} (hd : d.val.toNat < 97) (h : c.toLower = d) : c = d := by
  unfold Char.toLower at h
  split at h
  · rename_i hup
    have hlow : 65 ≤ c.val.toNat := UInt32.le_iff_toNat_le.mp hup.1
    have hhigh : c.val.toNat ≤ 90 := UInt32.le_iff_toNat_le.mp hup.2
    have hval : (c.val.toNat + 32) % 2 ^ 32 = d.val.toNat :=
      congrArg (fun d : Char => d.val.toNat) h
    omega
  · exact h

/-- Replace the occurrences of `part` by `str`, ignoring case, from the left; `skip` characters of
an occurrence are still to go. -/
def replaceOccurrences (part str : List Char) : ℕ → List Char → List Char
  | _, [] => []
  | skip + 1, _ :: cs => replaceOccurrences part str skip cs
  | 0, c :: cs =>
      if part ≠ [] ∧ part.map Char.toLower <+: (c :: cs).map Char.toLower then
        str ++ replaceOccurrences part str (part.length - 1) cs
      else c :: replaceOccurrences part str 0 cs

theorem replaceOccurrences_eq (part str : List Char) (n : ℕ) (s : List Char) :
    replaceOccurrences part str n s = replaced Char.toLower part str n s := by
  induction s generalizing n with
  | nil => cases n <;> rfl
  | cons c s ih =>
      cases n with
      | zero =>
          simp only [replaceOccurrences, replaced, ih, Starts]
          rfl
      | succ n => exact ih n

/-- `replaceOccurrencesOfString:withString:options:range:` with the empty string, ignoring case,
on the range that leaves out the last character. -/
def removeMarker (part : String) (s : List Char) : List Char :=
  replaceOccurrences part.toList [] 0 s.dropLast ++ s.getLast?.toList

def columnNameFromPropertyName (propertyName : String) : String :=
  let muStr := '_' :: propertyName.toList
  let muStr := removeMarker primaryKeyIdentify muStr
  let muStr := removeMarker notnullIdentify muStr
  let muStr := removeMarker dfltValueIdentify muStr
  String.ofList muStr

example : columnNameFromPropertyName "_pk__notnull_userId" = "_userId" := by decide

/-! ### Types -/

/-- The class name of an object encoding: what stands between the quotes, without protocols. -/
def classNameOfEncoding (type : List Char) : String :=
  String.ofList (((type.drop 2).take (type.length - 3)).takeWhile (· ≠ '<'))

/-- The column type of a type encoding; `none` is a type that is not stored. -/
def columnTypeStringWithDataType (type : String) : Option String :=
  match type.toList.head? with
  | none => none
  | some c =>
      if c ∈ ['i', 's', 'l', 'q', 'I', 'S', 'L', 'Q', 'f', 'd', 'B'] then some "NUMERIC"
      else if c ∈ ['c', 'C'] then some "CHAR"
      else if c = '*' then some "VARCHAR"
      else if c = '@' then
        if type.length ≥ 3 then
          let name := classNameOfEncoding type.toList
          if name = "NSString" then some "VARCHAR"
          else if name = "NSData" then some "BLOB"
          else some "BLOB"
        else none
      else none

/-- The column types are four. -/
theorem columnTypeStringWithDataType_mem {type t : String}
    (h : columnTypeStringWithDataType type = some t) :
    t ∈ ["NUMERIC", "CHAR", "VARCHAR", "BLOB"] := by
  simp only [columnTypeStringWithDataType] at h
  split at h
  · cases h
  · repeat' split at h
    all_goals first | (cases h; simp) | cases h

def getPrimaryKeys (chain : List ClassDecl) : List String :=
  ((properties chain).filter fun p => isPrimaryKey p.name).map fun p =>
    columnNameFromPropertyName p.name

/-! ### Properties -/

namespace Property

def column (p : Property) : String := columnNameFromPropertyName p.name

def columnType (p : Property) : Option String := columnTypeStringWithDataType p.typeEncoding

/-- `CREATE TABLE` makes a column of the property. -/
def isStored (p : Property) : Bool := isColumn p.name && p.columnType.isSome

end Property

end NBDataBase
