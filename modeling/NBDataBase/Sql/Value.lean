import NBDataBase.Sql.Statement

/-!
# SQL — values and affinity

SQLite's storage classes, the affinity of a declared type, and the comparison of a column with a
parameter.

* `Value`: NULL, a 64-bit integer or a double, a text, a blob.  There is no NaN: SQLite stores it
  as NULL.
* `Affinity.apply`: what a column stores of a value.  The readings of a text as a number and of a
  number as a text are SQLite's own, `Conversions`.
* `Value.equals`: SQL equality; NULL equals nothing.
* `equals_stored`: a stored value is found by the value that was stored, unless it is NULL.
-/

namespace Sql

/-- A double that is no NaN. -/
inductive Double where
  | finite (q : ℚ)
  | infinite (negative : Bool)
  deriving DecidableEq

inductive Number where
  | int (n : Int64)
  | real (x : Double)
  deriving DecidableEq

inductive Value where
  | null
  | num (n : Number)
  | text (s : String)
  | blob (bytes : List UInt8)
  deriving DecidableEq

instance : Nontrivial Value := ⟨.null, .blob [], by simp⟩

/-- How SQLite reads a text as a number and writes a number as a text, and the double nearest to
an integer. -/
structure Conversions where
  ofText : String → Option Number
  toText : Number → String
  toDouble : Int64 → Double

/-! ### Affinity -/

inductive Affinity where
  | text | numeric | integer | real | blob
  deriving DecidableEq, Repr

/-- SQLite's rule for the affinity of a declared type. -/
def affinityOf (type : String) : Affinity :=
  let has (part : String) : Bool := decide (part.toList <:+: (fold type).toList)
  if has "int" then .integer
  else if has "char" || has "clob" || has "text" then .text
  else if has "blob" || type == "" then .blob
  else if has "real" || has "floa" || has "doub" then .real
  else .numeric

/-- An integral double inside the range of integers is stored as an integer. -/
def Number.norm : Number → Number
  | .real (.finite q) =>
      if q.den = 1 ∧ -2 ^ 63 < q.num ∧ q.num < 2 ^ 63 - 1 then .int (Int64.ofInt q.num)
      else .real (.finite q)
  | n => n

section

variable (conv : Conversions)

namespace Affinity

def applyNumeric : Value → Value
  | .num n => .num n.norm
  | .text s =>
      match conv.ofText s with
      | some n => .num n.norm
      | none => .text s
  | v => v

/-- What a column of the affinity stores. -/
def apply : Affinity → Value → Value
  | .text, .num n => .text (conv.toText n)
  | .text, v => v
  | .blob, v => v
  | .real, v =>
      match applyNumeric conv v with
      | .num (.int n) => .num (.real (conv.toDouble n))
      | v => v
  | .numeric, v => applyNumeric conv v
  | .integer, v => applyNumeric conv v

/-- The affinity a column lends to a parameter it is compared with. -/
def ofComparison : Affinity → Affinity
  | .text => .text
  | .blob => .blob
  | _ => .numeric

end Affinity

end

/-! ### Equality -/

/-- Numbers are compared as numbers. -/
def Number.equals : Number → Number → Bool
  | .int m, .int n => m == n
  | .int m, .real (.finite q) => decide ((m.toInt : ℚ) = q)
  | .real (.finite q), .int m => decide ((m.toInt : ℚ) = q)
  | .real x, .real y => decide (x = y)
  | _, _ => false

/-- SQL equality. -/
def Value.equals : Value → Value → Bool
  | .num m, .num n => m.equals n
  | .text s, .text t => s == t
  | .blob a, .blob b => a == b
  | _, _ => false

@[simp] theorem Number.equals_self (n : Number) : n.equals n = true := by
  rcases n with n | (q | b) <;> simp [Number.equals]

@[simp] theorem Value.equals_null_left (v : Value) : Value.null.equals v = false := by
  cases v <;> rfl

@[simp] theorem Value.equals_null_right (v : Value) : v.equals .null = false := by
  cases v <;> rfl

theorem Value.equals_self {v : Value} (h : v ≠ .null) : v.equals v = true := by
  cases v <;> simp_all [Value.equals]

theorem Number.equals_comm (m n : Number) : m.equals n = n.equals m := by
  rcases m with m | (q | b) <;> rcases n with n | (r | d) <;>
    simp [Number.equals, eq_comm, Bool.beq_comm]

theorem Value.equals_comm (v w : Value) : v.equals w = w.equals v := by
  cases v <;> cases w <;> simp [Value.equals, Number.equals_comm, Bool.beq_comm]

theorem Number.equals_trans {k m n : Number} (h : k.equals m = true) (h' : m.equals n = true) :
    k.equals n = true := by
  rcases k with k | (p | a) <;> rcases m with m | (q | b) <;> rcases n with n | (r | d) <;>
    simp_all [Number.equals]
  -- two integers equal to one double
  exact Int64.toInt.inj (by exact_mod_cast h.trans h'.symm)

theorem Value.equals_trans {u v w : Value} (h : u.equals v = true) (h' : v.equals w = true) :
    u.equals w = true := by
  cases u <;> cases v <;> cases w <;> simp_all [Value.equals]
  exact Number.equals_trans h h'

/-- Equal values are of one storage class. -/
theorem Value.equals_blob {v : Value} {b : List UInt8} (h : v.equals (.blob b) = true) :
    v = .blob b := by
  cases v <;> simp_all [Value.equals]

variable {conv : Conversions}

@[simp] theorem Affinity.apply_null (a : Affinity) : a.apply conv .null = .null := by
  cases a <;> rfl

@[simp] theorem Affinity.apply_blob (a : Affinity) (b : List UInt8) :
    a.apply conv (.blob b) = .blob b := by
  cases a <;> rfl

theorem Affinity.applyNumeric_eq_null {v : Value} : applyNumeric conv v = .null ↔ v = .null := by
  cases v with
  | text s => simp only [applyNumeric]; split <;> simp
  | _ => simp [applyNumeric]

/-- Affinity makes no value NULL. -/
theorem Affinity.apply_eq_null {a : Affinity} {v : Value} :
    a.apply conv v = .null ↔ v = .null := by
  cases a with
  | text => cases v <;> simp [apply]
  | blob => rfl
  | numeric => exact applyNumeric_eq_null
  | integer => exact applyNumeric_eq_null
  | real =>
      refine Iff.trans ?_ (applyNumeric_eq_null : applyNumeric conv v = .null ↔ v = .null)
      simp only [apply]
      split <;> simp_all

/-- A column that is not `REAL` lends a parameter what it stores of it. -/
theorem Affinity.apply_ofComparison {a : Affinity} (h : a ≠ .real) (v : Value) :
    a.ofComparison.apply conv v = a.apply conv v := by
  cases a <;> first | rfl | exact absurd rfl h

/-- **A stored value is found** by the value that was stored, unless that is NULL. -/
theorem equals_stored {a : Affinity} (ha : a ≠ .real) {v : Value} (hv : v ≠ .null) :
    (a.apply conv v).equals (a.ofComparison.apply conv v) = true := by
  rw [Affinity.apply_ofComparison ha]
  exact Value.equals_self fun h => hv (Affinity.apply_eq_null.mp h)

end Sql
