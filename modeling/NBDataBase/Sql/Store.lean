import NBDataBase.Lib.Keyed
import NBDataBase.Sql.Engine

/-!
# SQL — a table as a keyed store

The primary key of a row as a value that equal keys share, and a table as the map it stands for.

* `Value.canonical`: equal values have one; NULL has none.
* `Table.keyOf`: the key of a row.  `sameKey_iff`: two rows clash when they have one key.
* `Table.store`: the map of a table.
-/

namespace Sql

/-! ### Values -/

/-- The number as a double. -/
def Number.double : Number → Double
  | .int n => .finite n.toInt
  | .real x => x

theorem Number.equals_iff (m n : Number) : m.equals n = true ↔ m.double = n.double := by
  rcases m with m | (p | a) <;> rcases n with n | (q | b) <;>
    simp [Number.equals, Number.double, Int64.toInt_inj]
  exact eq_comm

namespace Value

/-- What equal values have in common.  NULL equals nothing. -/
def canonical : Value → Option Value
  | null => none
  | num n => some (.num (.real n.double))
  | v => some v

theorem equals_iff (v w : Value) :
    v.equals w = true ↔ ∃ k, v.canonical = some k ∧ w.canonical = some k := by
  cases v <;> cases w <;> simp [equals, canonical, Number.equals_iff]
  all_goals exact eq_comm

end Value

/-! ### Keys -/

namespace Table

/-- The values of a row in some columns, if none is NULL. -/
def keyIn (r : Row) : List String → Option (List Value)
  | [] => some []
  | c :: cs => (r (fold c)).canonical.bind fun k => (keyIn r cs).map (k :: ·)

/-- The primary key of a row. -/
def keyOf (tbl : Table) (r : Row) : Option (List Value) :=
  if tbl.primaryKey.isEmpty then none else keyIn r tbl.primaryKey

theorem keyIn_iff (r r' : Row) (cs : List String) :
    (cs.all fun c => (r (fold c)).equals (r' (fold c))) = true ↔
      ∃ k, keyIn r cs = some k ∧ keyIn r' cs = some k := by
  induction cs with
  | nil => simp [keyIn]
  | cons c cs ih =>
      rw [List.all_cons, Bool.and_eq_true, ih, Value.equals_iff]
      constructor
      · rintro ⟨⟨k, hk, hk'⟩, ks, hks, hks'⟩
        exact ⟨k :: ks, by simp [keyIn, hk, hks], by simp [keyIn, hk', hks']⟩
      · rintro ⟨l, hl, hl'⟩
        obtain ⟨k, hk, hl⟩ := Option.bind_eq_some_iff.mp hl
        obtain ⟨ks, hks, rfl⟩ := Option.map_eq_some_iff.mp hl
        obtain ⟨k', hk', hl'⟩ := Option.bind_eq_some_iff.mp hl'
        obtain ⟨ks', hks', heq⟩ := Option.map_eq_some_iff.mp hl'
        obtain ⟨rfl, rfl⟩ := List.cons.inj heq
        exact ⟨⟨k', hk, hk'⟩, ks', hks, hks'⟩

/-- **Two rows clash** when they have one key. -/
theorem sameKey_iff (tbl : Table) (r r' : Row) :
    tbl.sameKey r r' = true ↔ ∃ k, tbl.keyOf r = some k ∧ tbl.keyOf r' = some k := by
  rw [sameKey, Bool.and_eq_true, keyIn_iff]
  by_cases hempty : tbl.primaryKey.isEmpty = true
  · simp [keyOf, hempty]
  · simp [keyOf, hempty]

theorem sameKey_of_keyOf {tbl : Table} {r : Row} {k : List Value} (hr : tbl.keyOf r = some k)
    (r' : Row) : tbl.sameKey r r' = decide (tbl.keyOf r' = some k) := by
  rw [Bool.eq_iff_iff, sameKey_iff, decide_eq_true_iff, hr]
  constructor
  · rintro ⟨j, hj, hj'⟩
    rw [hj', hj]
  · exact fun h => ⟨k, rfl, h⟩

/-- Rows that agree in the key columns have one key. -/
theorem keyOf_congr {tbl : Table} {r r' : Row}
    (h : ∀ c ∈ tbl.primaryKey, r (fold c) = r' (fold c)) : tbl.keyOf r = tbl.keyOf r' := by
  have hin : ∀ cs : List String, (∀ c ∈ cs, r (fold c) = r' (fold c)) →
      keyIn r cs = keyIn r' cs := by
    intro cs hcs
    induction cs with
    | nil => rfl
    | cons c cs ih =>
        rw [keyIn, keyIn, hcs c List.mem_cons_self, ih fun c hc => hcs c (.tail _ hc)]
  rw [keyOf, keyOf, hin _ h]

/-- The primary key constraint: no two rows have one key. -/
theorem unique_iff (tbl : Table) : tbl.Unique ↔ Keyed.Distinct tbl.keyOf tbl.rows := by
  refine List.Pairwise.iff fun {r r'} => ?_
  rw [← Bool.not_eq_true, sameKey_iff]
  simp

/-- The rows of a table by their keys. -/
def store (tbl : Table) : Keyed.Store (List Value) Row := Keyed.view tbl.keyOf tbl.rows

/-- The rows without a key. -/
def keyless (tbl : Table) : List Row := Keyed.keyless tbl.keyOf tbl.rows

end Table

end Sql
