import NBDataBase.Orm.RoundTrip

/-!
# Orm — integers written and read

Whether a property of an integer type comes back at every value of its range.

* `IntegerType`: the types, by their encodings, with the values they hold.
* `Numerals`: what Foundation and SQLite document of integers and of their decimal texts.
* `storedCell_integer`: a `char` is stored as a text, every other type as the signed integer with
  the bits of the value.
* `integer_comesBack`: the message for the type turns what is stored into the value.
* `integer_survives_iff`: the value survives exactly when the model is stored and its other columns
  are read.
-/

namespace NBDataBase
open Sql (fold Name Db Value affinityOf)

/-! ### Integer types -/

inductive IntegerType where
  | char | unsignedChar | short | unsignedShort | int | unsignedInt | long | unsignedLong
  | longLong | unsignedLongLong | bool
  deriving DecidableEq

namespace IntegerType

def typeEncoding : IntegerType → String
  | char => "c"
  | unsignedChar => "C"
  | short => "s"
  | unsignedShort => "S"
  | int => "i"
  | unsignedInt => "I"
  | long => "l"
  | unsignedLong => "L"
  | longLong => "q"
  | unsignedLongLong => "Q"
  | bool => "B"

/-- The least value. -/
def least : IntegerType → ℤ
  | char => -2 ^ 7
  | short => -2 ^ 15
  | int => -2 ^ 31
  | long => -2 ^ 63
  | longLong => -2 ^ 63
  | _ => 0

/-- The number after the greatest value. -/
def bound : IntegerType → ℤ
  | char => 2 ^ 7
  | unsignedChar => 2 ^ 8
  | short => 2 ^ 15
  | unsignedShort => 2 ^ 16
  | int => 2 ^ 31
  | unsignedInt => 2 ^ 32
  | long => 2 ^ 63
  | unsignedLong => 2 ^ 64
  | longLong => 2 ^ 63
  | unsignedLongLong => 2 ^ 64
  | bool => 2

/-- The value belongs to the type. -/
def Holds (t : IntegerType) (n : ℤ) : Prop := t.least ≤ n ∧ n < t.bound

instance (t : IntegerType) (n : ℤ) : Decidable (t.Holds n) := inferInstanceAs (Decidable (_ ∧ _))

/-- The column of the type is a `CHAR`. -/
def isText : IntegerType → Bool
  | char => true
  | unsignedChar => true
  | _ => false

/-- The type is read by an unsigned message. -/
def isUnsigned : IntegerType → Bool
  | unsignedShort => true
  | unsignedInt => true
  | unsignedLong => true
  | unsignedLongLong => true
  | _ => false

/-- The class string of the type. -/
def classString : IntegerType → String
  | short => "short"
  | int => "int"
  | long => "long"
  | longLong => "long long"
  | unsignedShort => "unsigned long"
  | unsignedInt => "unsigned long"
  | unsignedLong => "unsigned long"
  | unsignedLongLong => "unsigned long long"
  | _ => "char"

theorem columnType_eq (t : IntegerType) :
    columnTypeStringWithDataType t.typeEncoding =
      some (if t.isText then "CHAR" else "NUMERIC") := by
  cases t <;> rfl

theorem classString_eq (t : IntegerType) :
    classStringWithDataType t.typeEncoding = some t.classString := by
  cases t <;> rfl

theorem classString_scalar (t : IntegerType) : t.classString ∈ scalarStrings := by
  cases t <;> decide

/-- The class string is found among the integer types and not among the others. -/
theorem classString_integer (t : IntegerType) :
    rangeOfString floatTypes t.classString = false ∧
      rangeOfString integerTypes t.classString = true := by
  cases t <;> decide +kernel

/-- An unsigned type is asked for by an unsigned message. -/
theorem message_unsigned {t : IntegerType} (h : t.isUnsigned = true) :
    integerMessage t.classString ∈ [.unsignedLongValue, .unsignedLongLongValue] := by
  cases t <;> first | (cases h; done) | decide

theorem message_signed {t : IntegerType} (h : t.isUnsigned = false) :
    integerMessage t.classString ∈ [.longValue, .longLongValue, .integerValue] := by
  cases t <;> first | (cases h; done) | decide

theorem message_text {t : IntegerType} (h : t.isText = true) :
    t.isUnsigned = false ∧ integerMessage t.classString = .integerValue := by
  cases t <;> first | (cases h; done) | decide

/-- A type that no unsigned message reads holds signed 64-bit values only. -/
theorem Holds.signed {t : IntegerType} {n : ℤ} (h : t.Holds n) (hu : t.isUnsigned = false) :
    -2 ^ 63 ≤ n ∧ n < 2 ^ 63 := by
  obtain ⟨hlo, hhi⟩ := h
  cases t <;> first | (cases hu; done) | (simp only [least, bound] at hlo hhi; omega)

theorem Holds.unsigned {t : IntegerType} {n : ℤ} (h : t.Holds n) (hu : t.isUnsigned = true) :
    0 ≤ n ∧ n < 2 ^ 64 := by
  obtain ⟨hlo, hhi⟩ := h
  cases t <;> first | (cases hu; done) | (simp only [least, bound] at hlo hhi; omega)

end IntegerType

/-! ### Integers on the way -/

/-- What Foundation and SQLite document of integers and of their decimal texts. -/
structure Numerals (F : Foundation) (R : Runtime) : Prop where
  signed : ∀ message ∈ [Message.longValue, .longLongValue, .integerValue], ∀ n : Int64,
    F.number message (.number (.integer n.toInt)) = .integer n.toInt
  unsigned : ∀ message ∈ [Message.unsignedLongValue, .unsignedLongLongValue], ∀ n : Int64,
    F.number message (.number (.integer n.toInt)) = .integer (n.toInt % 2 ^ 64)
  text : ∀ n : Int64, R.conv.toText (.int n) = toString n.toInt
  integerValue : ∀ cls (n : Int64),
    F.number .integerValue (.string cls (toString n.toInt)) = .integer n.toInt

theorem toInt_ofInt_of_range {n : ℤ} (h : -2 ^ 63 ≤ n ∧ n < 2 ^ 63) :
    (Int64.ofInt n).toInt = n := by
  have hsize : Int64.size = 2 ^ 64 := rfl
  rw [Int64.toInt_ofInt, hsize]
  exact Int.bmod_eq_of_le_mul_two (by omega) (by omega)

/-- The signed integer with the bits of an unsigned one. -/
theorem toInt_ofInt_emod {n : ℤ} (h : 0 ≤ n ∧ n < 2 ^ 64) :
    (Int64.ofInt n).toInt % 2 ^ 64 = n := by
  rw [Int64.toInt_ofInt]
  have hmod : Int.bmod n (2 ^ 64) % ((2 ^ 64 : ℕ) : ℤ) = n % ((2 ^ 64 : ℕ) : ℤ) :=
    Int.bmod_emod
  exact hmod.trans (Int.emod_eq_of_lt h.1 (by exact_mod_cast h.2))

/-- A decimal text has no NUL. -/
theorem toString_free (n : ℤ) : '\x00' ∉ (toString n).toList := by
  intro h
  rcases mem_toString h with h | h
  · exact absurd h (by decide)
  · exact absurd h (by decide)

variable {F : Foundation} {R : Runtime} {T : String} {m : Model} {p : Property} {t : IntegerType}
  {n : ℤ} {db : Db}

/-- What the table holds for an integer. -/
theorem storedCell_integer (h : p.typeEncoding = t.typeEncoding) (n : ℤ) :
    storedCell R p (.number (.integer n)) =
      if t.isText then .text (R.conv.toText (.int (Int64.ofInt n)))
      else .num (.int (Int64.ofInt n)) := by
  have hcolumn : p.columnType = some (if t.isText then "CHAR" else "NUMERIC") := by
    rw [Property.columnType, h, t.columnType_eq]
  have hencode : p.encode R (.number (.integer n)) = .number (.integer n) :=
    Property.encode_eq_self_iff.mpr fun hblob => by
      rw [hcolumn] at hblob
      split at hblob <;> exact absurd (Option.some.inj hblob) (by decide)
  have hchar : affinityOf "CHAR" = .text := by decide +kernel
  have hnumeric : affinityOf "NUMERIC" = .numeric := by decide +kernel
  rw [storedCell, hencode, hcolumn, Option.getD_some]
  split
  · rw [hchar]
    rfl
  · rw [hnumeric]
    rfl

/-- What the reader makes of an object for an integer type. -/
theorem modelValue_integer (h : p.typeEncoding = t.typeEncoding) {value : Obj}
    (hresponds : value.respondsTo (integerMessage t.classString) = true) :
    modelValue F p.typeEncoding value =
      .ok (some (.number (F.number (integerMessage t.classString) value))) := by
  have hnone : F.classExists t.classString = false := F.scalar_no_class _ t.classString_scalar
  obtain ⟨hfloat, hinteger⟩ := t.classString_integer
  simp only [modelValue, h, t.classString_eq, hnone, basicValue, hfloat, hinteger, send, hresponds]
  rfl

/-- **An integer is read back** from what the table holds for it. -/
theorem integer_comesBack (hN : Numerals F R) (h : p.typeEncoding = t.typeEncoding)
    (hn : t.Holds n) : ∃ value, objectForColumn (storedCell R p (.number (.integer n))) =
      some value ∧
      modelValue F p.typeEncoding value = .ok (some (.number (.integer n))) := by
  rw [storedCell_integer h]
  cases htext : t.isText with
  | true =>
      -- the decimal text of the value
      obtain ⟨hu, hmessage⟩ := IntegerType.message_text htext
      have hrange : (Int64.ofInt n).toInt = n := toInt_ofInt_of_range (hn.signed hu)
      refine ⟨.string "NSString" (toString n), ?_, ?_⟩
      · rw [if_pos rfl, hN.text, hrange, objectForColumn, cString_of_free (toString_free n)]
      · rw [modelValue_integer h (by rw [hmessage]; rfl), hmessage]
        have hread := hN.integerValue "NSString" (Int64.ofInt n)
        rw [hrange] at hread
        rw [hread]
  | false =>
      refine ⟨.number (.integer (Int64.ofInt n).toInt), rfl, ?_⟩
      rw [modelValue_integer h rfl]
      cases hu : t.isUnsigned with
      | true => rw [hN.unsigned _ (IntegerType.message_unsigned hu),
          toInt_ofInt_emod (hn.unsigned hu)]
      | false => rw [hN.signed _ (IntegerType.message_signed hu),
          toInt_ofInt_of_range (hn.signed hu)]

/-! ### Survival -/

/-- A value of the type of an integer property whose getter is called as its column without the
underscore. -/
structure DeclaresInteger (m : Model) (p : Property) (t : IntegerType) (n : ℤ) : Prop where
  column : isColumn p.name = true
  type : p.typeEncoding = t.typeEncoding
  getter : p.getter = selectorOfColumn p.column
  ivar : getInstanceVariable m.cls.chain p.column = some ⟨p.column, p.typeEncoding⟩
  value : m.value p.column = some (.number (.integer n))
  holds : t.Holds n

/-- **An integer survives** exactly when the model is stored and its other columns are read. -/
theorem integer_survives_iff (F : Foundation) (R : Runtime) (m : Model) (p : Property)
    (t : IntegerType) (n : ℤ) (db : Db) (h : m.cls.Valid T) (hp : p ∈ properties m.cls.chain)
    (hdeclares : DeclaresInteger m p t n) (hN : Numerals F R)
    (hgetters : ∀ q ∈ properties m.cls.chain, F.respondsToSelector m.cls q.getter = true)
    (hfresh : db (fold T) = none) :
    Survives F R m p (.number (.integer n)) db ↔ StoredAndRead F R T m p := by
  have hst : p.isStored = true := isStored_iff.mpr ⟨hdeclares.column, _, by
    rw [Property.columnType, hdeclares.type, t.columnType_eq]⟩
  have hresponds : F.respondsToSelector m.cls (selectorOfColumn p.column) = true :=
    hdeclares.getter ▸ hgetters p hp
  have hback : ComesBack F R m.cls p (.number (.integer n)) := by
    obtain ⟨value, hvalue, hread⟩ := integer_comesBack hN hdeclares.type hdeclares.holds
    refine ⟨_, ?_, Obj.isEqual_self _⟩
    rw [readBack, if_pos hresponds, hvalue]
    exact hread
  rw [survives_iff_comesBack h hp hst hdeclares.ivar hdeclares.value hfresh,
    and_iff_left hback]

/-! ### Counters -/

/-- Numbers as Foundation reads them, where the demo's are integers. -/
def wideFoundation : Foundation :=
  { demoFoundation with
    number := fun message value =>
      match message, value with
      | .unsignedLongValue, .number (.integer n) => .integer (n % 2 ^ 64)
      | .unsignedLongLongValue, .number (.integer n) => .integer (n % 2 ^ 64)
      | _, .number n => n
      | _, .string _ s => .integer (s.toInt?.getD 0)
      | _, _ => .integer 0 }

theorem wideFoundation_numerals : Numerals wideFoundation demoRuntime where
  signed message h n := by
    simp only [List.mem_cons, List.not_mem_nil, or_false] at h
    rcases h with rfl | rfl | rfl <;> rfl
  unsigned message h n := by
    simp only [List.mem_cons, List.not_mem_nil, or_false] at h
    rcases h with rfl | rfl <;> rfl
  text _ := rfl
  integerValue cls n := by
    show NSNumber.integer ((toString n.toInt).toInt?.getD 0) = _
    rw [Int.toString_eq_repr, Int.toInt?_repr, Option.getD_some]

/-- A class with an unsigned key and a character. -/
def counterClass : ModelClass where
  chain :=
    [{ name := "Counter"
       properties := [⟨"_pk_counterId", "Q", "counterId"⟩, ⟨"level", "c", "level"⟩]
       ivars := [⟨"_counterId", "Q"⟩, ⟨"_level", "c"⟩] },
      { name := "NBBaseDBTableModel", properties := [], ivars := [] }]
  getTableName := some "tb_counters"
  ivar_word := by decide

/-- A counter at the limits of both. -/
def counter : Model := .ofIvars counterClass fun key =>
  some (.number (.integer (if key = "_counterId" then 2 ^ 64 - 1 else -2 ^ 7)))

def counterId : Property := ⟨"_pk_counterId", "Q", "counterId"⟩

theorem counterClass_valid : counterClass.Valid "tb_counters" where
  table := rfl
  name := by decide +kernel
  ordinary := by decide +kernel
  columns := by decide +kernel
  distinct := by decide +kernel
  keys := by decide +kernel
  stores := by decide +kernel

/-- The greatest key of a counter survives. -/
theorem counter_survives :
    Survives wideFoundation demoRuntime counter counterId (.number (.integer (2 ^ 64 - 1)))
      fun _ => none := by
  have hkey : counterId ∈ properties counterClass.chain := by decide +kernel
  refine (integer_survives_iff (T := "tb_counters") wideFoundation demoRuntime counter counterId
    .unsignedLongLong _ _ counterClass_valid hkey ?_ wideFoundation_numerals ?_ rfl).mpr ?_
  · exact ⟨by decide +kernel, rfl, by decide +kernel, by decide +kernel, by decide +kernel,
      by decide⟩
  · show ∀ q ∈ properties counterClass.chain,
      demoFoundation.respondsToSelector counterClass q.getter = true
    decide +kernel
  · refine ⟨by decide +kernel, ?_, by decide +kernel, ?_⟩
    · unfold Storable
      decide +kernel
    · show ∀ q ∈ properties counterClass.chain, q.isStored = true → q ≠ counterId →
        PropertyReads wideFoundation demoRuntime counter q
      decide +kernel

/-- A ticket that counts its seats. -/
def seatedClass : ModelClass where
  chain :=
    [{ name := "Ticket"
       properties := [⟨"_pk_seats", "i", "seats"⟩, ⟨"price", "@\"NSNumber\"", "price"⟩]
       ivars := [⟨"_seats", "i"⟩, ⟨"_price", "@\"NSNumber\""⟩] },
      { name := "NBBaseDBTableModel", properties := [], ivars := [] }]
  getTableName := some "tb_tickets"
  ivar_word := by decide

/-- Two seats at the price of 7. -/
def twoSeats : Model := .ofIvars seatedClass fun key =>
  some (.number (.integer (if key = "_seats" then 2 else 7)))

def seats : Property := ⟨"_pk_seats", "i", "seats"⟩

theorem seatedClass_valid : seatedClass.Valid "tb_tickets" where
  table := rfl
  name := by decide +kernel
  ordinary := by decide +kernel
  columns := by decide +kernel
  distinct := by decide +kernel
  keys := by decide +kernel
  stores := by decide +kernel

/-- The seats do not survive: the query raises at the price. -/
theorem seats_lost : seatedClass.Valid "tb_tickets" ∧ DeclaresInteger twoSeats seats .int 2 ∧
    Numerals wideFoundation demoRuntime ∧
    ¬ Survives wideFoundation demoRuntime twoSeats seats (.number (.integer 2)) fun _ => none := by
  have hdeclares : DeclaresInteger twoSeats seats .int 2 :=
    ⟨by decide +kernel, rfl, by decide +kernel, by decide +kernel, by decide +kernel, by decide⟩
  have hvalid : twoSeats.cls.Valid "tb_tickets" := seatedClass_valid
  have hseats : seats ∈ properties twoSeats.cls.chain := by decide +kernel
  have hst : seats.isStored = true := by decide +kernel
  refine ⟨seatedClass_valid, hdeclares, wideFoundation_numerals, fun hsurvives => ?_⟩
  obtain ⟨hstored, -⟩ := (survives_iff_comesBack hvalid hseats hst hdeclares.ivar hdeclares.value
    rfl).mp hsurvives
  have hprice : (⟨"price", "@\"NSNumber\"", "price"⟩ : Property) ∈
      properties twoSeats.cls.chain := by decide +kernel
  exact absurd (hstored.others _ hprice (by decide +kernel) (by decide)) (by decide +kernel)

end NBDataBase
