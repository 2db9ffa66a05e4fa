/-!
# Integers of fixed width

The integer types that a record can store, their ranges, and the decimal text of
an integer. A text is read from the left and the first fault decides: a character
that is no digit, or a digit that takes the number out of the range.
-/

namespace Criteria

/-- The integer types of a record's storage: signed and unsigned, by width in bits. -/
inductive IntType
  | i8 | i16 | i32 | i64 | u8 | u16 | u32
deriving DecidableEq, Repr

namespace IntType

/-- The least integer of the type. -/
def least : IntType → Int
  | .i8 => -128
  | .i16 => -32768
  | .i32 => -2147483648
  | .i64 => -9223372036854775808
  | .u8 | .u16 | .u32 => 0

/-- The greatest integer of the type. -/
def greatest : IntType → Int
  | .i8 => 127
  | .i16 => 32767
  | .i32 => 2147483647
  | .i64 => 9223372036854775807
  | .u8 => 255
  | .u16 => 65535
  | .u32 => 4294967295

/-- The name by which messages call the type. -/
def name : IntType → String
  | .i8 => "i8"
  | .i16 => "i16"
  | .i32 => "i32"
  | .i64 => "i64"
  | .u8 => "u8"
  | .u16 => "u16"
  | .u32 => "u32"

end IntType

/-- An integer within the range of its type. -/
structure Integer (t : IntType) where
  val : Int
  least_le : t.least ≤ val
  le_greatest : val ≤ t.greatest
deriving DecidableEq

namespace Integer

/-- The integer as a value of the type, if it is within the range. -/
def ofInt? (t : IntType) (i : Int) : Option (Integer t) :=
  if h : t.least ≤ i ∧ i ≤ t.greatest then some ⟨i, h.1, h.2⟩ else none

theorem ofInt?_eq_some_iff {t : IntType} {i : Int} {n : Integer t} :
    ofInt? t i = some n ↔ n.val = i := by
  obtain ⟨v, hl, hg⟩ := n
  simp only [ofInt?]
  split <;> grind

theorem ofInt?_val {t : IntType} (n : Integer t) : ofInt? t n.val = some n :=
  ofInt?_eq_some_iff.mpr rfl

/-- The integer of the type that is nearest to the given one: an end of the range stands for
what lies beyond it. -/
def clamp (t : IntType) (i : Int) : Integer t :=
  ⟨max t.least (min i t.greatest), Int.le_max_left _ _,
    Int.max_le.mpr ⟨by cases t <;> decide, Int.min_le_right _ _⟩⟩

theorem clamp_val_of_within {t : IntType} {i : Int} (hleast : t.least ≤ i)
    (hgreatest : i ≤ t.greatest) : (clamp t i).val = i := by
  change max t.least (min i t.greatest) = i
  rw [Int.min_eq_left hgreatest, Int.max_eq_right hleast]

/-- Zero is within the range of every type. -/
def zero (t : IntType) : Integer t :=
  ⟨0, by cases t <;> decide, by cases t <;> decide⟩

/-- Every storage type's range lies within the range of the widest one. -/
def widen {t : IntType} (n : Integer t) : Integer .i64 :=
  ⟨n.val,
    Int.le_trans (by cases t <;> decide) n.least_le,
    Int.le_trans n.le_greatest (by cases t <;> decide)⟩

/-- The decimal digits of an integer, after a minus sign if it is negative. -/
def decimal (i : Int) : List Char :=
  if i < 0 then '-' :: Nat.toDigits 10 i.natAbs else Nat.toDigits 10 i.natAbs

end Integer

/-- Why a text is no integer of the range. -/
inductive IntegerFault
  | empty
  | invalidDigit
  | tooLarge
  | tooSmall
deriving DecidableEq, Repr

namespace IntegerFault

/-- The text of a fault. -/
def message : IntegerFault → String
  | .empty => "cannot parse integer from empty string"
  | .invalidDigit => "invalid digit found in string"
  | .tooLarge => "number too large to fit in target type"
  | .tooSmall => "number too small to fit in target type"

end IntegerFault

namespace Integer

/-- The number that a decimal digit stands for. -/
def digitValue (c : Char) : Nat :=
  c.toNat - '0'.toNat

/-- The integer whose digits are those of `read` followed by the given ones. The digits
of a negative integer are counted downwards, so that the least integer is in reach. -/
def extend (negative : Bool) (read : Integer .i64) :
    List Char → Except IntegerFault (Integer .i64)
  | [] => .ok read
  | c :: rest =>
    if c.isDigit then
      let digit : Int := digitValue c
      match ofInt? .i64 (10 * read.val + if negative then -digit else digit) with
      | some next => extend negative next rest
      | none => .error (if negative then .tooSmall else .tooLarge)
    else .error .invalidDigit

/-- Reads an optional sign and one or more decimal digits. -/
def read : List Char → Except IntegerFault (Integer .i64)
  | [] => .error .empty
  | ['+'] | ['-'] => .error .invalidDigit
  | '+' :: digits => extend false (zero .i64) digits
  | '-' :: digits => extend true (zero .i64) digits
  | digits => extend false (zero .i64) digits

end Integer

end Criteria
