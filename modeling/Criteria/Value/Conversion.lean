import Criteria.Number.Numeral
import Criteria.Text.Blank
import Criteria.Value

/-!
# Conversion between kinds

Every kind converts to every other, and a value of the wanted kind is kept as it is.
A number becomes the nearest number of the other kind, a text is read after trimming
blanks, and a number is true unless it is zero. A failure keeps the value that was to be
converted and the cause.
-/

namespace Criteria

/-- Why a value cannot be converted. -/
inductive ConversionFault
  | outOfRange
  | notInteger (fault : IntegerFault)
  | notNumber (fault : NumeralFault)
  | notTruthValue
  | tooWide (type : IntType)
deriving DecidableEq, Repr

/-- The text of a cause. -/
def ConversionFault.message : ConversionFault → String
  | .outOfRange => "value is out of range"
  | .notInteger fault => fault.message
  | .notNumber fault => fault.message
  | .notTruthValue => "expected 'true' or 'false'"
  | .tooWide type => "does not fit in " ++ type.name

/-- What could be said of a value that is of another kind than it was converted to. -/
def Kind.expectation : Kind → String
  | .int => "expected an int"
  | .float => "expected a float"
  | .text => "expected text"
  | .bool => "expected a bool"

/-- A failed conversion: the value, the wanted kind and the cause. -/
structure ConversionError where
  value : Value
  target : Kind
  fault : ConversionFault
deriving DecidableEq

/-- The text of an error, with the value as it was given. -/
def ConversionError.message (e : ConversionError) : String :=
  "cannot convert " ++ e.value.display ++ " to " ++ e.target.name ++ ": " ++ e.fault.message

namespace Integer

/-- The integer that is left of a double without its fraction, or the end of the range that it
lies beyond. A NaN becomes zero. -/
def ofDoubleClamped : Double → Integer .i64
  | .nan => zero .i64
  | .infinity negative => clamp .i64 (if negative then IntType.i64.least else IntType.i64.greatest)
  | .finite negative units _ =>
    clamp .i64 (Binary.signed negative (units / 2 ^ Format.double.scale))

/-- Whether a double is below the least or not below the greatest integer as doubles. The
greatest integer is no double: it becomes the power of two above it, which is out of the range. -/
def beyondRange (x : Double) : Bool :=
  x.compare? (.ofInt IntType.i64.least) == some .lt ||
    (x.compare? (.ofInt IntType.i64.greatest) == some .gt ||
      x.compare? (.ofInt IntType.i64.greatest) == some .eq)

/-- The integer nearest to a double, where the double is rounded to a whole number before its
range is checked. -/
def ofDouble? (x : Double) : Option (Integer .i64) :=
  if !x.isFinite then none
  else if beyondRange x.toWhole then none
  else some (ofDoubleClamped x.toWhole)

end Integer

namespace Value

/-- The integer that a value stands for: the nearest one for a float, one or zero for a
truth value, the one that it spells for a text. -/
def toInt : Value → Except ConversionFault (Integer .i64)
  | .int i => .ok i
  | .bool b => .ok (if b then ⟨1, by decide, by decide⟩ else .zero .i64)
  | .float x =>
    match x.toInt?.bind (Integer.ofInt? .i64) with
    | some i => .ok i
    | none => .error .outOfRange
  | .text s => (Integer.read (Text.trim s.toList)).mapError .notInteger

/-- The double that a value stands for: the nearest one for an integer, one or zero for a
truth value, the one nearest to the numeral for a text. -/
def toDouble : Value → Except ConversionFault Double
  | .float x => .ok x
  | .int i => .ok (Binary.ofInt i.val)
  | .bool b => .ok (Binary.ofInt (if b then 1 else 0))
  | .text s => (Binary.read (Text.trim s.toList)).mapError .notNumber

/-- The truth value that a value stands for. The words are read in any case. -/
def toBool : Value → Except ConversionFault Bool
  | .bool b => .ok b
  | .int i => .ok (i.val != 0)
  | .float x => .ok x.nonzero
  | .text s =>
    let word := String.ofList ((Text.trim s.toList).map Char.toLower)
    if word == "true" then .ok true
    else if word == "false" then .ok false
    else .error .notTruthValue

/-- The text of a value, which every value has. -/
def toText : Value → String
  | .text s => s
  | .bool b => boolText b
  | .int i => String.ofList (Integer.decimal i.val)
  | .float x => String.ofList x.text

/-- Converts a value to the given kind. -/
def convert (v : Value) (target : Kind) : Except ConversionError Value :=
  let converted : Except ConversionFault Value :=
    match target with
    | .int => v.toInt.map .int
    | .float => v.toDouble.map .float
    | .bool => v.toBool.map .bool
    | .text => .ok (.text v.toText)
  converted.mapError fun fault => ⟨v, target, fault⟩

end Value

end Criteria
