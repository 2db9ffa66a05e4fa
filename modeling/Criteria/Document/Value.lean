import Criteria.Json
import Criteria.Number.Numeral
import Criteria.Value

/-!
# Values in documents

A value stands in a document without a tag, so its kind is read off its spelling. A number
written without point and exponent is an integer if it is within the range, and every other
number is a float. Accordingly a float is always written with a point or an exponent. A
float that is not finite has no spelling and is written as null, which is no value.
-/

namespace Criteria

namespace Binary

/-- The spelling of a finite double in a document: the fewest digits that read back, of two
equally near decimals the one that ends in an even digit, positional if the leading digit
stands between the fifth place after the point and the sixteenth before it. -/
def spelling? : Double → Option (List Char)
  | .finite negative units _ =>
    let d := Decimal.shortest .double .even units
    let magnitude :=
      if -5 ≤ d.magnitude ∧ d.magnitude < 16 then d.pointed else d.scientific
    some (withSign negative magnitude)
  | _ => none

end Binary

namespace Value

/-- Whether a number is written without a point and an exponent. Minus zero is not an
integer, however it is written. -/
def writtenIntegral (spelling : List Char) : Bool :=
  spelling.all (fun c => c != '.' && c != 'e' && c != 'E') && spelling != ['-', '0']

/-- The double of a number's spelling, provided that it is finite. -/
def finite? (spelling : List Char) : Option Double :=
  match (Binary.read spelling : Except NumeralFault Double) with
  | .ok (.finite negative units represented) => some (.finite negative units represented)
  | _ => none

/-- The value of a number's spelling. -/
def ofSpelling? (spelling : List Char) : Option Value :=
  match writtenIntegral spelling, Integer.read spelling with
  | true, .ok i => some (.int i)
  | _, _ => (finite? spelling).map .float

/-- The value that a document stands for. -/
def ofJson? : Json → Option Value
  | .bool b => some (.bool b)
  | .number spelling => ofSpelling? spelling.toList
  | .string contents => contents.map .text
  | _ => none

/-- The document of a value. -/
def toJson : Value → Json
  | .bool b => .bool b
  | .int i => .number (String.ofList (Integer.decimal i.val))
  | .float x =>
    match x.spelling? with
    | some spelling => .number (String.ofList spelling)
    | none => .null
  | .text s => .ofString s

end Value

end Criteria
