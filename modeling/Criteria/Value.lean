import Criteria.Number.Decimal
import Criteria.Number.Integer
import Criteria.Text.Quoted

/-!
# Values

The values that criteria carry and fields yield: truth values, integers of 64 bits,
doubles and texts. Two values are ordered only within a kind; text is ordered by code
points. Equality is a relation of its own: it is that of the payloads, so a NaN equals
nothing and the two zeros are equal.
-/

namespace Criteria

/-- The kinds of values. -/
inductive Kind
  | int | float | text | bool
deriving DecidableEq, Repr

namespace Kind

/-- The word for a kind in messages. -/
def name : Kind → String
  | .int => "int"
  | .float => "float"
  | .text => "text"
  | .bool => "bool"

/-- The capitalised word for a kind in descriptions of a schema. -/
def label : Kind → String
  | .int => "Int"
  | .float => "Float"
  | .text => "Text"
  | .bool => "Bool"

/-- The kind of the given capitalised word. -/
def ofLabel? : String → Option Kind
  | "Int" => some .int
  | "Float" => some .float
  | "Text" => some .text
  | "Bool" => some .bool
  | _ => none

end Kind

/-- A value of one of the four kinds. -/
inductive Value
  | bool (b : Bool)
  | int (i : Integer .i64)
  | float (x : Double)
  | text (s : String)
deriving DecidableEq

namespace Value

/-- The kind of a value. -/
def kind : Value → Kind
  | .bool _ => .bool
  | .int _ => .int
  | .float _ => .float
  | .text _ => .text

/-- The text of a text value. -/
def text? : Value → Option String
  | .text s => some s
  | _ => none

/-- Equality of values. -/
def equals : Value → Value → Bool
  | .bool a, .bool b => a == b
  | .int a, .int b => a == b
  | .float a, .float b => a.equals b
  | .text a, .text b => a == b
  | _, _ => false

/-- The order of two values of one kind, if they have one. -/
def compare? : Value → Value → Option Ordering
  | .int a, .int b => some (compare a.val b.val)
  | .float a, .float b => a.compare? b
  | .text a, .text b => some (compare a b)
  | .bool a, .bool b => some (compare a b)
  | _, _ => none

/-- The text of a truth value. -/
def boolText (b : Bool) : String :=
  if b then "true" else "false"

/-- The text of a value in messages and rendered predicates, where a text is quoted. -/
def display : Value → String
  | .bool b => boolText b
  | .int i => String.ofList (Integer.decimal i.val)
  | .float x => String.ofList x.text
  | .text s => Text.quote s

end Value

end Criteria
