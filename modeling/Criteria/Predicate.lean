import Criteria.Combination
import Criteria.Condition

/-!
# Predicates

A filter compiled for a schema: a test of records of the schema's type. A criterion whose
field the schema does not have is left out, so a filter written for one record type can
be applied to another that lacks some of its fields.
-/

namespace Criteria

variable {R : RecordType}

/-- The comparison of a field with a constant. -/
structure Test (R : RecordType) where
  field : Field R
  comparison : Comparison
  constant : Value
deriving DecidableEq

namespace Test

/-- Whether a record passes the test. -/
def holds (t : Test R) (r : Record R) : Bool :=
  t.comparison.holds (t.field.read r) t.constant

/-- The text of a test. -/
def text (t : Test R) : String :=
  let field := "obj." ++ t.field.name
  let infixed (operator : String) := field ++ " " ++ operator ++ " " ++ t.constant.display
  match t.comparison with
  | .equal => infixed "=="
  | .notEqual => infixed "!="
  | .lessThan => infixed "<"
  | .lessThanOrEqual => infixed "<="
  | .greaterThan => infixed ">"
  | .greaterThanOrEqual => infixed ">="
  | .contains => field ++ ".contains(" ++ t.constant.display ++ ")"

/-- The test that a criterion asks for, if the schema has its field. -/
def ofCriterion
    (S : Schema R) (c : Criterion) : Except FilterError (Option (Test R)) :=
  match S.resolve c.field with
  | none => .ok none
  | some f => (c.constant f).map fun constant => some ⟨f, c.comparison, constant⟩

end Test

/-- A test of records, composed of tests of single fields. -/
structure Predicate (R : RecordType) where
  expression : Expression (Test R)
deriving DecidableEq

namespace Predicate

/-- Whether a record matches. -/
def holds (p : Predicate R) (r : Record R) : Bool :=
  p.expression.holds fun t => t.holds r

/-- The items whose records match, in order. -/
def filter {α : Type} (p : Predicate R) (record : α → Record R) (items : List α) : List α :=
  items.filter fun item => p.holds (record item)

/-- The text of the compiled expression. -/
def text (p : Predicate R) : String :=
  p.expression.render " && " " || " Test.text

/-- A description of the predicate for diagnostics. -/
def describe (p : Predicate R) : String :=
  "Predicate \x7b text: " ++ Text.quote p.text ++ " \x7d"

/-- The expression of a single criterion, absent where the schema lacks its field. -/
def element (S : Schema R) (c : Criterion) : Walk Unit (Option (Expression (Test R))) :=
  .ofExcept ((Test.ofCriterion S c).map fun t => t.map .leaf)

/-- The predicate of a list of criteria. -/
def compile (S : Schema R) (criteria : List Criterion) : Except FilterError (Predicate R) :=
  (Walk.outcome (combine (element S) criteria) ()).map fun (expression, _) => ⟨expression⟩

end Predicate

/-- Compiles filters and remembers the text of the last predicate. -/
structure Compiler where
  lastText : Option String := none

namespace Compiler

/-- Compiles a list of criteria. A failure leaves no text to remember. -/
def compile (_ : Compiler) (S : Schema R) (criteria : List Criterion) :
    Except FilterError (Predicate R) × Compiler :=
  match Predicate.compile S criteria with
  | .ok p => (.ok p, ⟨some p.text⟩)
  | .error e => (.error e, ⟨none⟩)

end Compiler

end Criteria
