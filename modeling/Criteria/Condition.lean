import Criteria.Error
import Criteria.Schema

/-!
# Conditions

A criterion whose field is known: the constant that the field's value is compared with,
and what each comparison asks of the two values. The search for a part of a text is asked
of text fields only.
-/

namespace Criteria

namespace Comparison

/-- Whether a value stands in the comparison to a constant. -/
def holds (comparison : Comparison) (value constant : Value) : Bool :=
  match comparison with
  | .equal => value.equals constant
  | .notEqual => !value.equals constant
  | .lessThan => value.compare? constant == some .lt
  | .lessThanOrEqual =>
    value.compare? constant == some .lt || value.compare? constant == some .eq
  | .greaterThan => value.compare? constant == some .gt
  | .greaterThanOrEqual =>
    value.compare? constant == some .gt || value.compare? constant == some .eq
  | .contains =>
    match value.text?, constant.text? with
    | some text, some part => text.contains part
    | _, _ => false

end Comparison

/-- The value of a criterion as the field would hold it. -/
def Criterion.constant
    {R : RecordType} (c : Criterion) (f : Field R) : Except FilterError Value :=
  if c.comparison = .contains ∧ f.kind ≠ .text then
    .error (.unsupportedComparison c.field c.comparison f.kind)
  else
    (f.convert c.value).mapError (.conversion c.field)

end Criteria
