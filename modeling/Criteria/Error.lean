import Criteria.Filter
import Criteria.Value.Conversion

/-!
# Errors

Why a filter cannot be applied to a schema.
-/

namespace Criteria

/-- The groups of criteria that are combined: the top level, and the children of a
criterion, told apart in messages by the field that it names. -/
inductive Group
  | topLevel
  | children (field : String)
deriving DecidableEq

/-- The group as messages name it. -/
def Group.describe : Group → String
  | .topLevel => "top-level filter"
  | .children field => "children of '" ++ field ++ "'"

/-- The causes of failure. -/
inductive FilterError
  | unresolvedField (field record : String)
  | conversion (field : String) (source : ConversionError)
  | unsupportedComparison (field : String) (comparison : Comparison) (kind : Kind)
  | emptyCombination (group : Group)
  | duplicatePlaceholder (field : String)
deriving DecidableEq

/-- The text of an error. -/
def FilterError.message : FilterError → String
  | .unresolvedField field record => "field '" ++ field ++ "' does not exist on " ++ record
  | .conversion field source => "invalid value for field '" ++ field ++ "': " ++ source.message
  | .unsupportedComparison field comparison kind =>
    "comparison " ++ comparison.name ++ " is not supported on " ++ kind.name ++
      " field '" ++ field ++ "'"
  | .emptyCombination group => "nothing to combine in " ++ group.describe
  | .duplicatePlaceholder field =>
    "field '" ++ field ++ "' appears more than once in a query clause"

end Criteria
