import Criteria.Combination
import Criteria.Condition

/-!
# Query clauses

A filter as the condition of a query with a placeholder for every value. The values are
written into the fields of an otherwise initial record, to be bound by whoever runs the
query; they never enter the text. Since a field of that record has room for one value, a
field may be named only once, and it must exist.
-/

namespace Criteria

variable {R : RecordType}

/-- How columns and placeholders are written: what stands before the name of a placeholder,
and the table that columns are qualified by. -/
structure ClauseOptions where
  mark : String := "@"
  qualifier : Option String := none
deriving DecidableEq

/-- The operator of a comparison in a query. -/
def Comparison.operator : Comparison → String
  | .equal => "="
  | .notEqual => "<>"
  | .lessThan => "<"
  | .lessThanOrEqual => "<="
  | .greaterThan => ">"
  | .greaterThanOrEqual => ">="
  | .contains => "LIKE"

/-- The comparison of a column with the placeholder of its name. -/
structure Condition where
  field : String
  comparison : Comparison
deriving DecidableEq

namespace Condition

/-- The condition as a query writes it. -/
def text (options : ClauseOptions) (c : Condition) : String :=
  let column :=
    match options.qualifier with
    | some qualifier => qualifier ++ "." ++ c.field
    | none => c.field
  column ++ " " ++ c.comparison.operator ++ " " ++ options.mark ++ c.field

end Condition

/-- The placeholders met so far, and the record that holds their values. -/
structure Bindings (R : RecordType) where
  parameters : List String
  values : Record R

namespace Bindings

/-- No placeholders, and a record to which nothing has been written. -/
def initial (R : RecordType) : Bindings R :=
  ⟨[], Record.initial R⟩

/-- Binds the value of a criterion to the placeholder of its field. -/
def bind (S : Schema R) (c : Criterion) (b : Bindings R) :
    Except FilterError (Condition × Bindings R) :=
  match S.resolve c.field with
  | none => .error (.unresolvedField c.field R.name)
  | some f =>
    if f.name ∈ b.parameters then .error (.duplicatePlaceholder f.name)
    else do
      let constant ← c.constant f
      let values ← (f.write b.values constant).mapError (.conversion c.field)
      return (⟨f.name, c.comparison⟩, ⟨b.parameters ++ [f.name], values⟩)

end Bindings

/-- A query clause with the values of its placeholders. -/
structure QueryClause (R : RecordType) where
  options : ClauseOptions
  expression : Expression Condition
  bindings : Bindings R

namespace QueryClause

/-- The text of the clause. -/
def text (q : QueryClause R) : String :=
  q.expression.render " AND " " OR " (Condition.text q.options)

instance : ToString (QueryClause R) := ⟨text⟩

/-- The names of the placeholders in the order in which they were met. -/
def parameters (q : QueryClause R) : List String :=
  q.bindings.parameters

/-- The record that holds the values of the placeholders. -/
def values (q : QueryClause R) : Record R :=
  q.bindings.values

/-- The expression of a single criterion, with its value bound. -/
def element (S : Schema R) (c : Criterion) :
    Walk (Bindings R) (Option (Expression Condition)) := do
  let (condition, bindings) ← .ofExcept (Bindings.bind S c (← get))
  set bindings
  return some (.leaf condition)

/-- The query clause of a list of criteria. -/
def generate (options : ClauseOptions) (S : Schema R) (criteria : List Criterion) :
    Except FilterError (QueryClause R) :=
  (Walk.outcome (combine (element S) criteria) (.initial R)).map fun (expression, bindings) =>
    ⟨options, expression, bindings⟩

/-- The written condition of a single criterion, with its value bound. -/
def writtenElement (options : ClauseOptions) (S : Schema R) (c : Criterion) :
    Walk (Bindings R) (Option (Expression String)) := do
  let (condition, bindings) ← .ofExcept (Bindings.bind S c (← get))
  set bindings
  return some (.leaf (condition.text options))

/-- The expression of a list of criteria and their bound values, where each condition is
written out as soon as its value is bound. -/
def write (options : ClauseOptions) (S : Schema R) (criteria : List Criterion) :
    Except FilterError (Expression String × Bindings R) :=
  Walk.outcome (combine (writtenElement options S) criteria) (.initial R)

end QueryClause

end Criteria
