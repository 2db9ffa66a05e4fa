import Criteria.Value

/-!
# Filters

A filter is a list of criteria. A criterion compares a field, known by its name alone,
with a value; it says how it joins what stands before it, and it may carry a group of
criteria of its own, its children. Nothing is checked while a filter is built: whether a
field exists and what a comparison means is settled when the filter meets a schema.
-/

namespace Criteria

/-- How a criterion joins what stands before it in its group. -/
inductive Combinator
  | and
  | or
deriving DecidableEq, Repr

/-- What a criterion asks of a field. `contains` is the search for a part of a text. -/
inductive Comparison
  | equal
  | notEqual
  | lessThan
  | lessThanOrEqual
  | greaterThan
  | greaterThanOrEqual
  | contains
deriving DecidableEq, Repr

namespace Combinator

/-- Every combinator. -/
def all : List Combinator :=
  [.and, .or]

/-- The word for a combinator in documents. -/
def name : Combinator → String
  | .and => "And"
  | .or => "Or"

/-- The combinator of the given word. -/
def ofName? (s : String) : Option Combinator :=
  all.find? fun c => c.name == s

end Combinator

namespace Comparison

/-- Every comparison. -/
def all : List Comparison :=
  [.equal, .notEqual, .lessThan, .lessThanOrEqual, .greaterThan, .greaterThanOrEqual, .contains]

/-- The word for a comparison in documents and messages. -/
def name : Comparison → String
  | .equal => "Equal"
  | .notEqual => "NotEqual"
  | .lessThan => "LessThan"
  | .lessThanOrEqual => "LessThanOrEqual"
  | .greaterThan => "GreaterThan"
  | .greaterThanOrEqual => "GreaterThanOrEqual"
  | .contains => "Contains"

/-- The comparison of the given word. -/
def ofName? (s : String) : Option Comparison :=
  all.find? fun c => c.name == s

end Comparison

/-- A criterion with its children. -/
structure Criterion where
  combinator : Combinator
  field : String
  comparison : Comparison
  value : Value
  children : List Criterion

namespace Criterion

/-- A statement holds of every list of criteria if it holds of the empty one and of any
criterion before a list, as long as it holds of that list and of the children. -/
theorem list_induction
    {motive : List Criterion → Prop}
    (nil : motive [])
    (cons : ∀ combinator field comparison value children rest,
      motive children → motive rest →
        motive (⟨combinator, field, comparison, value, children⟩ :: rest)) :
    ∀ cs, motive cs
  | [] => nil
  | ⟨combinator, field, comparison, value, children⟩ :: rest =>
    cons combinator field comparison value children rest
      (list_induction nil cons children) (list_induction nil cons rest)

mutual

/-- Equality of criteria, where values are compared as values: a NaN differs from itself
and the two zeros are equal. -/
def same : Criterion → Criterion → Bool
  | ⟨c, f, p, v, children⟩, ⟨c', f', p', v', children'⟩ =>
    c == c' && f == f' && p == p' && v.equals v' && sameList children children'
termination_by structural c => c

/-- Equality of lists of criteria, place by place. -/
def sameList : List Criterion → List Criterion → Bool
  | [], [] => true
  | c :: rest, c' :: rest' => same c c' && sameList rest rest'
  | _, _ => false
termination_by structural cs => cs

end

end Criterion

/-- The criteria of the top level. -/
structure Filter where
  criteria : List Criterion

namespace Filter

/-- The filter without criteria. -/
def empty : Filter :=
  ⟨[]⟩

/-- The number of criteria on the top level. -/
def size (F : Filter) : Nat :=
  F.criteria.length

/-- Whether the top level has no criteria. -/
def isEmpty (F : Filter) : Bool :=
  F.criteria.isEmpty

/-- Whether a criterion of the top level names the field. -/
def names (F : Filter) (field : String) : Bool :=
  F.criteria.any fun c => c.field == field

/-- The first criterion of the top level that names the field. -/
def get? (F : Filter) (field : String) : Option Criterion :=
  F.criteria.find? fun c => c.field == field

/-- Equality of filters, where values are compared as values. -/
def same (F G : Filter) : Bool :=
  Criterion.sameList F.criteria G.criteria

end Filter

end Criteria
