import Criteria.Document.Value
import Criteria.Filter
import Criteria.Json.Printer
import Criteria.Json.Reader

/-!
# Filters in documents

A filter is an array of criteria. A criterion is written as an object; it may also be read
from an array of its parts in order. The names of combinators and comparisons are strings,
or objects that give the name the value null.

Groups of criteria nest, and a document may nest only so deep. Reading is by recursion on
the number of levels that are left.
-/

namespace Criteria

namespace Document

/-- How deep the arrays and objects of a document may nest. -/
def levels : Nat := 127

/-- Reads a name, given as a string or, with a level left, as an object of one member. -/
def name? (levels : Nat) : Json → Option String
  | .string contents => contents
  | .object [(name, .null)] => if levels = 0 then none else name
  | _ => none

end Document

/-- Reads a combinator. -/
def Combinator.ofJson? (levels : Nat) (j : Json) : Option Combinator :=
  (Document.name? levels j).bind Combinator.ofName?

/-- Reads a comparison. -/
def Comparison.ofJson? (levels : Nat) (j : Json) : Option Comparison :=
  (Document.name? levels j).bind Comparison.ofName?

namespace Criterion

/-- The names of the members of a criterion, in the order in which they are written. -/
def memberNames : List String :=
  ["combinator", "field", "comparison", "value", "children"]

/-- The parts of a criterion in order. The first and the last may be missing. -/
structure Parts where
  combinator : Option Json
  field : Json
  comparison : Json
  value : Json
  children : Option Json

/-- The parts of a criterion in a document. -/
def parts? : Json → Option Parts
  | .array [combinator, field, comparison, value] =>
    some ⟨some combinator, field, comparison, value, none⟩
  | .array [combinator, field, comparison, value, children] =>
    some ⟨some combinator, field, comparison, value, some children⟩
  | .object members => do
    let known ← Json.known? memberNames members
    return {
      combinator := known.lookup "combinator"
      field := ← known.lookup "field"
      comparison := ← known.lookup "comparison"
      value := ← known.lookup "value"
      children := known.lookup "children"
    }
  | _ => none

/-- Reads a part, or takes the default where it is missing. -/
def orDefault {α : Type} (default : α) (read : Json → Option α) : Option Json → Option α
  | none => some default
  | some j => read j

/-- Reads a group of criteria, with the given number of levels left. Each criterion takes
one level below that of the group, and its children are a group below both. -/
def listOfJson? : (levels : Nat) → Json → Option (List Criterion)
  | _ + 1, .array [] => some []
  | levels + 2, .array items =>
    items.mapM fun item => do
      let parts ← parts? item
      let combinator ← orDefault .and (Combinator.ofJson? levels) parts.combinator
      let field ← parts.field.text?
      let comparison ← Comparison.ofJson? levels parts.comparison
      let value ← Value.ofJson? parts.value
      let children ← orDefault [] (listOfJson? levels) parts.children
      return ⟨combinator, field, comparison, value, children⟩
  | _, _ => none

mutual

/-- The document of a criterion. Children are written only if there are any. -/
def toJson : Criterion → Json
  | ⟨combinator, field, comparison, value, children⟩ =>
    let required := [
      ("combinator", Json.ofString combinator.name),
      ("field", Json.ofString field),
      ("comparison", Json.ofString comparison.name),
      ("value", value.toJson)]
    let optional :=
      if children.isEmpty then [] else [("children", Json.array (listToJson children))]
    Json.ofMembers (required ++ optional)
termination_by structural c => c

/-- The documents of the criteria of a group. -/
def listToJson : List Criterion → List Json
  | [] => []
  | c :: rest => toJson c :: listToJson rest
termination_by structural cs => cs

end

end Criterion

namespace Filter

/-- Reads a filter from a document. -/
def ofJson? (j : Json) : Option Filter :=
  (Criterion.listOfJson? Document.levels j).map Filter.mk

/-- The document of a filter. -/
def toJson (F : Filter) : Json :=
  .array (Criterion.listToJson F.criteria)

/-- Reads a filter from the text of a document. -/
def read? (s : String) : Option Filter :=
  (Json.read? s).bind ofJson?

/-- The text of a filter's document. -/
def print (F : Filter) : String :=
  F.toJson.print

end Filter

end Criteria
