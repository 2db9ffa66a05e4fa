import Criteria.Filter
import Criteria.Schema

/-!
# Building filters

A criterion is appended either to the top level or to the children of a criterion that
stands in the filter already. Appending yields the handle of the new criterion, under
which further ones can be appended. Nothing that stood in the filter before moves, so
handles stay valid.

There are four calls that append, by AND or by OR and with the name of a field or with a
typed key. Each of them appends a criterion without children. With the empty handle they
are calls on the filter, with any other one calls on the criterion that it leads to.
-/

namespace Criteria

/-- Where a group of criteria stands: the places on the way down to the criterion whose
children they are. The empty handle leads to the top level. -/
abbrev Handle : Type :=
  List Nat

namespace Criterion

/-- The criterion without children. -/
def single (combinator : Combinator) (field : String) (comparison : Comparison)
    (value : Value) : Criterion :=
  ⟨combinator, field, comparison, value, []⟩

/-- Appends a criterion to the group that a handle leads to, and gives its own handle. -/
def appendAt? (c : Criterion) : Handle → List Criterion → Option (List Criterion × Handle)
  | [], cs => some (cs ++ [c], [cs.length])
  | place :: path, cs =>
    match cs[place]? with
    | none => none
    | some parent =>
      (appendAt? c path parent.children).map fun (children, handle) =>
        (cs.set place { parent with children := children }, place :: handle)

/-- The criterion that a handle leads to, from a group downwards. -/
def find? : Handle → List Criterion → Option Criterion
  | [], _ => none
  | [place], cs => cs[place]?
  | place :: path, cs => cs[place]?.bind fun c => find? path c.children

end Criterion

namespace FieldKey

/-- The criterion that compares the field named by a key with a content of its type. -/
def criterion {s : StorageType} (key : FieldKey s) (combinator : Combinator)
    (comparison : Comparison) (content : s.Carrier) : Criterion :=
  Criterion.single combinator key.name comparison (s.toValue content)

end FieldKey

namespace Filter

/-- The criterion that a handle leads to. -/
def at? (F : Filter) (handle : Handle) : Option Criterion :=
  Criterion.find? handle F.criteria

/-- Appends a criterion to the group that a handle leads to, and gives its own handle. -/
def append? (F : Filter) (handle : Handle) (c : Criterion) : Option (Filter × Handle) :=
  (c.appendAt? handle F.criteria).map fun (criteria, handle) => (⟨criteria⟩, handle)

/-- The filter with a single criterion. -/
def single (field : String) (comparison : Comparison) (value : Value) : Filter :=
  ⟨[Criterion.single .and field comparison value]⟩

variable {s : StorageType} (F : Filter) (group : Handle)

/-- Appends a criterion without children that is joined by AND. -/
def add? (field : String) (comparison : Comparison) (value : Value) : Option (Filter × Handle) :=
  F.append? group (.single .and field comparison value)

/-- Appends a criterion without children that is joined by OR. -/
def or? (field : String) (comparison : Comparison) (value : Value) : Option (Filter × Handle) :=
  F.append? group (.single .or field comparison value)

/-- Appends a criterion of a typed key that is joined by AND. -/
def addKey? (key : FieldKey s) (comparison : Comparison) (content : s.Carrier) :
    Option (Filter × Handle) :=
  F.append? group (key.criterion .and comparison content)

/-- Appends a criterion of a typed key that is joined by OR. -/
def orKey? (key : FieldKey s) (comparison : Comparison) (content : s.Carrier) :
    Option (Filter × Handle) :=
  F.append? group (key.criterion .or comparison content)

/-- The filter with a single criterion is what one call makes of the empty filter. -/
theorem add?_empty (field : String) (comparison : Comparison) (value : Value) :
    empty.add? [] field comparison value = some (single field comparison value, [0]) :=
  rfl

/-- A key leaves nothing in the filter but its name and the value of the content. -/
theorem addKey?_eq_add? (key : FieldKey s) (comparison : Comparison) (content : s.Carrier) :
    F.addKey? group key comparison content =
      F.add? group key.name comparison (s.toValue content) :=
  rfl

theorem orKey?_eq_or? (key : FieldKey s) (comparison : Comparison) (content : s.Carrier) :
    F.orKey? group key comparison content =
      F.or? group key.name comparison (s.toValue content) :=
  rfl

end Filter

end Criteria
