import Criteria.Error
import Criteria.Expression

/-!
# Combining criteria

A list of criteria becomes one joined element in a single walk from left to right. The
walk asks for the element of each criterion, which may be absent, and keeps a queue. A
criterion joined by AND is queued. One joined by OR first joins the whole queue by AND and
then joins that to its own element by OR; if it has no element, the joined queue stands in
for it. The children of a criterion are combined in the same way and joined by OR to the
last entry of the queue. At the end the queue is joined by AND.

AND binds no tighter than OR, and a queue that has to be joined must not be empty.
-/

namespace Criteria

/-- A step that may fail and that keeps a state, also when it fails. -/
abbrev Walk (σ : Type) : Type → Type :=
  EStateM FilterError σ

namespace Walk

variable {σ α : Type}

/-- A result without an effect on the state. -/
def ofExcept : Except FilterError α → Walk σ α
  | .ok a => pure a
  | .error e => throw e

/-- The result of a walk from a state, with the state that it ends in. -/
def outcome (walk : Walk σ α) (s : σ) : Except FilterError (α × σ) :=
  match walk s with
  | .ok a s => .ok (a, s)
  | .error e _ => .error e

end Walk

namespace Combination

variable {ε : Type} [Connectives ε]

/-- The entries of a queue joined by AND from the oldest on. The last one queued stands
first in the list. -/
def joined? : List ε → Option ε
  | [] => none
  | [e] => some e
  | last :: older => (joined? older).map fun e => Connectives.both e last

/-- The queue after the element of a criterion. -/
def enqueue? (combinator : Combinator) (element : Option ε) (queue : List ε) :
    Option (List ε) :=
  match combinator, element with
  | .and, some e => some (e :: queue)
  | .and, none => some queue
  | .or, element =>
    (joined? queue).map fun folded => [Connectives.either folded (element.getD folded)]

/-- The queue after a group of children. -/
def attach? (sub : ε) : List ε → Option (List ε)
  | [] => none
  | last :: older => some (Connectives.either last sub :: older)

/-- Fails where there was nothing to combine. -/
def nonempty {σ α : Type} (group : Group) : Option α → Walk σ α
  | some a => pure a
  | none => throw (.emptyCombination group)

end Combination

open Combination in
mutual

/-- The queue of a group after one more criterion and its children. -/
def visit
    {σ ε : Type} [Connectives ε]
    (element : Criterion → Walk σ (Option ε)) (group : Group) (queue : List ε) :
    Criterion → Walk σ (List ε)
  | ⟨combinator, field, comparison, value, children⟩ => do
    let e ← element ⟨combinator, field, comparison, value, children⟩
    let queue ← nonempty group (enqueue? combinator e queue)
    if children.isEmpty then
      return queue
    else
      let sub ← combineOnto element (.children field) [] children
      nonempty group (attach? sub queue)
termination_by structural c => c

/-- Combines the criteria of a group with what is queued already. -/
def combineOnto
    {σ ε : Type} [Connectives ε]
    (element : Criterion → Walk σ (Option ε)) (group : Group) (queue : List ε) :
    List Criterion → Walk σ ε
  | [] => nonempty group (joined? queue)
  | c :: rest => do
    let queue ← visit element group queue c
    combineOnto element group queue rest
termination_by structural criteria => criteria

end

/-- Combines the criteria of the top level. -/
def combine
    {σ ε : Type} [Connectives ε]
    (element : Criterion → Walk σ (Option ε)) (criteria : List Criterion) : Walk σ ε :=
  combineOnto element .topLevel [] criteria

end Criteria
