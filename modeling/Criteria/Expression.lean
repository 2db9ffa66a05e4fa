/-!
# Expressions

Conditions joined by AND and OR, and what they have in common with every other type whose
elements can be joined so.
-/

namespace Criteria

/-- Types whose elements can be joined by AND and by OR. -/
class Connectives (α : Type) where
  both : α → α → α
  either : α → α → α

/-- A condition of type `α`, or two expressions joined. -/
inductive Expression (α : Type)
  | leaf (condition : α)
  | both (left right : Expression α)
  | either (left right : Expression α)
deriving DecidableEq

instance {α : Type} : Connectives (Expression α) :=
  ⟨.both, .either⟩

namespace Expression

variable {α : Type}

/-- The truth of an expression, given the truth of each condition. -/
def holds (test : α → Bool) : Expression α → Bool
  | .leaf condition => test condition
  | .both left right => left.holds test && right.holds test
  | .either left right => left.holds test || right.holds test

/-- The text of an expression, with each pair joined in parentheses. -/
def render (both either : String) (condition : α → String) : Expression α → String
  | .leaf c => condition c
  | .both left right =>
    "(" ++ left.render both either condition ++ both ++
      right.render both either condition ++ ")"
  | .either left right =>
    "(" ++ left.render both either condition ++ either ++
      right.render both either condition ++ ")"

end Expression

end Criteria
