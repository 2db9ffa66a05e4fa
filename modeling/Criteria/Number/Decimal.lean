import Criteria.Number.Rounding

/-!
# Shortest decimals

The decimal text of a binary number is the one with the fewest digits that still reads
back as that number. The search tries the multiples of one power of ten after another,
from a power above the number downwards. On each grid only the two multiples around the
number can be nearest to it, so the first grid on which one of them reads back gives the
fewest digits, and of two that read back the nearer one is taken.

Whatever the search yields reads back by construction: if no grid of the search gave a
decimal, the exact expansion of the number would be taken.
-/

namespace Criteria

/-- The decimal magnitude `coefficient * 10 ^ exponent`. -/
structure Decimal where
  coefficient : Nat
  exponent : Int
deriving DecidableEq

namespace Binary

variable {F : Format}

/-- The number nearest to a decimal with a sign. Where the exponent alone shows that the
decimal is beyond the finite numbers, or with the size of the coefficient that it is below
half a unit, the power of ten is not computed. -/
def ofDecimal (negative : Bool) (d : Decimal) : Binary F :=
  if d.coefficient = 0 then zero negative
  else match d.exponent with
    | .ofNat e =>
      if F.range ≤ F.scale + e then .infinity negative
      else ofRatio negative (d.coefficient * 10 ^ e) 1
    | .negSucc e =>
      if d.coefficient.log2 + F.scale + 2 ≤ 3 * (e + 1) then zero negative
      else ofRatio negative d.coefficient (10 ^ (e + 1))

end Binary

namespace Decimal

/-- Which of the two multiples of a power of ten is taken when the number lies in the
middle between them. -/
inductive Tie
  | up
  | even
deriving DecidableEq

variable (F : Format)

/-- Whether the decimal reads back as the number of that many units. -/
def readsBack (units : Nat) (d : Decimal) : Bool :=
  match (Binary.ofDecimal false d : Binary F) with
  | .finite _ u _ => u == units
  | _ => false

/-- A number of units as a quotient in multiples of a power of ten. -/
def gridQuotient (units : Nat) : (exponent : Int) → Nat × Nat
  | .ofNat e => (units, 2 ^ F.scale * 10 ^ e)
  | .negSucc e => (units * 10 ^ (e + 1), 2 ^ F.scale)

/-- The multiple of the power of ten that is nearest to the number among those that read
back. -/
def onGrid? (tie : Tie) (units : Nat) (exponent : Int) : Option Decimal :=
  let (num, den) := gridQuotient F units exponent
  let below : Decimal := ⟨num / den, exponent⟩
  let above : Decimal := ⟨num / den + 1, exponent⟩
  let distance := 2 * (num % den)
  match readsBack F units below, readsBack F units above with
  | true, true =>
    if distance < den then some below
    else if den < distance then some above
    else match tie with
      | .up => some above
      | .even => if below.coefficient % 2 = 0 then some below else some above
  | true, false => some below
  | false, true => some above
  | false, false => none

/-- The number itself: a count of units is a multiple of `10 ^ -scale`. -/
def exact (units : Nat) : Decimal :=
  ⟨units * 5 ^ F.scale, -F.scale⟩

/-- An exponent whose power of ten exceeds every decimal that could read back. -/
def startExponent (units : Nat) : Int :=
  ((units.log2 : Int) + 2 - F.scale) * 30103 / 100000 + 1

/-- The decimal with the fewest digits that reads back as the number. -/
def shortest (tie : Tie) (units : Nat) : Decimal :=
  if units = 0 then ⟨0, 0⟩
  else
    let grids := (List.range F.precision).map fun (k : Nat) => startExponent F units - k
    (grids.findSome? (onGrid? F tie units)).getD (exact F units)

variable {F}

/-- The digits before and after the point, without an exponent. -/
def split (d : Decimal) : List Char × List Char :=
  let digits := Nat.toDigits 10 d.coefficient
  match d.exponent with
  | .ofNat e => (digits ++ List.replicate e '0', [])
  | .negSucc e =>
    if e + 1 < digits.length then
      (digits.take (digits.length - (e + 1)), digits.drop (digits.length - (e + 1)))
    else (['0'], List.replicate (e + 1 - digits.length) '0' ++ digits)

/-- Positional text, with a point only before digits. -/
def plain (d : Decimal) : List Char :=
  match d.split with
  | (whole, []) => whole
  | (whole, fraction) => whole ++ '.' :: fraction

/-- Positional text that always has a point and a digit after it. -/
def pointed (d : Decimal) : List Char :=
  match d.split with
  | (whole, []) => whole ++ ['.', '0']
  | (whole, fraction) => whole ++ '.' :: fraction

/-- The exponent of the leading digit. -/
def magnitude (d : Decimal) : Int :=
  (Nat.toDigits 10 d.coefficient).length - 1 + d.exponent

/-- Text with the point after the leading digit and a signed exponent. -/
def scientific (d : Decimal) : List Char :=
  let mantissa := match Nat.toDigits 10 d.coefficient with
    | [] => []
    | [digit] => [digit]
    | digit :: digits => digit :: '.' :: digits
  let sign := if d.magnitude < 0 then '-' else '+'
  mantissa ++ 'e' :: sign :: Nat.toDigits 10 d.magnitude.natAbs

end Decimal

namespace Binary

variable {F : Format}

/-- The sign of a number before the text of its magnitude. -/
def withSign (negative : Bool) (magnitude : List Char) : List Char :=
  if negative then '-' :: magnitude else magnitude

/-- The text of a number: the fewest digits that read back, never with an exponent, and
the upper one of two equally near decimals. -/
def text : Binary F → List Char
  | .nan => ['N', 'a', 'N']
  | .infinity negative => withSign negative ['i', 'n', 'f']
  | .finite negative units _ => withSign negative (Decimal.shortest F .up units).plain

end Binary

end Criteria
