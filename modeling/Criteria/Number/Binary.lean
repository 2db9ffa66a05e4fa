/-!
# Binary floating-point numbers

A format fixes how many significant bits a number has and the range of its exponents.
Every finite number of a format is a whole multiple of its least positive number, the
*unit*, so a finite number is held as a sign and a count of units: the exponent is not
stored, it can be read off the count. Counting units makes comparison a comparison of
integers and rounding a division with remainder.

Equality and order are those of arithmetic: a NaN equals nothing and is ordered with
nothing, and the two zeros are equal. They are defined apart from each other.
-/

namespace Criteria

-- The powers of this library are those of core, whatever else is imported beside it.
attribute [scoped instance (high)] instPowNat

/-- A binary format: `precision` significant bits, a unit of `2 ^ -scale`, and finite
magnitudes below `2 ^ range` units. -/
structure Format where
  precision : Nat
  scale : Nat
  range : Nat
  precision_pos : 0 < precision := by decide
deriving DecidableEq

namespace Format

/-- The double format of 64 bits. -/
def double : Format where
  precision := 53
  scale := 1074
  range := 2098

/-- The single format of 32 bits. -/
def single : Format where
  precision := 24
  scale := 149
  range := 277

/-- The distance, in units, between neighbouring numbers around a magnitude. -/
def spacing (F : Format) (units : Nat) : Nat :=
  2 ^ (units.log2 + 1 - F.precision)

/-- A magnitude that the format represents: it needs no more bits than there are, and
it is not too large. -/
def Represents (F : Format) (units : Nat) : Prop :=
  F.spacing units ∣ units ∧ units < 2 ^ F.range

instance (F : Format) (units : Nat) : Decidable (F.Represents units) :=
  inferInstanceAs (Decidable (_ ∧ _))

theorem represents_zero (F : Format) : F.Represents 0 :=
  ⟨Nat.dvd_zero _, Nat.two_pow_pos _⟩

end Format

/-- A number of a binary format. -/
inductive Binary (F : Format)
  | nan
  | infinity (negative : Bool)
  | finite (negative : Bool) (units : Nat) (represented : F.Represents units)
deriving DecidableEq

/-- The numbers of the double format. -/
abbrev Double := Binary Format.double

/-- The numbers of the single format. -/
abbrev Single := Binary Format.single

namespace Binary

variable {F : Format}

/-- The zero of the given sign. -/
def zero (negative : Bool) : Binary F :=
  .finite negative 0 F.represents_zero

/-- A count of units with its sign. -/
def signed (negative : Bool) (units : Nat) : Int :=
  if negative then -units else units

/-- Equality of numbers. -/
def equals : Binary F → Binary F → Bool
  | .infinity m, .infinity n => m == n
  | .finite m a _, .finite n b _ => signed m a == signed n b
  | _, _ => false

/-- The order of two numbers, if they have one. -/
def compare? : Binary F → Binary F → Option Ordering
  | .nan, _ => none
  | _, .nan => none
  | .infinity m, .infinity n => some (compare n m)
  | .infinity m, .finite .. => some (if m then .lt else .gt)
  | .finite .., .infinity n => some (if n then .gt else .lt)
  | .finite m a _, .finite n b _ => some (compare (signed m a) (signed n b))

/-- Whether the number is neither infinite nor a NaN. -/
def isFinite : Binary F → Bool
  | .finite .. => true
  | _ => false

/-- Whether the number differs from zero; a NaN does. -/
def nonzero : Binary F → Bool
  | .finite _ units _ => units != 0
  | _ => true

end Binary

end Criteria
