import Criteria.Number.Decimal

/-!
# Reading numbers from text

The decimal numerals that a text can hold: digits with an optional point among or around
them, an optional sign, an optional exponent, and in place of the digits the words for
infinity and NaN in any case. The number read is the one nearest to the numeral.
-/

namespace Criteria

/-- Why a text is no number. -/
inductive NumeralFault
  | empty
  | invalid
deriving DecidableEq, Repr

/-- The text of a fault. -/
def NumeralFault.message : NumeralFault → String
  | .empty => "cannot parse float from empty string"
  | .invalid => "invalid float literal"

namespace Numeral

/-- Takes an optional sign off; the flag tells whether it was a minus. -/
def sign : List Char → Bool × List Char
  | '-' :: rest => (true, rest)
  | '+' :: rest => (false, rest)
  | rest => (false, rest)

/-- The number that a text of decimal digits stands for. -/
def digits? (s : List Char) : Option Nat :=
  if !s.isEmpty && s.all Char.isDigit then some (Nat.ofDigitChars 10 s 0) else none

/-- What may follow the digits of a numeral: nothing, or an exponent. -/
def exponent? : List Char → Option Int
  | [] => some 0
  | c :: rest =>
    if c == 'e' || c == 'E' then
      let (negative, s) := sign rest
      (digits? s).map fun n => if negative then -(n : Int) else n
    else none

/-- Takes the digits after a point off, if a point comes next. -/
def fraction : List Char → List Char × List Char
  | '.' :: rest => (rest.takeWhile Char.isDigit, rest.dropWhile Char.isDigit)
  | rest => ([], rest)

/-- A numeral without a sign: at least one digit before or after the point. -/
def magnitude? (s : List Char) : Option Decimal :=
  let whole := s.takeWhile Char.isDigit
  let (places, rest) := fraction (s.dropWhile Char.isDigit)
  match digits? (whole ++ places), exponent? rest with
  | some coefficient, some exponent => some ⟨coefficient, exponent - places.length⟩
  | _, _ => none

end Numeral

namespace Binary

variable {F : Format}

/-- Reads a numeral or one of the words for infinity and NaN. A NaN has no sign. -/
def read : List Char → Except NumeralFault (Binary F)
  | [] => .error .empty
  | s =>
    let (negative, s) := Numeral.sign s
    let word := String.ofList (s.map Char.toLower)
    if word == "inf" || word == "infinity" then .ok (.infinity negative)
    else if word == "nan" then .ok .nan
    else match Numeral.magnitude? s with
      | some d => .ok (ofDecimal negative d)
      | none => .error .invalid

end Binary

end Criteria
