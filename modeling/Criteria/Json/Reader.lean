import Criteria.Json

/-!
# Reading JSON

The reader takes the strict syntax: no comments, no trailing commas, one value with
blanks around it. Each part of the reader gets the characters that are left and gives
back what it has read with the characters that remain.

Values nest, so their readers call each other; each call spends one unit of fuel, and
twice the number of characters is always enough.
-/

namespace Criteria.Json.Reader

/-- The blanks between tokens. -/
def isBlank (c : Char) : Bool :=
  c == ' ' || c == '\n' || c == '\t' || c == '\r'

/-- The characters from the next token on. -/
def token (s : List Char) : List Char :=
  s.dropWhile isBlank

/-! ## Numbers -/

/-- A nonempty run of digits. -/
def digits? (s : List Char) : Option (List Char × List Char) :=
  match s.takeWhile Char.isDigit with
  | [] => none
  | run => some (run, s.dropWhile Char.isDigit)

/-- The digits before the point: a single zero, or a run that does not start with one. -/
def whole? : List Char → Option (List Char × List Char)
  | '0' :: rest => some (['0'], rest)
  | s => digits? s

/-- The point and the digits after it, if there is a point. -/
def fraction? : List Char → Option (List Char × List Char)
  | '.' :: rest => (digits? rest).map fun (run, rest) => ('.' :: run, rest)
  | rest => some ([], rest)

/-- The sign of an exponent, which may be missing. -/
def exponentSign : List Char → List Char × List Char
  | '+' :: rest => (['+'], rest)
  | '-' :: rest => (['-'], rest)
  | rest => ([], rest)

/-- The exponent, if there is one. -/
def exponent? : List Char → Option (List Char × List Char)
  | [] => some ([], [])
  | c :: rest =>
    if c == 'e' || c == 'E' then
      let (sign, rest) := exponentSign rest
      (digits? rest).map fun (run, rest) => (c :: sign ++ run, rest)
    else some ([], c :: rest)

/-- The spelling of a number without a sign. -/
def magnitude? (s : List Char) : Option (List Char × List Char) := do
  let (whole, rest) ← whole? s
  let (fraction, rest) ← fraction? rest
  let (exponent, rest) ← exponent? rest
  return (whole ++ fraction ++ exponent, rest)

/-- The spelling of a number. -/
def number? : List Char → Option (List Char × List Char)
  | '-' :: rest => (magnitude? rest).map fun (spelling, rest) => ('-' :: spelling, rest)
  | s => magnitude? s

/-! ## Strings -/

/-- The number that a hexadecimal digit stands for. -/
def hexDigit? (c : Char) : Option Nat :=
  if c.isDigit then some (c.toNat - '0'.toNat)
  else if 'a' ≤ c ∧ c ≤ 'f' then some (c.toNat - 'a'.toNat + 10)
  else if 'A' ≤ c ∧ c ≤ 'F' then some (c.toNat - 'A'.toNat + 10)
  else none

/-- The unit that four hexadecimal digits name. -/
def hexUnit? (a b c d : Char) : Option Nat := do
  let a ← hexDigit? a
  let b ← hexDigit? b
  let c ← hexDigit? c
  let d ← hexDigit? d
  return ((a * 16 + b) * 16 + c) * 16 + d

/-- The character that a backslash and a letter stand for. -/
def escaped? : Char → Option Char
  | '"' => some '"'
  | '\\' => some '\\'
  | '/' => some '/'
  | 'b' => some '\x08'
  | 'f' => some '\x0c'
  | 'n' => some '\n'
  | 'r' => some '\r'
  | 't' => some '\t'
  | _ => none

/-- The units of a string up to its closing quote, before the units `read` in reverse.
A unit is a code point or a surrogate named by an escape. -/
def units? (read : List Nat) : List Char → Option (List Nat × List Char)
  | [] => none
  | '"' :: rest => some (read.reverse, rest)
  | '\\' :: 'u' :: a :: b :: c :: d :: rest =>
    match hexUnit? a b c d with
    | some u => units? (u :: read) rest
    | none => none
  | '\\' :: c :: rest =>
    match escaped? c with
    | some c => units? (c.toNat :: read) rest
    | none => none
  | c :: rest => if c.toNat < 0x20 then none else units? (c.toNat :: read) rest

/-- The characters of a string, where two surrogates that are partners make one. -/
def characters? : List Nat → Option (List Char)
  | [] => some []
  | u :: rest =>
    if 0xD800 ≤ u ∧ u < 0xDC00 then
      match rest with
      | v :: rest =>
        if 0xDC00 ≤ v ∧ v < 0xE000 then
          (characters? rest).map
            (Char.ofNat (0x10000 + (u - 0xD800) * 0x400 + (v - 0xDC00)) :: ·)
        else none
      | [] => none
    else if 0xDC00 ≤ u ∧ u < 0xE000 then none
    else (characters? rest).map (Char.ofNat u :: ·)

/-- The contents of a string after its opening quote. -/
def string? (s : List Char) : Option (Option String × List Char) :=
  (units? [] s).map fun (units, rest) => ((characters? units).map String.ofList, rest)

/-! ## Values -/

mutual

/-- A value, with blanks before it. -/
def value? : (fuel : Nat) → List Char → Option (Json × List Char)
  | 0, _ => none
  | fuel + 1, s =>
    match token s with
    | 'n' :: 'u' :: 'l' :: 'l' :: rest => some (.null, rest)
    | 't' :: 'r' :: 'u' :: 'e' :: rest => some (.bool true, rest)
    | 'f' :: 'a' :: 'l' :: 's' :: 'e' :: rest => some (.bool false, rest)
    | '"' :: rest => (string? rest).map fun (contents, rest) => (.string contents, rest)
    | '[' :: rest =>
      match token rest with
      | ']' :: rest => some (.array [], rest)
      | rest => (items? fuel rest).map fun (items, rest) => (.array items, rest)
    | '\x7b' :: rest =>
      match token rest with
      | '\x7d' :: rest => some (.object [], rest)
      | rest => (members? fuel rest).map fun (members, rest) => (.object members, rest)
    | s => (number? s).map fun (spelling, rest) => (.number (String.ofList spelling), rest)

/-- The items of an array up to its closing bracket, at least one. -/
def items? : (fuel : Nat) → List Char → Option (List Json × List Char)
  | 0, _ => none
  | fuel + 1, s =>
    match value? fuel s with
    | none => none
    | some (item, rest) =>
      match token rest with
      | ']' :: rest => some ([item], rest)
      | ',' :: rest => (items? fuel rest).map fun (items, rest) => (item :: items, rest)
      | _ => none

/-- The members of an object up to its closing brace, at least one. -/
def members? : (fuel : Nat) → List Char → Option (List (Option String × Json) × List Char)
  | 0, _ => none
  | fuel + 1, s =>
    match token s with
    | '"' :: rest =>
      match string? rest with
      | none => none
      | some (name, rest) =>
        match token rest with
        | ':' :: rest =>
          match value? fuel rest with
          | none => none
          | some (j, rest) =>
            match token rest with
            | '\x7d' :: rest => some ([(name, j)], rest)
            | ',' :: rest =>
              (members? fuel rest).map fun (members, rest) => ((name, j) :: members, rest)
            | _ => none
        | _ => none
    | _ => none

end

end Criteria.Json.Reader

namespace Criteria.Json

/-- Reads a document. -/
def read? (s : String) : Option Json :=
  let cs := s.toList
  match Reader.value? (2 * cs.length + 1) cs with
  | some (j, rest) => if (Reader.token rest).isEmpty then some j else none
  | none => none

end Criteria.Json
