import Criteria.Json

/-!
# Printing JSON

The compact text of a document, without blanks. A string escapes the quote, the backslash
and the control characters below the space, and nothing else.
-/

namespace Criteria.Json

/-- One character of a printed string. -/
def escape (c : Char) : List Char :=
  match c with
  | '"' => ['\\', '"']
  | '\\' => ['\\', '\\']
  | '\x08' => ['\\', 'b']
  | '\x0c' => ['\\', 'f']
  | '\n' => ['\\', 'n']
  | '\r' => ['\\', 'r']
  | '\t' => ['\\', 't']
  | c =>
    if c.toNat < 0x20 then
      ['\\', 'u', '0', '0', Nat.digitChar (c.toNat / 16), Nat.digitChar (c.toNat % 16)]
    else [c]

/-- The characters of a printed string. -/
def quoted (s : String) : List Char :=
  '"' :: s.toList.flatMap escape ++ ['"']

mutual

/-- The characters of a printed document. Contents that are absent are printed as null. -/
def characters : Json → List Char
  | .null => "null".toList
  | .bool true => "true".toList
  | .bool false => "false".toList
  | .number spelling => spelling.toList
  | .string (some s) => quoted s
  | .string none => "null".toList
  | .array items => '[' :: itemCharacters items ++ [']']
  | .object members => '\x7b' :: memberCharacters members ++ ['\x7d']
termination_by structural j => j

/-- The items of an array with commas between them. -/
def itemCharacters : List Json → List Char
  | [] => []
  | [j] => characters j
  | j :: rest => characters j ++ ',' :: itemCharacters rest
termination_by structural items => items

/-- The name and the value of a member. -/
def pairCharacters : Option String × Json → List Char
  | (name, j) => quoted (name.getD "") ++ ':' :: characters j
termination_by structural member => member

/-- The members of an object with commas between them. -/
def memberCharacters : List (Option String × Json) → List Char
  | [] => []
  | [member] => pairCharacters member
  | member :: rest => pairCharacters member ++ ',' :: memberCharacters rest
termination_by structural members => members

end

/-- The text of a document. -/
def print (j : Json) : String :=
  String.ofList j.characters

end Criteria.Json
