import Criteria.Text.Printable

/-!
# Quoted texts

The form in which a text appears inside a message or a rendered predicate: between
double quotes, with the quote, the backslash and every character without a visible
form escaped. The escapes of two different characters differ and none starts another,
so a quoted text determines the text.
-/

namespace Criteria.Text

/-- One character of a quoted text. -/
def escape (c : Char) : List Char :=
  match c with
  | '"' => ['\\', '"']
  | '\\' => ['\\', '\\']
  | '\n' => ['\\', 'n']
  | '\r' => ['\\', 'r']
  | '\t' => ['\\', 't']
  | '\x00' => ['\\', '0']
  | c =>
    if isPrintable c then [c]
    else ['\\', 'u', '\x7b'] ++ Nat.toDigits 16 c.toNat ++ ['\x7d']

/-- A text between double quotes, with escapes where they are needed. -/
def quote (s : String) : String :=
  String.ofList ('"' :: s.toList.flatMap escape ++ ['"'])

end Criteria.Text
