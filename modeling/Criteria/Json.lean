/-!
# JSON documents

The syntax tree of a document. It keeps what reading into a number or a table would lose:
the spelling of numbers, the order of members, and names that occur twice.
-/

namespace Criteria

/-- A document. The contents of a string are absent where its escapes name a surrogate
without its partner, since no text has such a character. -/
inductive Json
  | null
  | bool (b : Bool)
  | number (spelling : String)
  | string (contents : Option String)
  | array (items : List Json)
  | object (members : List (Option String × Json))

namespace Json

instance : Inhabited Json := ⟨.null⟩

/-- The string with the given contents. -/
def ofString (s : String) : Json :=
  .string (some s)

/-- The object with the given members. -/
def ofMembers (members : List (String × Json)) : Json :=
  .object (members.map fun (name, j) => (some name, j))

/-- The contents of a string. -/
def text? : Json → Option String
  | .string contents => contents
  | _ => none

/-- The members with names among the given ones, provided that every member has a text
for a name and that no name among them occurs twice. -/
def known? (names : List String) (members : List (Option String × Json)) :
    Option (List (String × Json)) := do
  let named ← members.mapM fun (name, j) => name.map fun n => (n, j)
  let known := named.filter fun (name, _) => names.contains name
  if (known.map Prod.fst).Nodup then some known else none

end Json

end Criteria
