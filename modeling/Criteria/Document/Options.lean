import Criteria.Clause
import Criteria.Json

/-!
# Clause options in documents

The options are written as an object of two members. They may also be read from an array
of the same two parts, and what is missing at its end or in the object has its default.
-/

namespace Criteria.ClauseOptions

/-- Reads a qualifier, which may be null. -/
def qualifierOfJson? : Json → Option (Option String)
  | .null => some none
  | .string (some s) => some (some s)
  | _ => none

/-- Reads options from their two parts, either of which may be missing. -/
def ofParts? (mark qualifier : Option Json) : Option ClauseOptions := do
  let defaults : ClauseOptions := {}
  let mark ← match mark with
    | none => some defaults.mark
    | some j => j.text?
  let qualifier ← match qualifier with
    | none => some defaults.qualifier
    | some j => qualifierOfJson? j
  return ⟨mark, qualifier⟩

/-- Reads options from an object or an array. -/
def ofJson? : Json → Option ClauseOptions
  | .object members => do
    let known ← Json.known? ["placeholder_prefix", "qualifier"] members
    ofParts? (known.lookup "placeholder_prefix") (known.lookup "qualifier")
  | .array [] => ofParts? none none
  | .array [mark] => ofParts? (some mark) none
  | .array [mark, qualifier] => ofParts? (some mark) (some qualifier)
  | _ => none

/-- The document of options. -/
def toJson (options : ClauseOptions) : Json :=
  Json.ofMembers [
    ("placeholder_prefix", Json.ofString options.mark),
    ("qualifier", match options.qualifier with
      | some s => Json.ofString s
      | none => .null)]

end Criteria.ClauseOptions
