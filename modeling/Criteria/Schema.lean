import Criteria.Record

/-!
# Schemas

A schema lists the fields of a record type under distinct names. A field is a name for a
slot, so it has no storage of its own: fields with different names may share a slot.
Registering a name again replaces the earlier field, and the new one comes last.
-/

namespace Criteria

/-- A name for a slot of a record type. -/
structure Field (R : RecordType) where
  name : String
  slot : R.Slot
deriving DecidableEq

namespace Field

variable {R : RecordType}

/-- What the field's slot stores. -/
def storage (f : Field R) : StorageType :=
  R.storage f.slot

/-- The kind of the values that the field yields. -/
def kind (f : Field R) : Kind :=
  f.storage.kind

/-- The value of the field in a record. -/
def read (f : Field R) (r : Record R) : Value :=
  f.storage.toValue (r f.slot)

/-- The value as the field would hold it. -/
def convert (f : Field R) (v : Value) : Except ConversionError Value :=
  (f.storage.ofValue v).map f.storage.toValue

/-- The record with the field set to the value as the field would hold it. -/
def write (f : Field R) (r : Record R) (v : Value) : Except ConversionError (Record R) :=
  (f.storage.ofValue v).map (r.set f.slot)

/-- A description of the field for diagnostics. -/
def describe (f : Field R) : String :=
  "FieldAccessor \x7b name: " ++ Text.quote f.name ++ ", field_type: " ++ f.kind.label ++ " \x7d"

end Field

/-- The fields of a record type in order, no two of one name. -/
structure Schema (R : RecordType) where
  fields : List (Field R)
  names_nodup : (fields.map Field.name).Nodup

namespace Schema

variable {R : RecordType}

/-- The names of the fields in order. -/
def names (S : Schema R) : List String :=
  S.fields.map Field.name

/-- The field of the given name. -/
def resolve (S : Schema R) (name : String) : Option (Field R) :=
  S.fields.find? fun f => f.name == name

/-- The schema without fields. -/
def empty (R : RecordType) : Schema R :=
  ⟨[], List.nodup_nil⟩

/-- Adds a field at the end in place of an earlier one of its name. -/
def register (S : Schema R) (f : Field R) : Schema R where
  fields := S.fields.filter (fun g => g.name != f.name) ++ [f]
  names_nodup := by
    rw [List.map_append, List.nodup_append]
    refine ⟨?_, by simp, by grind⟩
    exact S.names_nodup.sublist (List.filter_sublist.map _)

/-- The schema that results from registering fields one after another. -/
def ofList (fs : List (Field R)) : Schema R :=
  fs.foldl register (empty R)

/-- A description of the schema for diagnostics. -/
def describe (S : Schema R) : String :=
  "RecordSchema \x7b record: " ++ Text.quote R.name ++ ", fields: [" ++
    ", ".intercalate (S.fields.map Field.describe) ++ "] \x7d"

end Schema

/-- A typed name of a field: the values given with it are contents of the storage type. -/
structure FieldKey (s : StorageType) where
  name : String

/-- A description of the key for diagnostics. -/
def FieldKey.describe {s : StorageType} (key : FieldKey s) : String :=
  "FieldKey(" ++ Text.quote key.name ++ ")"

end Criteria
