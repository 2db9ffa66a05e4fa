import Criteria.Value.Conversion

/-!
# Records

A record type has a name and a list of storage slots, and a record gives every slot a
content of the slot's storage type. A value enters a slot by conversion to the storage
type, and the content of a slot is seen as a value of the kind of its storage type. A
record type also says what a record holds before anything is written to it.
-/

namespace Criteria

/-- What a slot of a record stores. -/
inductive StorageType
  | int (type : IntType)
  | single
  | double
  | bool
  | text
deriving DecidableEq, Repr

namespace StorageType

/-- The contents that a storage type allows. -/
def Carrier : StorageType → Type
  | .int type => Integer type
  | .single => Single
  | .double => Double
  | .bool => Bool
  | .text => String

/-- The kind of value that a storage type yields. -/
def kind : StorageType → Kind
  | .int _ => .int
  | .single | .double => .float
  | .bool => .bool
  | .text => .text

/-- Zero, false or the empty text. -/
def initial : (s : StorageType) → s.Carrier
  | .int type => Integer.zero type
  | .single => Binary.zero (F := .single) false
  | .double => Binary.zero (F := .double) false
  | .bool => false
  | .text => ""

/-- The value that a content stands for. -/
def toValue : (s : StorageType) → s.Carrier → Value
  | .int _, n => .int (Integer.widen n)
  | .single, x => .float (Binary.reformat (G := .single) x)
  | .double, x => .float x
  | .bool, b => .bool b
  | .text, s => .text s

/-- The content that a value converts to. An integer that is out of the range of a narrow
type is refused, and the error names the value as it was given. -/
def ofValue (s : StorageType) (v : Value) : Except ConversionError s.Carrier :=
  let content : Except ConversionFault s.Carrier :=
    match s with
    | .int type =>
      v.toInt.bind fun i =>
        match Integer.ofInt? type i.val with
        | some n => .ok n
        | none => .error (.tooWide type)
    | .single => v.toDouble.map Binary.reformat
    | .double => v.toDouble
    | .bool => v.toBool
    | .text => .ok v.toText
  content.mapError fun fault => ⟨v, s.kind, fault⟩

/-- The content that a value becomes in two stages: it is converted to the kind of the storage
type, and what came out is narrowed. Where the conversion gave a value of another kind,
`otherwise` would have to decide. -/
def ofValueInStages
    (s : StorageType) (otherwise : Value → Except ConversionError s.Carrier) (v : Value) :
    Except ConversionError s.Carrier :=
  (v.convert s.kind).bind fun converted =>
    match s, otherwise, converted with
    | .int type, _, .int i =>
      match Integer.ofInt? type i.val with
      | some n => .ok n
      | none => .error ⟨v, .int, .tooWide type⟩
    | .single, _, .float x => .ok (Binary.reformat x)
    | .double, _, .float x => .ok x
    | .bool, _, .bool b => .ok b
    | .text, _, .text t => .ok t
    | _, otherwise, converted => otherwise converted

/-- What would be done with a value of another kind makes no difference. -/
theorem ofValueInStages_eq
    (s : StorageType) (otherwise : Value → Except ConversionError s.Carrier) (v : Value) :
    s.ofValueInStages otherwise v = s.ofValue v := by
  cases s with
  | int type =>
      rw [ofValueInStages, ofValue, kind, Value.convert]
      cases v.toInt with
      | error fault => rfl
      | ok i =>
          -- Both sides narrow the same integer; only the error is put together elsewhere.
          change (match Integer.ofInt? type i.val with
              | some n => Except.ok n
              | none => Except.error (⟨v, .int, .tooWide type⟩ : ConversionError)) =
            Except.mapError (fun fault => ⟨v, .int, fault⟩) (match Integer.ofInt? type i.val with
              | some n => .ok n
              | none => .error (.tooWide type))
          cases Integer.ofInt? type i.val <;> rfl
  | single =>
      rw [ofValueInStages, ofValue, kind, Value.convert]
      cases v.toDouble <;> rfl
  | double =>
      rw [ofValueInStages, ofValue, kind, Value.convert]
      cases v.toDouble <;> rfl
  | bool =>
      rw [ofValueInStages, ofValue, kind, Value.convert]
      cases v.toBool <;> rfl
  | text => rfl

end StorageType

/-- A type of records: its name, for messages, its storage slots, and what they hold at
first. -/
structure RecordType where
  name : String
  slots : List StorageType
  initial : (slot : Fin slots.length) → (slots.get slot).Carrier :=
    fun slot => (slots.get slot).initial

/-- The places of a record type that hold a content. -/
abbrev RecordType.Slot (R : RecordType) : Type :=
  Fin R.slots.length

/-- What a slot stores. -/
def RecordType.storage (R : RecordType) (slot : R.Slot) : StorageType :=
  R.slots.get slot

/-- A record: a content for every slot. -/
def Record (R : RecordType) : Type :=
  (slot : R.Slot) → (R.storage slot).Carrier

namespace Record

variable {R : RecordType}

/-- The record to which nothing has been written. -/
def initial (R : RecordType) : Record R :=
  R.initial

/-- The record with one slot's content replaced. -/
def set (r : Record R) (slot : R.Slot) (content : (R.storage slot).Carrier) : Record R :=
  fun other => if h : other = slot then h ▸ content else r other

@[simp]
theorem set_same (r : Record R) (slot : R.Slot) (content : (R.storage slot).Carrier) :
    r.set slot content slot = content := by
  simp [set]

theorem set_other (r : Record R) {slot other : R.Slot}
    (content : (R.storage slot).Carrier) (h : other ≠ slot) :
    r.set slot content other = r other := by
  simp [set, h]

end Record

end Criteria
