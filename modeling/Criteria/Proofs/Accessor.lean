import Criteria.Proofs.Fitting
import Criteria.Proofs.Number.Widening

/-!
# Writing and reading fields

A value that a field yields is one that the field can hold, so converting it again or
writing it changes nothing.  A write is therefore read back as the converted value, and it
disturbs no field that stands for another slot.
-/

namespace Criteria

variable {R : RecordType}

theorem StorageType.ofValue_toValue (s : StorageType) (x : s.Carrier) :
    s.ofValue (s.toValue x) = .ok x := by
  cases s with
  | int type =>
      have hfits : Integer.ofInt? type (Integer.widen x).val = some x :=
        Integer.ofInt?_val x
      simp only [ofValue, toValue, Value.toInt, Except.bind, hfits]
      rfl
  | single =>
      have hback := Binary.reformat_reformat Format.single_within_double x
      exact congrArg Except.ok hback
  | double => rfl
  | bool => rfl
  | text => rfl

theorem StorageType.kind_toValue (s : StorageType) (x : s.Carrier) :
    (s.toValue x).kind = s.kind := by
  cases s <;> rfl

namespace Field

theorem convert_eq_ok {f : Field R} {v w : Value} :
    f.convert v = .ok w ↔ ∃ x, f.storage.ofValue v = .ok x ∧ f.storage.toValue x = w := by
  rw [convert]
  cases f.storage.ofValue v <;> simp [Except.map]

theorem kind_of_convert {f : Field R} {v w : Value} (h : f.convert v = .ok w) :
    w.kind = f.kind := by
  obtain ⟨x, -, rfl⟩ := convert_eq_ok.mp h
  exact f.storage.kind_toValue x

theorem held_of_convert {f : Field R} {v w : Value} (h : f.convert v = .ok w) :
    f.held v = w := by
  rw [held, h]

theorem write_convert
    {f : Field R} {v w : Value} (h : f.convert v = .ok w) (r : Record R) :
    ∃ x, f.write r w = .ok (r.set f.slot x) ∧ f.read (r.set f.slot x) = w := by
  obtain ⟨x, -, rfl⟩ := convert_eq_ok.mp h
  refine ⟨x, ?_, ?_⟩
  · rw [write, StorageType.ofValue_toValue]
    rfl
  · exact congrArg f.storage.toValue (Record.set_same r f.slot x)

theorem read_set_other
    {f g : Field R} (h : g.slot ≠ f.slot) (r : Record R) (x : f.storage.Carrier) :
    g.read (r.set f.slot x) = g.read r :=
  congrArg g.storage.toValue (Record.set_other r x h)

end Field

/-- Fields of different names stand for different slots. -/
def Schema.Separate (S : Schema R) : Prop :=
  ∀ f ∈ S.fields, ∀ g ∈ S.fields, f.name ≠ g.name → f.slot ≠ g.slot

theorem parcelSchema_separate : parcelSchema.Separate := by
  rw [Schema.Separate]
  decide

end Criteria
