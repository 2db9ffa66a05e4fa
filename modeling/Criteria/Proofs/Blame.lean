import Criteria.Proofs.Clause.Binding
import Criteria.Proofs.Combination.Lockstep
import Criteria.Proofs.Conversion
import Criteria.Proofs.Predicate.Compilation

/-!
# Whose value an error holds

A storage type takes a value in two stages: it converts the value to its own kind, and then
narrows what came out.  An error of either stage holds the value that was to be stored, never
the one in between, and the second stage never meets a value of another kind.  So an error
that a filter fails with points back at a criterion whose value was refused as it was written.
A constant, which was converted before, is written without a further error.
-/

namespace Criteria

/-! ## The errors of a storage type -/

namespace StorageType

/-- An error holds the value that was to be stored and the kind of the storage type. -/
theorem error_of_ofValue
    {s : StorageType} {v : Value} {e : ConversionError} (h : s.ofValue v = .error e) :
    e.value = v ∧ e.target = s.kind := by
  obtain ⟨fault, -, rfl⟩ := exists_of_mapError_eq_error h
  exact ⟨rfl, rfl⟩

end StorageType

theorem ConversionFault.message_ne_expectation (fault : ConversionFault) (kind : Kind) :
    fault.message ≠ kind.expectation := by
  cases fault with
  | outOfRange => cases kind <;> decide
  | notInteger fault => cases fault <;> cases kind <;> decide
  | notNumber fault => cases fault <;> cases kind <;> decide
  | notTruthValue => cases kind <;> decide
  | tooWide type => cases type <;> cases kind <;> decide

variable {R : RecordType}

namespace Field

theorem error_of_convert
    {f : Field R} {v : Value} {e : ConversionError} (h : f.convert v = .error e) :
    e.value = v ∧ e.target = f.kind := by
  apply StorageType.error_of_ofValue
  rw [convert] at h
  cases hcontent : f.storage.ofValue v with
  | ok x => simp [hcontent, Except.map] at h
  | error e' => simpa [hcontent, Except.map] using h

end Field

/-! ## The criterion to blame -/

namespace Criterion

/-- A criterion is to blame for an error of conversion if the error stands under the name of its
field and holds its own value, which the field refuses, and the kind of the field. -/
structure ToBlame (S : Schema R) (field : String) (e : ConversionError) (c : Criterion) : Prop where
  named : c.field = field
  value : e.value = c.value
  refused : ∃ f, S.resolve c.field = some f ∧ e.target = f.kind ∧ f.convert c.value = .error e

theorem toBlame_of_misfit?
    {S : Schema R} {field : String} {e : ConversionError} {c : Criterion}
    (h : c.misfit? S = some (.conversion field e)) : c.ToBlame S field e := by
  rw [misfit?] at h
  split at h
  next => simp at h
  next f hf =>
    split at h
    next => simp at h
    next =>
      split at h
      next => simp at h
      next e' hrefused =>
        obtain ⟨rfl, rfl⟩ : c.field = field ∧ e' = e := by simpa using h
        obtain ⟨hvalue, htarget⟩ := Field.error_of_convert hrefused
        exact ⟨rfl, hvalue, f, hf, htarget, hrefused⟩

/-- A constant is written as it is, whatever the record holds. -/
theorem exists_write_of_constant
    {f : Field R} {c : Criterion} {constant : Value} (h : c.constant f = .ok constant)
    (r : Record R) : ∃ r', f.write r constant = .ok r' ∧ f.read r' = constant := by
  rw [Criterion.constant] at h
  split at h
  next => simp at h
  next =>
    obtain ⟨x, hwrite, hread⟩ := Field.write_convert (mapError_eq_ok_iff.mp h) r
    exact ⟨r.set f.slot x, hwrite, hread⟩

end Criterion

namespace Predicate

open Combination Criterion

theorem toBlame_of_element
    {S : Schema R} {c : Criterion} {field : String} {e : ConversionError} {s s' : Unit}
    (h : element S c s = .error (.conversion field e) s') : c.ToBlame S field e := by
  apply toBlame_of_misfit?
  rw [element_apply] at h
  cases hmisfit : c.misfit? S with
  | none => simp [hmisfit] at h
  | some e' => simpa [hmisfit] using h

theorem exists_toBlame_of_compile
    {S : Schema R} {cs : List Criterion} {field : String} {e : ConversionError}
    (h : compile S cs = .error (.conversion field e)) :
    ∃ c ∈ preorder cs, c.ToBlame S field e := by
  obtain ⟨s, hwalk⟩ := Walk.map_outcome_eq_error.mp h
  rcases causes_of_combine_eq_error hwalk with ⟨group, hgroup⟩ | ⟨c, hc, s, s', hask⟩
  · cases hgroup
  · exact ⟨c, hc, toBlame_of_element hask⟩

end Predicate

namespace QueryClause

open Combination Criterion

theorem toBlame_of_element
    {S : Schema R} {c : Criterion} {field : String} {e : ConversionError} {b b' : Bindings R}
    (h : element S c b = .error (.conversion field e) b') : c.ToBlame S field e := by
  apply toBlame_of_misfit?
  cases hrefusal : c.refusal? S b.parameters with
  | none =>
      obtain ⟨b'', helement, -⟩ := element_apply_of_not_refused hrefusal
      simp [helement] at h
  | some e' =>
      obtain ⟨rfl, -⟩ : e' = .conversion field e ∧ b = b' := by
        simpa [element_apply_of_refused hrefusal] using h
      rw [refusal?] at hrefusal
      split at hrefusal
      next => simp at hrefusal
      next =>
        split at hrefusal
        next => simp at hrefusal
        next => exact hrefusal

theorem exists_toBlame_of_generate
    {options : ClauseOptions} {S : Schema R} {cs : List Criterion} {field : String}
    {e : ConversionError} (h : generate options S cs = .error (.conversion field e)) :
    ∃ c ∈ preorder cs, c.ToBlame S field e := by
  obtain ⟨b, hwalk⟩ := Walk.map_outcome_eq_error.mp h
  rcases causes_of_combine_eq_error hwalk with ⟨group, hgroup⟩ | ⟨c, hc, b, b', hask⟩
  · cases hgroup
  · exact ⟨c, hc, toBlame_of_element hask⟩

end QueryClause

open Criterion

/-- A conversion that succeeds gives a value of the wanted kind.  An error of a storage type
holds the value that was to be stored and the kind of the storage type; what would be done with
a converted value of another kind makes no difference, and no error speaks of one.  A filter
that fails on a conversion, compiled or made a query clause, has a criterion of the field that
the error names, with the value that the error holds and a field of the kind that it wants,
which refuses the value.  A constant is written as it is, whatever the record holds. -/
theorem conversion_errors_name_given_values :
    (∀ (v w : Value) (target : Kind), v.convert target = .ok w → w.kind = target) ∧
    (∀ (s : StorageType) (v : Value),
      (∀ e, s.ofValue v = .error e →
        e.value = v ∧ e.target = s.kind ∧ ∀ kind, e.fault.message ≠ Kind.expectation kind) ∧
      ∀ otherwise, s.ofValueInStages otherwise v = s.ofValue v) ∧
    ∀ {R : RecordType} (S : Schema R),
      (∀ cs field e, Predicate.compile S cs = .error (.conversion field e) →
        ∃ c ∈ preorder cs, c.ToBlame S field e) ∧
      (∀ options cs field e, QueryClause.generate options S cs = .error (.conversion field e) →
        ∃ c ∈ preorder cs, c.ToBlame S field e) ∧
      ∀ (c : Criterion) (f : Field R) (constant : Value), c.constant f = .ok constant →
        ∀ r, ∃ r', f.write r constant = .ok r' ∧ f.read r' = constant := by
  refine ⟨fun _ _ _ h => Value.kind_of_convert h, ?_, ?_⟩
  · intro s v
    refine ⟨?_, fun otherwise => s.ofValueInStages_eq otherwise v⟩
    intro e h
    obtain ⟨hvalue, htarget⟩ := StorageType.error_of_ofValue h
    exact ⟨hvalue, htarget, e.fault.message_ne_expectation⟩
  · intro R S
    refine ⟨?_, ?_, ?_⟩
    · intro cs field e h
      exact Predicate.exists_toBlame_of_compile h
    · intro options cs field e h
      exact QueryClause.exists_toBlame_of_generate h
    · intro c f constant h r
      exact exists_write_of_constant h r

/-- Parcels with a note, or with a number that does not fit in a byte. -/
def notedOrOverfull : List Criterion :=
  [⟨.and, "note", .contains, .bool true, [⟨.and, "number", .equal, .text " 300 ", []⟩]⟩]

theorem conversion_errors_name_given_values_notedOrOverfull :
    let given : Value := .text " 300 "
    let error : ConversionError := ⟨given, .int, .tooWide .u8⟩
    let note : Field parcels := ⟨"note", (1 : Fin 2)⟩
    (∃ w, given.convert .int = .ok w ∧ w.kind = .int) ∧
    ((StorageType.int .u8).ofValue given = .error error ∧ error.value = given ∧
      error.target = .int) ∧
    (Predicate.compile parcelSchema notedOrOverfull = .error (.conversion "number" error) ∧
      ∃ c ∈ preorder notedOrOverfull, c.ToBlame parcelSchema "number" error) ∧
    (QueryClause.generate {} parcelSchema notedOrOverfull = .error (.conversion "number" error) ∧
      ∃ c ∈ preorder notedOrOverfull, c.ToBlame parcelSchema "number" error) ∧
    ∃ c ∈ notedOrOverfull, c.constant note = .ok (.text "true") ∧
      ∀ r, ∃ r', note.write r (.text "true") = .ok r' ∧ note.read r' = .text "true" := by
  intro given error note
  obtain ⟨hkind, hstored, hfilter⟩ := conversion_errors_name_given_values
  obtain ⟨hcompile, hgenerate, hwrite⟩ := hfilter parcelSchema
  have hconvert : given.convert .int = .ok (.int ⟨300, by decide, by decide⟩) := rfl
  have hrefused : (StorageType.int .u8).ofValue given = .error error := rfl
  have hfails : Predicate.compile parcelSchema notedOrOverfull =
      .error (.conversion "number" error) := rfl
  have hfails' : QueryClause.generate {} parcelSchema notedOrOverfull =
      .error (.conversion "number" error) := rfl
  obtain ⟨c, hc, hconstant⟩ :
      ∃ c ∈ notedOrOverfull, c.constant note = .ok (.text "true") :=
    ⟨_, List.mem_singleton.mpr rfl, rfl⟩
  obtain ⟨hvalue, htarget, -⟩ := (hstored (.int .u8) given).1 error hrefused
  refine ⟨⟨_, hconvert, hkind _ _ _ hconvert⟩, ⟨hrefused, hvalue, htarget⟩,
    ⟨hfails, hcompile _ _ _ hfails⟩, ⟨hfails', hgenerate _ _ _ _ hfails'⟩, ?_⟩
  exact ⟨c, hc, hconstant, hwrite c note _ hconstant⟩

end Criteria
