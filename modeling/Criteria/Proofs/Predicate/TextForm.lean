import Criteria.Proofs.Clause.Fulfilment
import Criteria.Proofs.Predicate.Readability
import Criteria.Proofs.Predicate.Single
import Criteria.Proofs.Reading

/-!
# A constant and its text

Every value has a text, and the text of an integer, a float or a truth value converts back to
that value.  A field converts what it is given to its own kind before it does anything else, so
it cannot tell such a value from its text: both are refused, or both become the same constant
and hence the same predicate.
-/

namespace Criteria

/-- The characters of unquoted constants are not blank. -/
theorem Text.isBlank_of_inToken {c : Char} (h : inToken c = true) : isBlank c = false := by
  have hcode : 0x2D ≤ c.toNat ∧ c.toNat ≤ 0x7A := by
    change ((decide (c.val ≥ 'A'.val ∧ c.val ≤ 'Z'.val) || (c.val ≥ 'a'.val && c.val ≤ 'z'.val) ||
      (c.val ≥ '0'.val && c.val ≤ '9'.val)) || c == '-' || c == '.') = true at h
    simp only [Bool.or_eq_true, Bool.and_eq_true, decide_eq_true_eq, beq_iff_eq,
      UInt32.le_iff_toNat_le, ge_iff_le] at h
    rcases h with (((h | h) | h) | rfl) | rfl
    · exact ⟨le_trans (by decide) h.1, le_trans h.2 (by decide)⟩
    · exact ⟨le_trans (by decide) h.1, le_trans h.2 (by decide)⟩
    · exact ⟨le_trans (by decide) h.1, le_trans h.2 (by decide)⟩
    · decide
    · decide
  simp [isBlank]
  omega

theorem Text.trim_of_inToken {s : List Char} (h : ∀ c ∈ s, inToken c = true) : trim s = s :=
  trim_of_bare (bare_of_forall fun c hc => isBlank_of_inToken (h c hc))

namespace Value

theorem toInt_text_decimal (i : Integer .i64) :
    (Value.text (String.ofList (Integer.decimal i.val))).toInt = .ok i := by
  rw [toInt_text_eq_ok_iff, String.toList_ofList,
    Text.trim_of_inToken (Integer.inToken_of_mem_decimal i.val), Integer.read_decimal]

theorem toDouble_text_text (x : Double) :
    (Value.text (String.ofList x.text)).toDouble = .ok x := by
  rw [toDouble, String.toList_ofList, Text.trim_of_inToken x.inToken_of_mem_text, Binary.read_text]
  rfl

theorem toBool_text_boolText (b : Bool) : (Value.text (boolText b)).toBool = .ok b := by
  cases b <;> rfl

/-- The text of a value that is no text converts back to the value. -/
theorem convert_text_toText {v : Value} (h : v.kind ≠ .text) :
    (Value.text v.toText).convert v.kind = .ok v := by
  cases v with
  | bool b => exact convert_bool_eq_ok_iff.mpr ⟨b, toBool_text_boolText b, rfl⟩
  | int i => exact convert_int_eq_ok_iff.mpr ⟨i, toInt_text_decimal i, rfl⟩
  | float x => exact convert_float_eq_ok_iff.mpr ⟨x, toDouble_text_text x, rfl⟩
  | text s => exact absurd rfl h

end Value

variable {R : RecordType}

/-- A field cannot tell apart two values that convert to the same value of its kind. -/
theorem Field.convert_congr_of_convert
    {f : Field R} {v w u : Value} (hv : v.convert f.kind = .ok u) (hw : w.convert f.kind = .ok u)
    (constant : Value) : f.convert v = .ok constant ↔ f.convert w = .ok constant := by
  have hcontent : ∀ {v' : Value}, v'.convert f.kind = .ok u → ∀ x,
      f.storage.ofValue v' = .ok x ↔ f.storage.ofValue u = .ok x := by
    intro v' hv' x
    rw [StorageType.ofValue_eq_ok_iff_convert]
    constructor
    · rintro ⟨u', hu', hx⟩
      obtain rfl := Except.ok.inj (hv'.symm.trans hu')
      exact hx
    · intro hx
      exact ⟨u, hv', hx⟩
  simp only [convert_eq_ok, hcontent hv, hcontent hw]

namespace Predicate

open QueryClause (samples sampleSchema)

/-- A single criterion whose value does not convert does not compile. -/
theorem exists_compile_single_eq_error
    {S : Schema R} {name : String} {f : Field R} {comparison : Comparison} {v : Value}
    (hf : S.resolve name = some f) (hnone : ∀ constant, f.convert v ≠ .ok constant) :
    ∃ e, compile S (Filter.single name comparison v).criteria = .error e := by
  cases hcompile : compile S (Filter.single name comparison v).criteria with
  | error e => exact ⟨e, rfl⟩
  | ok p =>
      obtain ⟨hfits, -⟩ := exists_compile_iff.mp ⟨p, hcompile⟩
      obtain ⟨-, constant, hconstant⟩ := hfits (.single .and name comparison v)
        (Criterion.mem_preorder_of_mem (List.mem_singleton.mpr rfl)) f hf
      exact absurd hconstant (hnone constant)

/-- Conversion to text and back loses nothing: an integer, a float or a truth value has a text,
and the text converts back to the value, a NaN to a NaN and minus zero to minus zero.  A single
criterion for a field of such a kind therefore compiles with a value of that kind exactly if it
does with the text of the value, and then to the same predicate. -/
theorem texts_convert_back :
    (∀ v : Value, v.kind ≠ .text →
      ∃ s, v.convert .text = .ok (.text s) ∧ (Value.text s).convert v.kind = .ok v) ∧
    ∀ {R : RecordType} (S : Schema R) (name : String) (f : Field R) (v : Value) (s : String)
      (comparison : Comparison),
      S.resolve name = some f → f.kind ≠ .text → v.kind = f.kind → comparison ≠ .contains →
      v.convert .text = .ok (.text s) →
        ((∃ e, compile S (Filter.single name comparison v).criteria = .error e) ∧
          ∃ e, compile S (Filter.single name comparison (.text s)).criteria = .error e) ∨
        ∃ p, compile S (Filter.single name comparison v).criteria = .ok p ∧
          compile S (Filter.single name comparison (.text s)).criteria = .ok p := by
  refine ⟨?_, ?_⟩
  · intro v hkind
    exact ⟨v.toText, rfl, Value.convert_text_toText hkind⟩
  · intro R S name f v s comparison hf htext hkind hcontains hs
    obtain rfl := Value.text.inj (Value.convert_text_eq_ok_iff.mp hs)
    have hsame : ∀ constant, f.convert v = .ok constant ↔
        f.convert (.text v.toText) = .ok constant := by
      refine Field.convert_congr_of_convert (u := v) ?_ ?_
      · rw [← hkind]
        exact v.convert_kind
      · rw [← hkind] at htext ⊢
        exact Value.convert_text_toText htext
    by_cases hconverts : ∃ constant, f.convert v = .ok constant
    · right
      obtain ⟨constant, hconstant⟩ := hconverts
      exact ⟨_, compile_single hf hconstant fun h => absurd h hcontains,
        compile_single hf ((hsame constant).mp hconstant) fun h => absurd h hcontains⟩
    · left
      have hnone : ∀ constant, f.convert v ≠ .ok constant := not_exists.mp hconverts
      refine ⟨exists_compile_single_eq_error hf hnone, exists_compile_single_eq_error hf ?_⟩
      intro constant hconstant
      exact hnone constant ((hsame constant).mpr hconstant)

/-- Minus zero comes back from its text, a weight is compared with an infinity or with its text
alike, and a grade refuses 300 in both forms. -/
theorem texts_convert_back_samples :
    (∃ s, (Value.float (Binary.zero true)).convert .text = .ok (.text s) ∧
      (Value.text s).convert .float = .ok (.float (Binary.zero true))) ∧
    (∃ p, compile sampleSchema
        (Filter.single "weight" .lessThan (.float (.infinity true))).criteria = .ok p ∧
      compile sampleSchema (Filter.single "weight" .lessThan (.text "-inf")).criteria = .ok p) ∧
    (∃ e, compile sampleSchema
      (Filter.single "grade" .equal (.int ⟨300, by decide, by decide⟩)).criteria = .error e) ∧
    ∃ e, compile sampleSchema (Filter.single "grade" .equal (.text "300")).criteria = .error e := by
  let weight : Field samples := ⟨"weight", (0 : Fin 3)⟩
  let grade : Field samples := ⟨"grade", (1 : Fin 3)⟩
  let large : Value := .int ⟨300, by decide, by decide⟩
  obtain ⟨hback, hsingle⟩ := texts_convert_back
  refine ⟨hback (.float (Binary.zero true)) (by decide), ?_, ?_⟩
  · have hconstant : weight.convert (.float (.infinity true)) = .ok (.float (.infinity true)) := rfl
    have hcompile := compile_single (show sampleSchema.resolve "weight" = some weight from rfl)
      hconstant fun h : Comparison.lessThan = .contains => by cases h
    obtain ⟨⟨e, he⟩, -⟩ | hsame := hsingle sampleSchema "weight" weight
      (.float (.infinity true)) "-inf" .lessThan rfl (by decide) rfl (by decide) rfl
    · rw [hcompile] at he
      cases he
    · exact hsame
  · have hnone : ∀ constant, grade.convert large ≠ .ok constant := by
      rintro constant ⟨⟩
    obtain hfail | ⟨p, hp, -⟩ := hsingle sampleSchema "grade" grade large "300" .equal
      rfl (by decide) rfl (by decide) rfl
    · exact hfail
    · obtain ⟨e, he⟩ := exists_compile_single_eq_error
        (show sampleSchema.resolve "grade" = some grade from rfl) hnone
      rw [he] at hp
      cases hp

end Predicate

end Criteria
