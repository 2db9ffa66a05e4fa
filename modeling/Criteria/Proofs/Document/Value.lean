import Criteria.Document.Value
import Criteria.Proofs.Json.RoundTrip
import Criteria.Proofs.Number.Shortest
import Criteria.Proofs.Number.Spelling

/-!
# Values in documents are read back

The kind of a value is recovered from its spelling alone.  An integer is written with digits
and a minus sign only, and is never the numeral of minus zero, so it is read as an integer.
A finite float is written with a point or an exponent, so it is not; its digits then
determine it, and its sign is read off the spelling even where it is zero.  A float that is
not finite is written as null, which is read as no value at all.
-/

namespace Criteria

open Numeral (Layout)

namespace Numeral.Layout

variable {L : Layout}

theorem mem_characters_of_mem_unsigned {c : Char} (h : c ∈ L.unsigned) : c ∈ L.characters := by
  rw [characters, Binary.withSign]
  split
  · exact List.mem_cons_of_mem _ h
  · exact h

theorem point_mem_characters (h : L.places ≠ []) : '.' ∈ L.characters := by
  apply mem_characters_of_mem_unsigned
  rw [unsigned, fractionCharacters, if_neg h]
  simp

theorem exponent_mem_characters (h : L.power.isSome) : 'e' ∈ L.characters := by
  obtain ⟨p, hpower⟩ := Option.isSome_iff_exists.mp h
  apply mem_characters_of_mem_unsigned
  rw [unsigned, powerCharacters, hpower]
  simp [Power.characters]

end Numeral.Layout

namespace Binary

/-- A finite double has a spelling.  It is a numeral with a point or an exponent, and it
stands for the double. -/
theorem exists_layout_spelling
    (negative : Bool) {units : Nat} (hunits : Format.double.Represents units) :
    ∃ L : Layout, spelling? (.finite negative units hunits) = some L.characters ∧
      (L.places ≠ [] ∨ L.power.isSome) ∧
      (ofDecimal L.negative L.decimal : Double) = .finite negative units hunits := by
  have hback := Decimal.ofDecimal_shortest .even hunits negative
  have hzero : (Decimal.shortest .double .even units).coefficient = 0 →
      Decimal.shortest .double .even units = ⟨0, 0⟩ :=
    Decimal.shortest_of_coefficient_eq_zero hunits
  simp only [spelling?]
  generalize Decimal.shortest .double .even units = d at hback hzero
  by_cases hpositional : -5 ≤ d.magnitude ∧ d.magnitude < 16
  · obtain ⟨L, hcharacters, hnegative, hplaces, k, hdecimal⟩ :=
      Decimal.exists_layout_pointed negative hzero
    refine ⟨L, ?_, .inl hplaces, ?_⟩
    · rw [if_pos hpositional, hcharacters]
    · rw [hnegative, hdecimal, ofDecimal_shift, hback]
  · obtain ⟨L, hcharacters, hnegative, hpower, hdecimal⟩ :=
      Decimal.exists_layout_scientific negative d
    refine ⟨L, ?_, .inr hpower, ?_⟩
    · rw [if_neg hpositional, hcharacters]
    · rw [hnegative, hdecimal, hback]

end Binary

namespace Value

/-- Whether the value is no float, or a finite one. -/
def isFinite : Value → Bool
  | .float x => x.isFinite
  | _ => true

/-- A digit is neither a point nor the mark of an exponent. -/
theorem plain_of_isDigit {c : Char} (h : c.isDigit = true) :
    (c != '.' && c != 'e' && c != 'E') = true := by
  simp only [Bool.and_eq_true, bne_iff_ne]
  refine ⟨⟨?_, ?_⟩, ?_⟩ <;> · rintro rfl; cases h

theorem plain_of_spells {s : List Char} {n : Int} (h : Integer.Spells s n) :
    ∀ c ∈ s, (c != '.' && c != 'e' && c != 'E') = true := by
  cases h with
  | plain _ hdigits => exact fun c hc => plain_of_isDigit (hdigits c hc)
  | plus _ hdigits =>
      exact List.forall_mem_cons.mpr ⟨rfl, fun c hc => plain_of_isDigit (hdigits c hc)⟩
  | minus _ hdigits =>
      exact List.forall_mem_cons.mpr ⟨rfl, fun c hc => plain_of_isDigit (hdigits c hc)⟩

/-- An integer is written with digits and a minus sign, and zero without the sign. -/
theorem writtenIntegral_decimal (i : Int) : writtenIntegral (Integer.decimal i) = true := by
  have hdigits := Numeral.digits_toDigits i.natAbs
  have hplain := plain_of_spells (Integer.spells_decimal i)
  have hzero : Integer.decimal i ≠ ['-', '0'] := by
    intro hminus
    rw [Integer.decimal] at hminus
    split at hminus
    next hnegative =>
      have hnatAbs : i.natAbs = 0 := calc
        i.natAbs = Nat.ofDigitChars 10 (Nat.toDigits 10 i.natAbs) 0 :=
          Nat.ofDigitChars_ten_toDigits.symm
        _ = Nat.ofDigitChars 10 ['0'] 0 := by rw [(List.cons.inj hminus).2]
        _ = 0 := rfl
      omega
    next =>
      cases hdigits '-' (by simp [hminus])
  rw [writtenIntegral, Bool.and_eq_true, List.all_eq_true]
  exact ⟨hplain, by simpa using hzero⟩

/-- A numeral with a point or an exponent is not written as an integer. -/
theorem writtenIntegral_characters {L : Layout} (h : L.places ≠ [] ∨ L.power.isSome) :
    writtenIntegral L.characters = false := by
  have hall : ¬ ∀ c ∈ L.characters, (c != '.' && c != 'e' && c != 'E') = true := by
    intro hall
    rcases h with hplaces | hpower
    · cases hall '.' (Layout.point_mem_characters hplaces)
    · cases hall 'e' (Layout.exponent_mem_characters hpower)
  rw [← List.all_eq_true, Bool.not_eq_true] at hall
  rw [writtenIntegral, hall, Bool.false_and]

theorem ofSpelling?_decimal (i : Integer .i64) :
    ofSpelling? (Integer.decimal i.val) = some (.int i) := by
  rw [ofSpelling?, writtenIntegral_decimal, Integer.read_decimal]

theorem ofSpelling?_characters
    {L : Layout} (h : L.places ≠ [] ∨ L.power.isSome)
    {negative : Bool} {units : Nat} {hunits : Format.double.Represents units}
    (hvalue : (Binary.ofDecimal L.negative L.decimal : Double) = .finite negative units hunits) :
    ofSpelling? L.characters = some (.float (.finite negative units hunits)) := by
  have hfinite : finite? L.characters = some (.finite negative units hunits) := by
    rw [finite?, Binary.read_characters, hvalue]
  rw [ofSpelling?, writtenIntegral_characters h]
  simp only [hfinite]
  rfl

/-- The document of a value has a text. -/
theorem spelled_toJson (v : Value) : Json.Spelled v.toJson := by
  cases v with
  | bool b => exact .bool b
  | int i =>
      rw [toJson, ← Layout.characters_ofInt]
      exact .number _
  | float x =>
      cases x with
      | nan => exact .null
      | infinity negative => exact .null
      | finite negative units hunits =>
          obtain ⟨L, hspelling, -⟩ := Binary.exists_layout_spelling negative hunits
          simp only [toJson, hspelling]
          exact .number L
  | text s => exact .string s

/-- A value is read back from its document if it is finite, and otherwise none is. -/
theorem ofJson?_toJson (v : Value) :
    ofJson? v.toJson = if v.isFinite then some v else none := by
  cases v with
  | bool b => rfl
  | int i =>
      rw [toJson, ofJson?, String.toList_ofList, ofSpelling?_decimal]
      rfl
  | float x =>
      cases x with
      | nan => rfl
      | infinity negative => rfl
      | finite negative units hunits =>
          obtain ⟨L, hspelling, hform, hvalue⟩ := Binary.exists_layout_spelling negative hunits
          simp only [toJson, hspelling]
          rw [ofJson?, String.toList_ofList, ofSpelling?_characters hform hvalue]
          rfl
  | text s => rfl

end Value

end Criteria
