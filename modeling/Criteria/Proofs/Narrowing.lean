import Criteria.Proofs.Conversion
import Criteria.Proofs.Number.NearestNumber

/-!
# Conversion to integers

A field of integers takes the integer that a value stands for, if that is within the range of
its storage type.  For a floating-point number this is the nearest integer, and no number is
wrapped around or cut off at an end of a range.  An integer that becomes a double is rounded to
53 bits, so it comes back as it was as long as it has no more of them, and only the integers
that are rounded up to the end of the widest range do not come back at all.
-/

namespace Criteria

/-- Every storage type's range lies within the widest one. -/
theorem IntType.within_i64 (t : IntType) :
    IntType.i64.least ≤ t.least ∧ t.greatest ≤ IntType.i64.greatest := by
  cases t <;> decide

namespace Value

theorem toInt_float_eq_ok_iff {x : Double} {i : Integer .i64} :
    (Value.float x).toInt = .ok i ↔ x.toInt? = some i.val := by
  have hbind : (Value.float x).toInt = .ok i ↔ x.toInt?.bind (Integer.ofInt? .i64) = some i := by
    rw [toInt]
    cases x.toInt?.bind (Integer.ofInt? .i64) <;> simp
  rw [hbind, Option.bind_eq_some_iff]
  constructor
  · rintro ⟨n, hn, hfits⟩
    rw [hn, Integer.ofInt?_eq_some_iff.mp hfits]
  · intro h
    exact ⟨i.val, h, Integer.ofInt?_val i⟩

theorem exists_convert_int_eq_error_iff {v : Value} :
    (∃ e, v.convert .int = .error e) ↔ ∀ i, v.toInt ≠ .ok i := by
  rw [convert]
  cases v.toInt <;> simp [Except.map, Except.mapError]

end Value

namespace StorageType

/-- A field of integers takes exactly the integer that the value stands for, within its range. -/
theorem exists_ofValue_int_iff {t : IntType} {v : Value} {n : Int} :
    (∃ m : Integer t, (StorageType.int t).ofValue v = .ok m ∧ m.val = n) ↔
      (∃ i, v.toInt = .ok i ∧ i.val = n) ∧ t.least ≤ n ∧ n ≤ t.greatest := by
  constructor
  · rintro ⟨m, hm, rfl⟩
    obtain ⟨i, hi, hval⟩ := ofValue_int_eq_ok_iff.mp hm
    exact ⟨⟨i, hi, hval.symm⟩, m.least_le, m.le_greatest⟩
  · rintro ⟨⟨i, hi, rfl⟩, hleast, hgreatest⟩
    exact ⟨⟨i.val, hleast, hgreatest⟩, ofValue_int_eq_ok_iff.mpr ⟨i, hi, rfl⟩, rfl⟩

theorem exists_ofValue_float_iff {t : IntType} {x : Double} {n : Int} :
    (∃ m : Integer t, (StorageType.int t).ofValue (.float x) = .ok m ∧ m.val = n) ↔
      (∃ q, x.ratio? = some q ∧ IsNearestInt q n) ∧ t.least ≤ n ∧ n ≤ t.greatest := by
  simp only [exists_ofValue_int_iff, Value.toInt_float_eq_ok_iff, ← Binary.toInt?_eq_some_iff]
  constructor
  · rintro ⟨⟨i, hi, rfl⟩, hrange⟩
    exact ⟨hi, hrange⟩
  · rintro ⟨hn, hleast, hgreatest⟩
    obtain ⟨hlower, hupper⟩ := t.within_i64
    exact ⟨⟨⟨n, hlower.trans hleast, hgreatest.trans hupper⟩, hn, rfl⟩, hleast, hgreatest⟩

theorem exists_ofValue_integer_iff {t : IntType} {i : Integer .i64} {n : Int} :
    (∃ m : Integer t, (StorageType.int t).ofValue (.int i) = .ok m ∧ m.val = n) ↔
      n = i.val ∧ t.least ≤ i.val ∧ i.val ≤ t.greatest := by
  rw [exists_ofValue_int_iff]
  simp only [Value.toInt, Except.ok.injEq, exists_eq_left']
  constructor
  · rintro ⟨rfl, hrange⟩
    exact ⟨rfl, hrange⟩
  · rintro ⟨rfl, hrange⟩
    exact ⟨rfl, hrange⟩

/-- One and zero are within the range of every storage type. -/
theorem exists_ofValue_bool (t : IntType) (b : Bool) :
    ∃ m : Integer t, (StorageType.int t).ofValue (.bool b) = .ok m ∧
      m.val = if b then 1 else 0 := by
  rw [exists_ofValue_int_iff]
  cases b with
  | false => exact ⟨⟨_, rfl, rfl⟩, by cases t <;> decide⟩
  | true => exact ⟨⟨_, rfl, rfl⟩, by cases t <;> decide⟩

end StorageType

/-- Of the integers below the power of two, those that are rounded up to it are the ones in the
upper half of the last gap between doubles. -/
theorem Format.double_roundUnits_eq_two_pow_iff {n : Nat} (hn : n ≤ 2 ^ 63) :
    Format.double.roundUnits n 1 = 2 ^ 63 ↔ 2 ^ 63 - 512 ≤ n := by
  by_cases htop : n = 2 ^ 63
  · have hle : Format.double.roundUnits n 1 ≤ 2 ^ 63 :=
      Format.double.roundUnits_le_two_pow Nat.one_pos (by rwa [Nat.mul_one])
    have hge : 2 ^ 63 ≤ Format.double.roundUnits n 1 :=
      Format.double.two_pow_le_roundUnits (by rw [htop, Nat.div_one])
    omega
  by_cases hhalf : n < 2 ^ 62
  · have hle : Format.double.roundUnits n 1 ≤ 2 ^ 62 :=
      Format.double.roundUnits_le_two_pow Nat.one_pos (by omega)
    omega
  · have hlog : n.log2 = 62 := (Nat.log2_eq_iff (by omega)).mpr ⟨by omega, by omega⟩
    have hround : Format.double.roundUnits n 1 = nearest n 1024 * 1024 := by
      simp [Format.roundUnits, Format.spacing, hlog, Format.double]
    rw [hround, nearest]
    split
    · omega
    · split <;> omega

namespace Integer

variable (i : Integer .i64)

theorem natAbs_le_two_pow : i.val.natAbs ≤ 2 ^ 63 := by
  have hleast : -9223372036854775808 ≤ i.val := i.least_le
  have hgreatest : i.val ≤ 9223372036854775807 := i.le_greatest
  omega

theorem roundUnits_le_two_pow : Format.double.roundUnits i.val.natAbs 1 ≤ 2 ^ 63 := by
  refine Format.double.roundUnits_le_two_pow Nat.one_pos ?_
  rw [Nat.mul_one]
  exact i.natAbs_le_two_pow

/-- No integer is too large for a double. -/
theorem roundUnits_mul_lt :
    Format.double.roundUnits i.val.natAbs 1 * 2 ^ Format.double.scale <
      2 ^ Format.double.range :=
  Format.double.mul_two_pow_scale_lt (by decide) i.roundUnits_le_two_pow

/-- The double nearest to an integer, converted back. -/
theorem toInt?_ofInt :
    (Binary.ofInt i.val : Double).toInt? =
      some (Binary.signed (i.val < 0) (Format.double.roundUnits i.val.natAbs 1)) :=
  Binary.toInt?_ofInt i.roundUnits_mul_lt

/-- An integer of at most 53 bits comes back from a double. -/
theorem convert_float_of_natAbs_le (h : i.val.natAbs ≤ 2 ^ 53) :
    (Value.float (Binary.ofInt i.val)).convert .int = .ok (.int i) := by
  refine Value.convert_int_eq_ok_iff.mpr ⟨i, Value.toInt_float_eq_ok_iff.mpr ?_, rfl⟩
  have hround : Format.double.roundUnits i.val.natAbs 1 = i.val.natAbs :=
    Format.double.roundUnits_eq_self h
  rw [toInt?_ofInt, hround, Binary.signed_natAbs]

/-- An integer that becomes a double is lost if it is rounded up to the end of the range. -/
theorem exists_convert_float_eq_error_iff :
    (∃ e, (Value.float (Binary.ofInt i.val)).convert .int = .error e) ↔
      2 ^ 63 - 512 ≤ i.val := by
  have htop := Format.double_roundUnits_eq_two_pow_iff i.natAbs_le_two_pow
  have hle := i.roundUnits_le_two_pow
  simp only [Value.exists_convert_int_eq_error_iff, ne_eq, Value.toInt_float_eq_ok_iff,
    toInt?_ofInt, Option.some.injEq]
  constructor
  · intro hlost
    by_contra hbelow
    have hrange : IntType.i64.least ≤
          Binary.signed (i.val < 0) (Format.double.roundUnits i.val.natAbs 1) ∧
        Binary.signed (i.val < 0) (Format.double.roundUnits i.val.natAbs 1) ≤
          IntType.i64.greatest := by
      simp only [Binary.signed, IntType.least, IntType.greatest, decide_eq_true_eq]
      split <;> omega
    exact hlost ⟨_, hrange.1, hrange.2⟩ rfl
  · intro htopmost j hj
    have hgreatest : j.val ≤ 9223372036854775807 := j.le_greatest
    rw [Binary.signed, if_neg (by simp; omega)] at hj
    omega

end Integer

/-- Conversion to a field of integers rounds exactly and checks the range, and never wraps around
or saturates.  A float gives the integer nearest to it, where a tie goes to the even one, if it is
finite and that integer is in the range; an integer gives itself if it is in the range; a truth
value gives one or zero.  An integer converts to the nearest double, which converts back to it if
it has at most 53 bits, and is refused exactly if it was rounded up to `2 ^ 63`. -/
theorem narrowing_rounds_and_checks :
    (∀ (t : IntType) (x : Double) (n : Int),
      (∃ m : Integer t, (StorageType.int t).ofValue (.float x) = .ok m ∧ m.val = n) ↔
        (∃ q, x.ratio? = some q ∧ IsNearestInt q n) ∧ t.least ≤ n ∧ n ≤ t.greatest) ∧
    (∀ (t : IntType) (i : Integer .i64) (n : Int),
      (∃ m : Integer t, (StorageType.int t).ofValue (.int i) = .ok m ∧ m.val = n) ↔
        n = i.val ∧ t.least ≤ i.val ∧ i.val ≤ t.greatest) ∧
    (∀ (t : IntType) (b : Bool),
      ∃ m : Integer t, (StorageType.int t).ofValue (.bool b) = .ok m ∧
        m.val = if b then 1 else 0) ∧
    ∀ i : Integer .i64, ∃ x : Double,
      (Value.int i).convert .float = .ok (.float x) ∧ x.IsNearest i.val ∧
      (|i.val| ≤ 2 ^ 53 → (Value.float x).convert .int = .ok (.int i)) ∧
      ((∃ e, (Value.float x).convert .int = .error e) ↔ 2 ^ 63 - 512 ≤ i.val) := by
  refine ⟨?_, ?_, StorageType.exists_ofValue_bool, ?_⟩
  · intro t x n
    exact StorageType.exists_ofValue_float_iff
  · intro t i n
    exact StorageType.exists_ofValue_integer_iff
  · intro i
    refine ⟨Binary.ofInt i.val, rfl, ?_, ?_, i.exists_convert_float_eq_error_iff⟩
    · exact Binary.ofInt_isNearest (by decide) i.roundUnits_mul_lt
    · intro hsmall
      refine i.convert_float_of_natAbs_le ?_
      rw [Int.abs_eq_natAbs] at hsmall
      exact_mod_cast hsmall

/-- At `2 ^ 53` an integer still comes back, and at `2 ^ 63 - 512` it is lost. -/
theorem narrowing_rounds_and_checks_edges :
    (∃ (i : Integer .i64) (x : Double), i.val = 2 ^ 53 ∧
      (Value.int i).convert .float = .ok (.float x) ∧
      (Value.float x).convert .int = .ok (.int i)) ∧
    ∃ (i : Integer .i64) (x : Double) (e : ConversionError), i.val = 2 ^ 63 - 512 ∧
      (Value.int i).convert .float = .ok (.float x) ∧
      (Value.float x).convert .int = .error e := by
  constructor
  · obtain ⟨-, -, -, hdouble⟩ := narrowing_rounds_and_checks
    obtain ⟨x, hx, -, hback, -⟩ := hdouble ⟨2 ^ 53, by decide, by decide⟩
    exact ⟨_, x, rfl, hx, hback (by decide)⟩
  · obtain ⟨-, -, -, hdouble⟩ := narrowing_rounds_and_checks
    obtain ⟨x, hx, -, -, hlost⟩ := hdouble ⟨2 ^ 63 - 512, by decide, by decide⟩
    obtain ⟨e, he⟩ := hlost.mpr le_rfl
    exact ⟨_, x, e, rfl, hx, he⟩

end Criteria
