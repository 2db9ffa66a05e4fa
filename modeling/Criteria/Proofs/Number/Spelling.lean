import Criteria.Proofs.Number.Written

/-!
# Which texts are integers

An integer is spelled by decimal digits after an optional sign.  The reader takes one digit
after the other and gives up at the first one that leads out of the range, but digits only lead
away from zero, so it gives up exactly where the whole text is out of the range.  What an integer
is written as spells it, so it is read back.
-/

namespace Criteria

namespace Integer

open Numeral (Digits)

/-- The text is an optional sign and one or more decimal digits, and the integer is what the
digits stand for under that sign. -/
inductive Spells : List Char → Int → Prop
  | plain {digits : List Char} (hne : digits ≠ []) (hdigits : Digits digits) :
      Spells digits (Nat.ofDigitChars 10 digits 0)
  | plus {digits : List Char} (hne : digits ≠ []) (hdigits : Digits digits) :
      Spells ('+' :: digits) (Nat.ofDigitChars 10 digits 0)
  | minus {digits : List Char} (hne : digits ≠ []) (hdigits : Digits digits) :
      Spells ('-' :: digits) (-Nat.ofDigitChars 10 digits 0)

theorem le_ofDigitChars (digits : List Char) (m : Nat) : m ≤ Nat.ofDigitChars 10 digits m := by
  rw [Nat.ofDigitChars_eq_ofDigitChars_zero]
  exact Nat.le_trans (Nat.le_mul_of_pos_left m (Nat.pow_pos (by decide))) (Nat.le_add_right _ _)

/-- What is no farther from zero than an integer of the type, on the same side, is one too. -/
theorem exists_signed_of_le
    {t : IntType} {negative : Bool} {m k : Nat} {n : Integer t}
    (hn : n.val = Binary.signed negative k) (hle : m ≤ k) :
    ∃ next : Integer t, next.val = Binary.signed negative m := by
  have hleast := n.least_le
  have hgreatest := n.le_greatest
  have hzero_least := (zero t).least_le
  have hzero_greatest := (zero t).le_greatest
  simp only [zero] at hzero_least hzero_greatest
  have hrange : t.least ≤ Binary.signed negative m ∧ Binary.signed negative m ≤ t.greatest := by
    cases negative with
    | true =>
        simp only [Binary.signed, if_true] at hn ⊢
        omega
    | false =>
        simp only [Binary.signed, Bool.false_eq_true, if_false] at hn ⊢
        omega
  exact ⟨⟨Binary.signed negative m, hrange.1, hrange.2⟩, rfl⟩

/-- Digits that lead to an integer within the range are read to their end. -/
theorem extend_of_digits
    {negative : Bool} {digits : List Char} (hdigits : Numeral.Digits digits)
    {n : Integer .i64} :
    ∀ {m : Nat} {acc : Integer .i64}, acc.val = Binary.signed negative m →
      n.val = Binary.signed negative (Nat.ofDigitChars 10 digits m) →
        extend negative acc digits = .ok n := by
  induction digits with
  | nil =>
      intro m acc hacc hn
      have hsame : acc = n := by
        cases acc
        cases n
        simpa using hacc.trans hn.symm
      rw [extend, hsame]
  | cons c rest ih =>
      intro m acc hacc hn
      rw [Nat.ofDigitChars_cons] at hn
      obtain ⟨next, hnext⟩ := exists_signed_of_le hn (le_ofDigitChars rest _)
      have hstep : ofInt? .i64 (10 * acc.val + if negative then -(digitValue c : Int)
          else digitValue c) = some next := by
        rw [ofInt?_eq_some_iff, hnext, hacc, digitValue]
        cases negative with
        | true =>
            simp only [Binary.signed, if_true]
            omega
        | false =>
            simp only [Binary.signed, Bool.false_eq_true, if_false]
            omega
      have hdigit : c.isDigit = true := hdigits c (by simp)
      rw [extend, if_pos hdigit]
      simp only [hstep]
      exact ih (fun d hd => hdigits d (by simp [hd])) hnext hn

/-- What is read to its end are digits, and they lead from the integer read before them to the
one that is returned. -/
theorem digits_of_extend
    {negative : Bool} {digits : List Char} {n : Integer .i64} :
    ∀ {m : Nat} {acc : Integer .i64}, acc.val = Binary.signed negative m →
      extend negative acc digits = .ok n →
        Digits digits ∧ n.val = Binary.signed negative (Nat.ofDigitChars 10 digits m) := by
  induction digits with
  | nil =>
      intro m acc hacc hread
      obtain rfl := Except.ok.inj hread
      exact ⟨by simp [Digits], hacc⟩
  | cons c rest ih =>
      intro m acc hacc hread
      rw [extend] at hread
      split at hread
      next hdigit =>
        simp only at hread
        split at hread
        next next hnext =>
          have hval : next.val = Binary.signed negative (10 * m + (c.toNat - '0'.toNat)) := by
            rw [ofInt?_eq_some_iff.mp hnext, hacc, digitValue]
            cases negative with
            | true =>
                simp only [Binary.signed, if_true]
                omega
            | false =>
                simp only [Binary.signed, Bool.false_eq_true, if_false]
                omega
          obtain ⟨hrest, hn⟩ := ih hval hread
          refine ⟨List.forall_mem_cons.mpr ⟨hdigit, hrest⟩, ?_⟩
          rw [Nat.ofDigitChars_cons]
          exact hn
        next => cases hread
      next => cases hread

theorem extend_zero_eq_ok_iff {negative : Bool} {digits : List Char} {n : Integer .i64} :
    extend negative (zero .i64) digits = .ok n ↔
      Digits digits ∧ n.val = Binary.signed negative (Nat.ofDigitChars 10 digits 0) := by
  have hzero : (zero .i64).val = Binary.signed negative 0 := by cases negative <;> rfl
  constructor
  · exact digits_of_extend hzero
  · rintro ⟨hdigits, hn⟩
    exact extend_of_digits hdigits hzero hn

theorem read_plus {digits : List Char} (hne : digits ≠ []) :
    read ('+' :: digits) = extend false (zero .i64) digits := by
  obtain ⟨c, rest, rfl⟩ := List.exists_cons_of_ne_nil hne
  rfl

theorem read_minus {digits : List Char} (hne : digits ≠ []) :
    read ('-' :: digits) = extend true (zero .i64) digits := by
  obtain ⟨c, rest, rfl⟩ := List.exists_cons_of_ne_nil hne
  rfl

/-- A digit is no sign, so a text of digits is read from its first character on. -/
theorem read_of_digits {digits : List Char} (hne : digits ≠ []) (hdigits : Digits digits) :
    read digits = extend false (zero .i64) digits := by
  obtain ⟨c, rest, rfl⟩ := List.exists_cons_of_ne_nil hne
  have hdigit : c.isDigit = true := hdigits c (by simp)
  have hplus : c ≠ '+' := by
    rintro rfl
    cases hdigit
  have hminus : c ≠ '-' := by
    rintro rfl
    cases hdigit
  simp [read, hplus, hminus]

/-- The reader takes exactly the texts that spell an integer within the range, and gives that
integer. -/
theorem read_eq_ok_iff {s : List Char} {n : Integer .i64} : read s = .ok n ↔ Spells s n.val := by
  constructor
  · intro hread
    rw [read.eq_def] at hread
    split at hread
    next => cases hread
    next => cases hread
    next => cases hread
    next digits hne =>
      obtain ⟨hdigits, hn⟩ := extend_zero_eq_ok_iff.mp hread
      rw [hn]
      exact .plus (by rintro rfl; exact hne rfl) hdigits
    next digits _ hne =>
      obtain ⟨hdigits, hn⟩ := extend_zero_eq_ok_iff.mp hread
      rw [hn]
      exact .minus (by rintro rfl; exact hne rfl) hdigits
    next hne _ _ _ _ =>
      obtain ⟨hdigits, hn⟩ := extend_zero_eq_ok_iff.mp hread
      rw [hn]
      exact .plain hne hdigits
  · intro hspells
    generalize hn : n.val = i at hspells
    cases hspells with
    | plain hne hdigits =>
        rw [read_of_digits hne hdigits, extend_zero_eq_ok_iff]
        exact ⟨hdigits, hn⟩
    | plus hne hdigits =>
        rw [read_plus hne, extend_zero_eq_ok_iff]
        exact ⟨hdigits, hn⟩
    | minus hne hdigits =>
        rw [read_minus hne, extend_zero_eq_ok_iff]
        exact ⟨hdigits, hn⟩

/-- What an integer is written as spells it. -/
theorem spells_decimal (i : Int) : Spells (decimal i) i := by
  have hdigits := Numeral.digits_toDigits i.natAbs
  have hvalue := Nat.ofDigitChars_ten_toDigits (n := i.natAbs)
  rw [decimal]
  split
  next hnegative =>
    have hspells := Spells.minus Nat.toDigits_ne_nil hdigits
    rwa [hvalue, show -(i.natAbs : Int) = i by omega] at hspells
  next hnegative =>
    have hspells := Spells.plain Nat.toDigits_ne_nil hdigits
    rwa [hvalue, show (i.natAbs : Int) = i by omega] at hspells

/-- An integer of 64 bits is read back from its digits. -/
theorem read_decimal (n : Integer .i64) : read (decimal n.val) = .ok n :=
  read_eq_ok_iff.mpr (spells_decimal n.val)

end Integer

end Criteria
