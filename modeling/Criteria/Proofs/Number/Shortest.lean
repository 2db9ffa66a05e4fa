import Criteria.Proofs.Number.Ratio

/-!
# Shortest decimals read back

A decimal that the search for the shortest one yields has been read back before it is
taken, and the exact expansion, which is taken if the search yields none, stands for the
number itself.  So the shortest decimal of a number reads back as that number, whatever the
sign in front of it.
-/

namespace Criteria

namespace Decimal

variable {F : Format} {units : Nat}

theorem readsBack_iff {d : Decimal} (hunits : F.Represents units) :
    readsBack F units d = true ↔
      F.roundUnits (d.numerator * 2 ^ F.scale) d.denominator = units := by
  rw [readsBack, Binary.ofDecimal_eq_ofRatio, Binary.ofRatio]
  constructor
  · intro h
    split at h
    next hfinite =>
      split at hfinite
      · obtain ⟨-, rfl⟩ := Binary.finite.inj hfinite
        simpa using h
      · cases hfinite
    next => cases h
  · intro h
    simp [h, hunits.2]

theorem ofDecimal_of_readsBack
    {d : Decimal} (hunits : F.Represents units) (h : readsBack F units d = true)
    (negative : Bool) :
    Binary.ofDecimal negative d = .finite negative units hunits := by
  rw [Binary.ofDecimal_eq_ofRatio]
  exact (Binary.ofRatio_eq_finite_iff hunits).mpr ((readsBack_iff hunits).mp h)

/-- What is taken from a grid has been read back. -/
theorem readsBack_of_onGrid?
    {tie : Tie} {exponent : Int} {d : Decimal} (h : onGrid? F tie units exponent = some d) :
    readsBack F units d = true := by
  rw [onGrid?] at h
  generalize gridQuotient F units exponent = quotient at h
  obtain ⟨num, den⟩ := quotient
  simp only at h
  split at h
  next hbelow habove =>
    have hchoice : d = ⟨num / den, exponent⟩ ∨ d = ⟨num / den + 1, exponent⟩ := by
      grind
    rcases hchoice with rfl | rfl
    · exact hbelow
    · exact habove
  next hbelow _ =>
    obtain rfl := Option.some.inj h
    exact hbelow
  next _ habove =>
    obtain rfl := Option.some.inj h
    exact habove
  next => cases h

theorem readsBack_exact (hunits : F.Represents units) :
    readsBack F units (exact F units) = true := by
  rw [readsBack_iff hunits]
  have hnumerator : (exact F units).numerator = units * 5 ^ F.scale := by
    simp [exact, numerator]
  have hdenominator : (exact F units).denominator = 10 ^ F.scale := by
    simp [exact, denominator]
  have hratio : units * 5 ^ F.scale * 2 ^ F.scale = units * 10 ^ F.scale := by
    rw [Nat.mul_assoc, ← Nat.mul_pow]
  rw [hnumerator, hdenominator]
  exact Format.roundUnits_of_spacing_dvd (Nat.pow_pos (by decide)) hratio hunits.1

theorem shortest_of_ne_zero (F : Format) (tie : Tie) (hne : units ≠ 0) :
    (∃ exponent, onGrid? F tie units exponent = some (shortest F tie units)) ∨
      shortest F tie units = exact F units := by
  rw [shortest, if_neg hne]
  simp only
  generalize (List.range F.precision).map (fun k : Nat => startExponent F units - k) = grids
  cases hfound : grids.findSome? (onGrid? F tie units) with
  | none => exact .inr rfl
  | some d =>
      obtain ⟨exponent, -, hgrid⟩ := List.exists_of_findSome?_eq_some hfound
      exact .inl ⟨exponent, hgrid⟩

theorem readsBack_shortest (tie : Tie) (hunits : F.Represents units) :
    readsBack F units (shortest F tie units) = true := by
  by_cases hne : units = 0
  · subst hne
    rw [shortest, if_pos rfl, readsBack, Binary.ofDecimal, if_pos rfl]
    rfl
  · obtain ⟨exponent, hgrid⟩ | hexact := shortest_of_ne_zero F tie hne
    · exact readsBack_of_onGrid? hgrid
    · rw [hexact]
      exact readsBack_exact hunits

/-- The shortest decimal of a number reads back as the number. -/
theorem ofDecimal_shortest (tie : Tie) (hunits : F.Represents units) (negative : Bool) :
    Binary.ofDecimal negative (shortest F tie units) = .finite negative units hunits :=
  ofDecimal_of_readsBack hunits (readsBack_shortest tie hunits) negative

/-- Only zero has a shortest decimal with the coefficient zero. -/
theorem shortest_of_coefficient_eq_zero
    {tie : Tie} (hunits : F.Represents units)
    (h : (shortest F tie units).coefficient = 0) :
    shortest F tie units = ⟨0, 0⟩ := by
  have hzero : Binary.ofDecimal false (shortest F tie units) = (Binary.zero false : Binary F) := by
    rw [Binary.ofDecimal, if_pos h]
  rw [ofDecimal_shortest tie hunits] at hzero
  obtain ⟨-, rfl⟩ := Binary.finite.inj hzero
  rw [shortest, if_pos rfl]

end Decimal

end Criteria
