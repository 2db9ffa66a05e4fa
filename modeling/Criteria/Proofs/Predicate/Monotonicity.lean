import Criteria.Proofs.Predicate.Appending

/-!
# Predicates are monotone in their criteria

A compiled predicate is made of the tests of its criteria by AND and OR alone, however often
a skipped criterion folds the queue and wherever a group of children is joined.  So a match
cannot be lost when more criteria hold, and neither a match nor its absence can come from
anywhere but the criteria.
-/

namespace Criteria

variable {R : RecordType} {S : Schema R}

theorem Criterion.truth?_of_test? {c : Criterion} {t : Test R} (h : c.test? S = some t)
    (r : Record R) : c.truth? S r = some (t.holds r) := by
  obtain ⟨f, hf, rfl⟩ := Option.map_eq_some_iff.mp h
  rw [truth?, hf]
  rfl

namespace Predicate

open Criterion

variable {cs : List Criterion} {p : Predicate R}

/-- The truth of a test in a compiled predicate is that of a criterion. -/
theorem exists_truth?_of_mem_leaves
    (h : compile S cs = .ok p) {t : Test R} (ht : t ∈ p.expression.leaves) :
    ∃ c ∈ preorder cs, ∀ r, c.truth? S r = some (t.holds r) := by
  obtain ⟨c, hc, htest⟩ := exists_criterion_of_mem_leaves h ht
  exact ⟨c, hc, truth?_of_test? htest⟩

theorem holds_of_truth?_imp
    (h : compile S cs = .ok p) {r r' : Record R}
    (himp : ∀ c ∈ preorder cs, c.truth? S r = some true → c.truth? S r' = some true)
    (hmatches : p.holds r = true) : p.holds r' = true := by
  refine Expression.holds_mono ?_ hmatches
  intro t ht htest
  obtain ⟨c, hc, htruth⟩ := exists_truth?_of_mem_leaves h ht
  have htrue : c.truth? S r' = some true := himp c hc (by rw [htruth, htest])
  exact Option.some.inj ((htruth r').symm.trans htrue)

theorem exists_true_criterion_of_holds
    (h : compile S cs = .ok p) {r : Record R} (hmatches : p.holds r = true) :
    ∃ c ∈ preorder cs, c.truth? S r = some true := by
  obtain ⟨t, ht, htest⟩ := Expression.exists_leaf_of_holds hmatches
  obtain ⟨c, hc, htruth⟩ := exists_truth?_of_mem_leaves h ht
  exact ⟨c, hc, by rw [htruth, htest]⟩

theorem holds_of_forall_criteria
    (h : compile S cs = .ok p) {r : Record R}
    (hall : ∀ c ∈ preorder cs, c.resolves S = true → c.truth? S r = some true) :
    p.holds r = true := by
  refine Expression.holds_of_forall_leaves ?_
  intro t ht
  obtain ⟨c, hc, htruth⟩ := exists_truth?_of_mem_leaves h ht
  have hresolves : c.resolves S = true := by
    cases hleft : c.resolves S with
    | true => rfl
    | false =>
        have hnone := (htruth r).symm.trans (truth?_eq_none_iff.mpr hleft)
        cases hnone
  exact Option.some.inj ((htruth r).symm.trans (hall c hc hresolves))

/-- If every criterion that holds of a record holds of another one too, a match of the first
is a match of the second.  A record of which no criterion holds is never matched, and one of
which all criteria hold whose field exists is always matched. -/
theorem matches_are_monotone
    (h : compile S cs = .ok p) :
    (∀ r r', (∀ c ∈ preorder cs, c.truth? S r = some true → c.truth? S r' = some true) →
        p.holds r = true → p.holds r' = true) ∧
      (∀ r, (∀ c ∈ preorder cs, c.truth? S r ≠ some true) → p.holds r = false) ∧
      ∀ r, (∀ c ∈ preorder cs, c.resolves S = true → c.truth? S r = some true) →
        p.holds r = true := by
  refine ⟨fun r r' => holds_of_truth?_imp h, ?_, fun r => holds_of_forall_criteria h⟩
  intro r hnone
  cases hmatches : p.holds r with
  | false => rfl
  | true =>
      obtain ⟨c, hc, htrue⟩ := exists_true_criterion_of_holds h hmatches
      exact absurd htrue (hnone c hc)

/-- Parcels above number 3, or with number 9 below a colour that parcels do not have, or of a
weight that they do not have either; and of these the ones that do not have number 2. -/
def weighedParcels : List Criterion :=
  highParcels ++
    [⟨.and, "colour", .equal, .text "red", [⟨.and, "number", .equal, .text "9", []⟩]⟩,
      ⟨.or, "weight", .lessThan, .text "2", []⟩, ⟨.and, "number", .notEqual, .text "2", []⟩]

/-- Of parcel 5 hold the criteria that hold of parcel 4, of parcel 2 none, of parcel 9 all. -/
theorem matches_are_monotone_weighedParcels :
    ∃ p, compile parcelSchema weighedParcels = .ok p ∧
      p.holds (parcelNumbered ⟨4, by decide, by decide⟩) = true ∧
      p.holds (parcelNumbered ⟨5, by decide, by decide⟩) = true ∧
      p.holds (parcelNumbered ⟨2, by decide, by decide⟩) = false ∧
      p.holds (parcelNumbered ⟨9, by decide, by decide⟩) = true := by
  obtain ⟨p, hp, hfour⟩ : ∃ p, compile parcelSchema weighedParcels = .ok p ∧
      p.holds (parcelNumbered ⟨4, by decide, by decide⟩) = true := ⟨_, rfl, rfl⟩
  obtain ⟨hmonotone, hnone, hall⟩ := matches_are_monotone hp
  refine ⟨p, hp, hfour, hmonotone _ _ ?_ hfour, hnone _ ?_, hall _ ?_⟩
  · decide
  · decide
  · decide

end Predicate

end Criteria
