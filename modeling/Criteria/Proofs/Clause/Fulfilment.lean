import Criteria.Proofs.Clause.Agreement
import Criteria.Proofs.Comparison

/-!
# The record of values meets its own filter

The record that holds the values of a query clause is a record of the same type, so the
predicate of the filter can be asked about it.  Each of its fields that the filter names
yields exactly the constant that the one test of this field compares with.  If every
comparison allows equality and no constant is a NaN, every test holds, and then so does the
whole predicate, however the tests are joined.
-/

namespace Criteria

variable {R : RecordType}

namespace QueryClause

open Combination Criterion

/-- The record of values holds, in the field of a test, the constant of the test. -/
theorem read_values_of_mem_leaves
    {S : Schema R} (hseparate : S.Separate) {options : ClauseOptions} {cs : List Criterion}
    {q : QueryClause R} {p : Predicate R}
    (hq : generate options S cs = .ok q) (hp : Predicate.compile S cs = .ok p)
    {t : Test R} (ht : t ∈ p.expression.leaves) :
    ∃ c ∈ preorder cs, S.resolve c.field = some t.field ∧ t.comparison = c.comparison ∧
      t.field.convert c.value = .ok t.constant ∧ t.field.read q.values = t.constant ∧
      (t.comparison = .contains → t.field.kind = .text) := by
  obtain ⟨-, -, -, hnodup, hfits⟩ := exists_generate_iff.mp ⟨q, hq⟩
  obtain ⟨c, hc, htest⟩ := Predicate.exists_criterion_of_mem_leaves hp ht
  obtain ⟨f, hf, rfl⟩ := Option.map_eq_some_iff.mp htest
  obtain ⟨hsuits, constant, hconstant⟩ := hfits c hc f hf
  have hheld : f.held c.value = constant := Field.held_of_convert hconstant
  have hread : f.read q.values = f.held c.value :=
    (filled_of_generate hq).bound hseparate hnodup c hc f hf
  refine ⟨c, hc, hf, rfl, ?_, hread, hsuits⟩
  rw [hheld]
  exact hconstant

/-- If every comparison of a filter allows equality and no constant is a NaN, the record of
values of its query clause matches its predicate. -/
theorem values_match_own_filter
    {S : Schema R} (hseparate : S.Separate) {options : ClauseOptions} {cs : List Criterion}
    {q : QueryClause R} (h : generate options S cs = .ok q)
    (hequal : ∀ c ∈ preorder cs, c.comparison.allowsEqual = true)
    (hnan : ∀ c ∈ preorder cs, ∀ f, S.resolve c.field = some f →
      f.convert c.value ≠ .ok (.float .nan)) :
    ∃ p, Predicate.compile S cs = .ok p ∧ p.holds q.values = true := by
  obtain ⟨p, hp⟩ := exists_compile_of_generate h
  refine ⟨p, hp, Expression.holds_of_forall_leaves ?_⟩
  intro t ht
  obtain ⟨c, hc, hf, hcomparison, hconstant, hread, htext⟩ :=
    read_values_of_mem_leaves hseparate h hp ht
  rw [Test.holds, hread]
  apply Comparison.holds_self
  · rw [hcomparison]
    exact hequal c hc
  · rintro hconstantNan
    apply hnan c hc t.field hf
    rw [hconstant, hconstantNan]
  · intro hcontains
    rw [Field.kind_of_convert hconstant]
    exact htext hcontains

/-- Samples have a weight of single precision, a grade that fits in a byte, and a label. -/
def samples : RecordType where
  name := "Sample"
  slots := [.single, .int .u8, .text]

/-- The fields of samples. -/
def sampleSchema : Schema samples :=
  .ofNames samples ["weight", "grade", "label"]

/-- Light samples, or those with a label on lead and of high grade. -/
def lightOrLead : List Criterion :=
  [⟨.and, "weight", .lessThanOrEqual, .text " 0.1 ",
    [⟨.and, "label", .contains, .text "lead", []⟩,
      ⟨.and, "grade", .greaterThanOrEqual, .text "+200", []⟩]⟩]

theorem values_match_own_filter_lightOrLead :
    ∃ q p, generate {} sampleSchema lightOrLead = .ok q ∧
      sampleSchema.Separate ∧
      (∀ c ∈ preorder lightOrLead, c.comparison.allowsEqual = true) ∧
      (∀ c ∈ preorder lightOrLead, ∀ f, sampleSchema.resolve c.field = some f →
        f.convert c.value ≠ .ok (.float .nan)) ∧
      Predicate.compile sampleSchema lightOrLead = .ok p ∧ p.holds q.values = true := by
  have hseparate : sampleSchema.Separate := by
    rw [Schema.Separate]
    decide
  have hequal : ∀ c ∈ preorder lightOrLead, c.comparison.allowsEqual = true := by
    simp [lightOrLead, Comparison.allowsEqual]
  have hnan : ∀ c ∈ preorder lightOrLead, ∀ f, sampleSchema.resolve c.field = some f →
      f.convert c.value ≠ .ok (.float .nan) := by
    have hconstants : ∀ c ∈ preorder lightOrLead, ∀ f ∈ sampleSchema.resolve c.field,
        (f.convert c.value).toOption ≠ some (.float .nan) := by
      decide +kernel
    intro c hc f hf hconstant
    apply hconstants c hc f hf
    rw [hconstant]
    rfl
  obtain ⟨q, hq⟩ : ∃ q, generate {} sampleSchema lightOrLead = .ok q := by
    have hok : (generate {} sampleSchema lightOrLead).toBool = true := by decide +kernel
    cases hq : generate {} sampleSchema lightOrLead with
    | ok q => exact ⟨q, rfl⟩
    | error e => simp [hq, Except.toBool] at hok
  obtain ⟨p, hp, hmatches⟩ := values_match_own_filter hseparate hq hequal hnan
  exact ⟨q, p, hq, hseparate, hequal, hnan, hp, hmatches⟩

end QueryClause

end Criteria
