import Criteria.Proofs.Clause.Generation
import Criteria.Proofs.Combination.Continuation
import Criteria.Proofs.Predicate.Compilation

/-!
# Filters that fail and go on

Criteria that follow a filter that fails neither repair it nor change its error.  There is
one exception: a filter whose criteria are all passed over fails only because its end leaves
nothing to combine, and in front of other criteria it makes no difference.  Query clauses
pass over no criterion, so for them the exception is the empty filter.
-/

namespace Criteria

variable {R : RecordType}

open Combination

namespace Predicate

theorem compile_append_of_passed_over
    {S : Schema R} {cs : List Criterion}
    (hpassed : ∀ c ∈ cs, c.combinator = .and ∧ c.children = [] ∧ c.resolves S = false)
    (ds : List Criterion) : compile S (cs ++ ds) = compile S ds := by
  have hshape : ∀ c ∈ cs, c.combinator = .and ∧ c.children = [] := by
    intro c hc
    exact ⟨(hpassed c hc).1, (hpassed c hc).2.1⟩
  have hnone : ∀ c ∈ cs, element S c () = .ok none () := by
    intro c hc
    have hleft : S.resolve c.field = none := by
      simpa [Criterion.resolves] using (hpassed c hc).2.2
    rw [element, Test.ofCriterion, hleft]
    rfl
  rw [compile, compile, combine, combine, Walk.outcome, Walk.outcome,
    combineOnto_append_of_passed_over hshape hnone]

theorem compile_append_of_error
    {S : Schema R} {cs : List Criterion} {e : FilterError} (h : compile S cs = .error e) :
    (∀ c ∈ cs, c.combinator = .and ∧ c.children = [] ∧ c.resolves S = false) ∨
      ∀ ds, compile S (cs ++ ds) = .error e := by
  obtain ⟨s, hwalk⟩ := Walk.map_outcome_eq_error.mp h
  rcases combineOnto_append_of_error (isSome_of_element S) hwalk with hpassed | hsettled
  · exact .inl hpassed
  · right
    intro ds
    apply Walk.map_outcome_eq_error.mpr
    exact ⟨s, hsettled ds⟩

end Predicate

namespace QueryClause

theorem generate_append_of_error
    {options : ClauseOptions} {S : Schema R} {cs : List Criterion} {e : FilterError}
    (hne : cs ≠ []) (h : generate options S cs = .error e) (ds : List Criterion) :
    generate options S (cs ++ ds) = .error e := by
  obtain ⟨b, hwalk⟩ := Walk.map_outcome_eq_error.mp h
  rcases combineOnto_append_of_error (isSome_of_element S) hwalk with hpassed | hsettled
  · obtain ⟨c, rest, rfl⟩ := List.exists_cons_of_ne_nil hne
    obtain ⟨-, -, hleft⟩ := hpassed c List.mem_cons_self
    cases hleft
  · apply Walk.map_outcome_eq_error.mpr
    exact ⟨b, hsettled ds⟩

end QueryClause

/-- A filter that fails to compile consists of nothing but criteria that are passed over,
and then makes no difference in front of others, or it fails with the same error whatever
follows.  A filter that is not empty and gives no query clause fails with the same error
whatever follows. -/
theorem failure_settled_by_prefix (S : Schema R) (cs : List Criterion) :
    (∀ e, Predicate.compile S cs = .error e →
      ((∀ c ∈ cs, c.combinator = .and ∧ c.children = [] ∧ c.resolves S = false) →
        ∀ ds, Predicate.compile S (cs ++ ds) = Predicate.compile S ds) ∧
      (¬ (∀ c ∈ cs, c.combinator = .and ∧ c.children = [] ∧ c.resolves S = false) →
        ∀ ds, Predicate.compile S (cs ++ ds) = .error e)) ∧
    (∀ options e, cs ≠ [] → QueryClause.generate options S cs = .error e →
      ∀ ds, QueryClause.generate options S (cs ++ ds) = .error e) := by
  constructor
  · intro e he
    constructor
    · exact Predicate.compile_append_of_passed_over
    · intro hnot
      rcases Predicate.compile_append_of_error he with hpassed | hsettled
      · exact absurd hpassed hnot
      · exact hsettled
  · intro options e hne he
    exact QueryClause.generate_append_of_error hne he

/-- Red parcels, although parcels have no colour. -/
def redParcels : List Criterion :=
  [⟨.and, "colour", .equal, .text "red", []⟩]

/-- Parcels that are red or have number 9. -/
def redOrNinthParcels : List Criterion :=
  [⟨.and, "colour", .equal, .text "red", []⟩, ⟨.or, "number", .equal, .text "9", []⟩]

theorem failure_settled_by_prefix_redParcels :
    (Predicate.compile parcelSchema redParcels = .error (.emptyCombination .topLevel) ∧
      (∀ c ∈ redParcels,
        c.combinator = .and ∧ c.children = [] ∧ c.resolves parcelSchema = false) ∧
      ∀ ds, Predicate.compile parcelSchema (redParcels ++ ds) =
        Predicate.compile parcelSchema ds) ∧
    (Predicate.compile parcelSchema redOrNinthParcels = .error (.emptyCombination .topLevel) ∧
      ¬ (∀ c ∈ redOrNinthParcels,
        c.combinator = .and ∧ c.children = [] ∧ c.resolves parcelSchema = false) ∧
      ∀ ds, Predicate.compile parcelSchema (redOrNinthParcels ++ ds) =
        .error (.emptyCombination .topLevel)) ∧
    redParcels ≠ [] ∧
      QueryClause.generate {} parcelSchema redParcels =
        .error (.unresolvedField "colour" "Parcel") ∧
      ∀ ds, QueryClause.generate {} parcelSchema (redParcels ++ ds) =
        .error (.unresolvedField "colour" "Parcel") := by
  have hpassed : ∀ c ∈ redParcels,
      c.combinator = .and ∧ c.children = [] ∧ c.resolves parcelSchema = false := by
    simp [redParcels]
    decide
  have hleading : ¬ (∀ c ∈ redOrNinthParcels,
      c.combinator = .and ∧ c.children = [] ∧ c.resolves parcelSchema = false) := by
    simp [redOrNinthParcels]
  obtain ⟨hred, hclause⟩ := failure_settled_by_prefix parcelSchema redParcels
  obtain ⟨hredOrNinth, -⟩ := failure_settled_by_prefix parcelSchema redOrNinthParcels
  refine ⟨⟨rfl, hpassed, ?_⟩, ⟨rfl, hleading, ?_⟩, by simp [redParcels], rfl, ?_⟩
  · exact (hred (.emptyCombination .topLevel) rfl).1 hpassed
  · exact (hredOrNinth (.emptyCombination .topLevel) rfl).2 hleading
  · exact hclause {} (.unresolvedField "colour" "Parcel") (by simp [redParcels]) rfl

end Criteria
