import Criteria.Proofs.Clause.Generation
import Criteria.Proofs.Expression
import Criteria.Proofs.Predicate.Compilation

/-!
# Predicates and query clauses agree

A query clause asks for the same records as the predicate of the same filter, once every
placeholder stands for the value that was bound to it.  Both expressions are assembled by
the same rules, so that of the clause is that of the predicate with each test replaced by
its condition.  Each field is named once, so its placeholder still holds the constant of
the one criterion that names it when the clause is complete.
-/

namespace Criteria

variable {R : RecordType}

/-- The condition of a query that a test becomes. -/
def Test.condition (t : Test R) : Condition :=
  ⟨t.field.name, t.comparison⟩

/-- Whether a record meets a condition, with the placeholder of each field standing for the
value of that field in a second record. -/
def Condition.holds (S : Schema R) (values r : Record R) (c : Condition) : Bool :=
  match S.resolve c.field with
  | none => false
  | some f => c.comparison.holds (f.read r) (f.read values)

namespace QueryClause

open Combination Criterion
open Predicate (exists_criterion_of_mem_leaves)

/-! ## The two expressions -/

theorem known_map_condition
    {S : Schema R} {c : Criterion} (hresolves : c.resolves S = true) :
    (Predicate.known S c).map (Expression.map Test.condition) =
      some (.leaf ⟨c.field, c.comparison⟩) := by
  obtain ⟨f, hf⟩ := Option.isSome_iff_exists.mp hresolves
  simp only [Predicate.known, test?, hf, Option.map_some, Expression.map, Test.condition,
    Schema.name_of_resolve hf]

theorem element_yields (S : Schema R) :
    Yields (element S) fun c =>
      (Predicate.known S c).map (Expression.map Test.condition) := by
  intro c b own b' h
  cases hrefusal : c.refusal? S b.parameters with
  | some e => simp [element_apply_of_refused hrefusal] at h
  | none =>
      have hresolves := (refusal?_eq_none_iff.mp hrefusal).1
      exact (eq_of_element h).trans (known_map_condition hresolves).symm

theorem assembles_of_generate
    {options : ClauseOptions} {S : Schema R} {cs : List Criterion} {q : QueryClause R}
    (h : generate options S cs = .ok q) :
    q.options = options ∧
      Assembles (fun c => (Predicate.known S c).map (Expression.map Test.condition)) [] cs
        q.expression := by
  obtain ⟨e, b, hwalk, rfl⟩ := Walk.map_outcome_eq_ok.mp h
  exact ⟨rfl, assembles_of_combineOnto (element_yields S) cs hwalk⟩

theorem expression_eq_map
    {options : ClauseOptions} {S : Schema R} {cs : List Criterion}
    {q : QueryClause R} {p : Predicate R}
    (hq : generate options S cs = .ok q) (hp : Predicate.compile S cs = .ok p) :
    q.expression = p.expression.map Test.condition := by
  have hmapped := (Predicate.assembles_of_compile hp).map
    (Expression.preserves_map Test.condition)
  exact (assembles_of_generate hq).2.unique hmapped

/-! ## The two conditions of success -/

theorem opens_of_head
    {S : Schema R} {g : List Criterion} (hne : g ≠ [])
    (hhead : ∀ c, g.head? = some c → c.combinator ≠ .or)
    (hresolves : ∀ c ∈ g, c.resolves S = true) :
    Opens (resolves S) g := by
  obtain ⟨c, rest, rfl⟩ := List.exists_cons_of_ne_nil hne
  have hand : c.combinator = .and := by
    have hor := hhead c rfl
    cases hcombinator : c.combinator with
    | and => rfl
    | or => exact absurd hcombinator hor
  exact opens_cons_iff.mpr ⟨hand, .inl (hresolves c (by simp))⟩

theorem head_of_opens
    {kept : Criterion → Bool} {g : List Criterion} (h : Opens kept g) :
    ∀ c, g.head? = some c → c.combinator ≠ .or := by
  intro c hc
  cases g with
  | nil => cases hc
  | cons d rest =>
      obtain rfl := Option.some.inj hc
      simp [(opens_cons_iff.mp h).1]

theorem exists_compile_of_generate
    {options : ClauseOptions} {S : Schema R} {cs : List Criterion} {q : QueryClause R}
    (h : generate options S cs = .ok q) :
    ∃ p, Predicate.compile S cs = .ok p := by
  obtain ⟨hne, hheads, hresolves, -, hfits⟩ := exists_generate_iff.mp ⟨q, h⟩
  refine Predicate.exists_compile_iff.mpr ⟨hfits, ?_⟩
  intro g hg
  refine opens_of_head (ne_nil_of_mem_groups hne hg) (hheads g hg) ?_
  intro c hc
  exact hresolves c (mem_preorder_of_mem_group hg hc)

theorem exists_generate_of_compile
    (options : ClauseOptions) {S : Schema R} {cs : List Criterion} {p : Predicate R}
    (h : Predicate.compile S cs = .ok p)
    (hresolves : ∀ c ∈ preorder cs, c.resolves S = true)
    (hnodup : ((preorder cs).map Criterion.field).Nodup) :
    ∃ q, generate options S cs = .ok q := by
  obtain ⟨hfits, hopens⟩ := Predicate.exists_compile_iff.mp ⟨p, h⟩
  refine exists_generate_iff.mpr ⟨?_, ?_, hresolves, hnodup, hfits⟩
  · rintro rfl
    exact not_opens_nil (hopens [] (by simp [groups]))
  · intro g hg
    exact head_of_opens (hopens g hg)

/-! ## The bound values -/

theorem filled_of_generate
    {options : ClauseOptions} {S : Schema R} {cs : List Criterion} {q : QueryClause R}
    (h : generate options S cs = .ok q) :
    Bindings.Filled S (.initial R) q.bindings (preorder cs) := by
  obtain ⟨hne, -⟩ := exists_generate_iff.mp ⟨q, h⟩
  obtain ⟨herror, hok⟩ := generate_of_firstFault? options S hne
  cases hfirst : Place.firstFault? S [] (places cs) with
  | some e =>
      rw [herror e hfirst] at h
      cases h
  | none =>
      obtain ⟨q', hq', hfilled⟩ := hok hfirst
      obtain rfl := Except.ok.inj (hq'.symm.trans h)
      exact hfilled

/-- A condition holds, with the bound values for the placeholders, exactly if the test that
it came from does. -/
theorem holds_condition
    {S : Schema R} {cs : List Criterion} {before after : Bindings R} {c : Criterion}
    {t : Test R}
    (hseparate : S.Separate) (hnodup : ((preorder cs).map Criterion.field).Nodup)
    (hfilled : Bindings.Filled S before after (preorder cs))
    (hc : c ∈ preorder cs) (ht : c.test? S = some t) (r : Record R) :
    t.condition.holds S after.values r = t.holds r := by
  obtain ⟨f, hf, rfl⟩ := Option.map_eq_some_iff.mp ht
  have hname := Schema.name_of_resolve hf
  have hbound := hfilled.bound hseparate hnodup c hc f hf
  simp only [Test.condition, Condition.holds, Test.holds, hname, hf, hbound]

/-- The expression of a query clause, with the bound values for the placeholders, holds of the
records that the predicate of the same criteria matches. -/
theorem holds_of_generate
    {S : Schema R} (hseparate : S.Separate) {options : ClauseOptions} {cs : List Criterion}
    {q : QueryClause R} {p : Predicate R} (hq : generate options S cs = .ok q)
    (hp : Predicate.compile S cs = .ok p) (r : Record R) :
    q.expression.holds (Condition.holds S q.values r) = p.holds r := by
  obtain ⟨-, -, -, hnodup, -⟩ := exists_generate_iff.mp ⟨q, hq⟩
  have hfilled := filled_of_generate hq
  rw [expression_eq_map hq hp, Expression.holds_map, Predicate.holds]
  refine Expression.holds_congr ?_
  intro t ht
  obtain ⟨c, hc, htest⟩ := exists_criterion_of_mem_leaves hp ht
  exact holds_condition hseparate hnodup hfilled hc htest r

/-- If a query clause is generated, the predicate compiles, and one expression gives both
texts and, with the bound values for the placeholders, the meaning of the predicate.  A
filter that compiles gives a query clause if every field exists and is named once. -/
theorem generate_agrees_with_compile
    {S : Schema R} (hseparate : S.Separate) (options : ClauseOptions) (cs : List Criterion) :
    (∀ q, generate options S cs = .ok q →
        ∃ p, ∃ tree : Expression (Test R), Predicate.compile S cs = .ok p ∧
          p.text = tree.render " && " " || " Test.text ∧
          q.text = (tree.map Test.condition).render " AND " " OR " (Condition.text options) ∧
          ∀ r, (tree.map Test.condition).holds (Condition.holds S q.values r) = p.holds r) ∧
      ∀ p, Predicate.compile S cs = .ok p →
        (∀ c ∈ preorder cs, c.resolves S = true) →
        ((preorder cs).map Criterion.field).Nodup →
        ∃ q, generate options S cs = .ok q := by
  constructor
  · intro q hq
    obtain ⟨p, hp⟩ := exists_compile_of_generate hq
    refine ⟨p, p.expression, hp, rfl, ?_, ?_⟩
    · rw [text, expression_eq_map hq hp, (assembles_of_generate hq).1]
    · intro r
      rw [← expression_eq_map hq hp]
      exact holds_of_generate hseparate hq hp r
  · intro p hp hresolves hnodup
    exact exists_generate_of_compile options hp hresolves hnodup

/-- Parcels above number 3 or with a note on glass. -/
def carefulParcels : List Criterion :=
  [⟨.and, "number", .greaterThan, .text " 3 ",
      [⟨.and, "note", .contains, .text "glass", []⟩]⟩]

theorem generate_agrees_with_compile_carefulParcels :
    parcelSchema.Separate ∧
      ∃ q p, generate {} parcelSchema carefulParcels = .ok q ∧
        Predicate.compile parcelSchema carefulParcels = .ok p ∧
        (∀ c ∈ preorder carefulParcels, c.resolves parcelSchema = true) ∧
        ((preorder carefulParcels).map Criterion.field).Nodup ∧
        ∃ tree : Expression (Test parcels),
          p.text = tree.render " && " " || " Test.text ∧
          q.text = (tree.map Test.condition).render " AND " " OR " (Condition.text {}) ∧
          ∀ r, (tree.map Test.condition).holds (Condition.holds parcelSchema q.values r) =
            p.holds r := by
  have hresolves : ∀ c ∈ preorder carefulParcels, c.resolves parcelSchema = true := by
    simp [carefulParcels]
    decide
  have hnodup : ((preorder carefulParcels).map Criterion.field).Nodup := by
    simp [carefulParcels]
  obtain ⟨p, hp⟩ : ∃ p, Predicate.compile parcelSchema carefulParcels = .ok p := ⟨_, rfl⟩
  obtain ⟨hagrees, hconverse⟩ :=
    generate_agrees_with_compile parcelSchema_separate {} carefulParcels
  obtain ⟨q, hq⟩ := hconverse p hp hresolves hnodup
  obtain ⟨p', tree, hp', htree⟩ := hagrees q hq
  obtain rfl := Except.ok.inj (hp'.symm.trans hp)
  exact ⟨parcelSchema_separate, q, p', hq, hp', hresolves, hnodup, tree, htree⟩

end QueryClause

end Criteria
