import Criteria.Proofs.Clause.Generation
import Criteria.Proofs.Combination.Exchange
import Criteria.Proofs.Predicate.Pruning

/-!
# The order of neighbours that are joined alike

Criteria are combined from left to right, and most changes of their order change what a
filter means.  Two neighbours that are joined alike can be exchanged, though: in a left fold
they extend the truth of what stands before them one after the other by the same connective.
As long as no criterion whose field the schema lacks has children, the left fold is what a
predicate means, so the exchange keeps every match.  Neither backend fails on one of the two
filters only.
-/

namespace Criteria

namespace LeftFold

open Criterion

/-- Two truths that are joined alike can be joined in either order. -/
theorem extend_comm (combinator : Combinator) (x y v : Option Bool) :
    extend combinator x (extend combinator y v) = extend combinator y (extend combinator x v) := by
  cases combinator with
  | and =>
      cases x <;> cases y <;> cases v <;> simp [extend, Bool.and_comm, Bool.and_left_comm]
  | or =>
      cases x <;> cases y <;> cases v <;> simp [extend, Bool.or_comm, Bool.or_left_comm]

/-- A left fold does not see an exchange of neighbours that are joined alike. -/
theorem list_exchange
    {truth : Criterion → Option Bool}
    (htruth : ∀ c children, truth (c.withChildren children) = truth c)
    {cs ds : List Criterion} (h : Exchange cs ds) :
    ∀ v : Option Bool, list truth v cs = list truth v ds := by
  induction h with
  | swap hcombinator =>
      intro v
      simp only [list_cons]
      rw [hcombinator, extend_comm]
  | later _ ih =>
      intro v
      rw [list_cons, list_cons, ih]
  | @inside c children rest _ ih =>
      intro v
      rw [list_cons, list_cons, ih, htruth]
      rfl

end LeftFold

variable {R : RecordType} {S : Schema R} {cs ds : List Criterion}

namespace Criterion

theorem parents_resolve
    (hleaves : ∀ c ∈ preorder cs, c.resolves S = false → c.children = []) :
    ∀ c ∈ preorder cs, c.children ≠ [] → c.resolves S = true := by
  intro c hc hchildren
  cases hleft : c.resolves S with
  | true => rfl
  | false => exact absurd (hleaves c hc hleft) hchildren

/-- After an exchange there is still no criterion with children whose field the schema
lacks. -/
theorem Exchange.leaves
    (h : Exchange cs ds)
    (hleaves : ∀ c ∈ preorder cs, c.resolves S = false → c.children = []) :
    ∀ d ∈ preorder ds, d.resolves S = false → d.children = [] := by
  intro d hd hleft
  rcases h.exists_of_mem_preorder hd with hd | ⟨c, hc, children, rfl, hchildren⟩
  · exact hleaves d hd hleft
  · exact absurd (hleaves c hc hleft) hchildren.ne_nil

end Criterion

namespace Predicate

open Combination Criterion

theorem compile_exchange
    (h : Exchange cs ds)
    (hleaves : ∀ c ∈ preorder cs, c.resolves S = false → c.children = [])
    (hcompile : ∃ p, compile S cs = .ok p) : ∃ p, compile S ds = .ok p := by
  obtain ⟨hfits, hopens⟩ := exists_compile_iff.mp hcompile
  refine exists_compile_iff.mpr ⟨h.forall_preorder (fun _ _ hfits => hfits) hfits, ?_⟩
  refine h.forall_groups ?_ hopens
  intro g hg g' hexchange hopens
  refine hopens.exchange (fun _ _ => rfl) hexchange ?_
  intro c hc
  exact hleaves c (mem_preorder_of_mem_group hg hc)

theorem holds_exchange
    (h : Exchange cs ds)
    (hleaves : ∀ c ∈ preorder cs, c.resolves S = false → c.children = [])
    {p q : Predicate R} (hp : compile S cs = .ok p) (hq : compile S ds = .ok q)
    (r : Record R) : p.holds r = q.holds r := by
  have hbefore := list_truth?_eq_holds hp (parents_resolve hleaves) r
  have hafter := list_truth?_eq_holds hq (parents_resolve (h.leaves hleaves)) r
  rw [LeftFold.list_exchange (fun _ _ => rfl) h, hafter] at hbefore
  exact (Option.some.inj hbefore).symm

end Predicate

namespace QueryClause

open Criterion

theorem generate_exchange
    {options : ClauseOptions} (h : Exchange cs ds)
    (hgenerate : ∃ q, generate options S cs = .ok q) : ∃ q, generate options S ds = .ok q := by
  obtain ⟨-, hleading, hresolves, hnodup, hfits⟩ := exists_generate_iff.mp hgenerate
  refine exists_generate_iff.mpr ⟨h.symm.ne_nil, ?_, ?_, ?_, ?_⟩
  · refine h.forall_groups ?_ hleading
    intro g _ g' hexchange hleading d hd
    have hcombinator : g.head?.map combinator = some d.combinator := by
      rw [← hexchange.map_combinator_head?, hd]
      rfl
    obtain ⟨c, hc, hsame⟩ := Option.map_eq_some_iff.mp hcombinator
    rw [← hsame]
    exact hleading c hc
  · exact h.forall_preorder (fun _ _ hresolves => hresolves) hresolves
  · exact h.perm_fields.nodup_iff.mp hnodup
  · exact h.forall_preorder (fun _ _ hfits => hfits) hfits

end QueryClause

open Criterion

/-- If no criterion whose field the schema lacks has children, two neighbours that are joined
alike can be exchanged with all that stands below them: either both filters compile, to
predicates that match the same records, or neither does; and either both give a query clause
or neither does. -/
theorem exchange_keeps_matches
    (h : Exchange cs ds)
    (hleaves : ∀ c ∈ preorder cs, c.resolves S = false → c.children = []) :
    ((∃ p, Predicate.compile S cs = .ok p) ↔ ∃ q, Predicate.compile S ds = .ok q) ∧
      (∀ p q, Predicate.compile S cs = .ok p → Predicate.compile S ds = .ok q →
        ∀ r, p.holds r = q.holds r) ∧
      ∀ options, (∃ q, QueryClause.generate options S cs = .ok q) ↔
        ∃ q, QueryClause.generate options S ds = .ok q := by
  refine ⟨⟨?_, ?_⟩, fun p q => Predicate.holds_exchange h hleaves, fun options => ⟨?_, ?_⟩⟩
  · exact Predicate.compile_exchange h hleaves
  · exact Predicate.compile_exchange h.symm (h.leaves hleaves)
  · exact QueryClause.generate_exchange h
  · exact QueryClause.generate_exchange h.symm

namespace Criterion

/-- Above number 3, with the given children. -/
def high (children : List Criterion) : Criterion :=
  ⟨.and, "number", .greaterThan, .text " 3 ", children⟩

/-- With a note on glass. -/
def glass : Criterion :=
  ⟨.and, "note", .contains, .text "glass", []⟩

/-- Red, although parcels have no colour. -/
def red : Criterion :=
  ⟨.and, "colour", .equal, .text "red", []⟩

/-- Or else light, although parcels have no weight. -/
def orLight : Criterion :=
  ⟨.or, "weight", .lessThan, .text "2", []⟩

/-- Or else with number 2. -/
def orSecond : Criterion :=
  ⟨.or, "number", .equal, .text "2", []⟩

end Criterion

/-- A group in which a skipped OR and another OR are exchanged, which changes the predicate but
not its matches. -/
def glassOrSecond : List Criterion :=
  [red, high [glass, orSecond, orLight]]

/-- The same group after the exchange. -/
def glassOrLight : List Criterion :=
  [red, high [glass, orLight, orSecond]]

theorem exchange_keeps_matches_glassOrSecond :
    (Exchange glassOrSecond glassOrLight ∧
      (∀ c ∈ preorder glassOrSecond, c.resolves parcelSchema = false → c.children = []) ∧
      ∃ p q, Predicate.compile parcelSchema glassOrSecond = .ok p ∧
        Predicate.compile parcelSchema glassOrLight = .ok q ∧
        p ≠ q ∧ ∀ r, p.holds r = q.holds r) ∧
    Exchange [high [], glass] [glass, high []] ∧
      (∀ c ∈ preorder [high [], glass], c.resolves parcelSchema = false → c.children = []) ∧
      ∃ q, QueryClause.generate {} parcelSchema [glass, high []] = .ok q := by
  have hchildren : Exchange (high [glass, orSecond, orLight]).children
      [glass, orLight, orSecond] := .later (.swap rfl)
  have hgroup : Exchange glassOrSecond glassOrLight := .later (.inside hchildren)
  have hpair : Exchange [high [], glass] [glass, high []] := .swap rfl
  have hleaves : ∀ c ∈ preorder glassOrSecond,
      c.resolves parcelSchema = false → c.children = [] := by
    simp [glassOrSecond, red, high, glass, orSecond, orLight]
    decide
  have hleaves' : ∀ c ∈ preorder [high [], glass],
      c.resolves parcelSchema = false → c.children = [] := by
    simp [high, glass]
  obtain ⟨p, hp, hcount⟩ : ∃ p, Predicate.compile parcelSchema glassOrSecond = .ok p ∧
      p.expression.leaves.length = 5 := ⟨_, rfl, rfl⟩
  obtain ⟨q, hq, hcount'⟩ : ∃ q, Predicate.compile parcelSchema glassOrLight = .ok q ∧
      q.expression.leaves.length = 4 := ⟨_, rfl, rfl⟩
  have hne : p ≠ q := by
    rintro rfl
    rw [hcount] at hcount'
    cases hcount'
  obtain ⟨-, hholds, -⟩ := exchange_keeps_matches hgroup hleaves
  obtain ⟨-, -, hgenerate⟩ := exchange_keeps_matches hpair hleaves'
  exact ⟨⟨hgroup, hleaves, p, q, hp, hq, hne, hholds p q hp hq⟩, hpair, hleaves',
    (hgenerate {}).mp ⟨_, rfl⟩⟩

end Criteria
