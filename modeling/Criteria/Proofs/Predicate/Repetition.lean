import Criteria.Proofs.Combination.Repetition
import Criteria.Proofs.Predicate.Compilation
import Mathlib.Data.List.Basic

/-!
# The tests of a compiled predicate

No criterion whose field exists is lost in a compilation, at whatever depth it stands, and
nothing else becomes a test.  A criterion joined by OR whose field the schema lacks folds the
queue and joins the fold to itself, so the tests that stand before it are doubled.  This
module says how often each test occurs in the end.  Where the schema has the field of every
criterion joined by OR, the tests occur once and stand in the order of the filter.
-/

namespace Criteria

variable {R : RecordType}

namespace Predicate

open Combination Criterion

/-- Whether a criterion is joined by OR and the schema lacks its field. -/
def echoes (S : Schema R) (c : Criterion) : Bool :=
  c.combinator == .or && !c.resolves S

/-- The criteria of a filter, each of them `2 ^ k` times: `k` counts the criteria joined by
OR whose field the schema lacks, among those that come later in the group of the criterion
or later than one that it stands below. -/
def repeated (S : Schema R) (cs : List Criterion) : List Criterion :=
  (Site.ofList [] cs).flatMap fun s =>
    List.replicate (2 ^ s.later.countP (echoes S)) s.criterion

theorem mem_repeated_iff {S : Schema R} {cs : List Criterion} {c : Criterion} :
    c ∈ repeated S cs ↔ c ∈ preorder cs := by
  rw [← Site.map_criterion_ofList cs [], repeated, List.mem_flatMap, List.mem_map]
  simp [List.mem_replicate, eq_comm]

theorem own_known (S : Schema R) (c : Criterion) : own (known S c) = (c.test? S).toList := by
  rw [own, known]
  cases c.test? S <;> rfl

theorem doubles_known (S : Schema R) : doubles (known S) = echoes S := by
  funext c
  rw [doubles, echoes, ← isSome_known S c, Option.not_isSome]

theorem count_repeated (S : Schema R) (cs : List Criterion) (t : Test R) :
    ((repeated S cs).filterMap (test? S)).count t =
      occurrences (known S) t (Site.ofList [] cs) := by
  rw [repeated, List.filterMap_flatMap, List.count_flatMap, occurrences]
  congr 1
  apply List.map_congr_left
  intro s _
  rw [Function.comp_apply, List.filterMap_replicate, copies, doubles_known, own_known]
  cases s.criterion.test? S with
  | none => rfl
  | some own => by_cases hown : own = t <;> simp [List.count_replicate, hown]

/-- The tests of a compiled predicate are those of the criteria whose field exists, at any
depth, and each criterion is repeated as often as the later ones double it.  If the field of
every criterion joined by OR exists, the tests stand in the text in preorder, each once. -/
theorem leaves_perm_repeated
    {S : Schema R} {cs : List Criterion} {p : Predicate R} (h : compile S cs = .ok p) :
    (∀ t, t ∈ p.expression.leaves ↔ ∃ c ∈ preorder cs, c.test? S = some t) ∧
      p.expression.leaves.Perm ((repeated S cs).filterMap (test? S)) ∧
      ((∀ c ∈ preorder cs, c.combinator = .or → c.resolves S = true) →
        p.text = String.join (p.expression.symbols.map (Symbol.text " && " " || " Test.text)) ∧
        p.expression.symbols.filterMap Symbol.condition? =
          (preorder cs).filterMap (test? S)) := by
  have hassembles := assembles_of_compile h
  have hperm : p.expression.leaves.Perm ((repeated S cs).filterMap (test? S)) := by
    apply List.perm_iff_count.mpr
    intro t
    rw [count_repeated, hassembles.count_leaves t]
    simp [queued]
  refine ⟨?_, hperm, ?_⟩
  · intro t
    rw [hperm.mem_iff, List.mem_filterMap]
    simp only [mem_repeated_iff]
  · intro hors
    refine ⟨Expression.render_eq_join _ _ _ _, ?_⟩
    have hleaves := hassembles.leaves_eq fun c hc hor => by
      rw [isSome_known]
      exact hors c hc hor
    rw [Expression.filterMap_condition?_symbols, hleaves, List.filterMap_eq_flatMap_toList]
    simp only [own_known]
    rfl

/-- Parcels above number 3 with a note on glass below, where a colour is asked for both beside
the note and beside the number; and of these the ones that do not have number 9. -/
def echoingParcels : List Criterion :=
  [⟨.and, "number", .greaterThan, .text " 3 ",
      [⟨.and, "note", .contains, .text "glass", []⟩, ⟨.or, "colour", .equal, .text "red", []⟩]⟩,
    ⟨.or, "colour", .equal, .text "blue", []⟩,
    ⟨.and, "number", .notEqual, .text "9", []⟩]

/-- Parcels above number 3 or with a note on glass, and those with number 2. -/
def plainParcels : List Criterion :=
  [⟨.and, "number", .greaterThan, .text " 3 ", [⟨.and, "note", .contains, .text "glass", []⟩]⟩,
    ⟨.or, "number", .equal, .text "2", []⟩]

theorem leaves_perm_repeated_echoingParcels :
    (∃ p, compile parcelSchema echoingParcels = .ok p ∧
      (∀ t, t ∈ p.expression.leaves ↔
        ∃ c ∈ preorder echoingParcels, c.test? parcelSchema = some t) ∧
      p.expression.leaves.Perm
        ((repeated parcelSchema echoingParcels).filterMap (test? parcelSchema)) ∧
      p.expression.leaves.map Test.comparison =
        [.greaterThan, .contains, .contains, .greaterThan, .contains, .contains, .notEqual]) ∧
    ∃ p, compile parcelSchema plainParcels = .ok p ∧
      (∀ c ∈ preorder plainParcels, c.combinator = .or → c.resolves parcelSchema = true) ∧
      p.expression.symbols.filterMap Symbol.condition? =
        (preorder plainParcels).filterMap (test? parcelSchema) := by
  obtain ⟨p, hp⟩ : ∃ p, compile parcelSchema echoingParcels = .ok p ∧
      p.expression.leaves.map Test.comparison =
        [.greaterThan, .contains, .contains, .greaterThan, .contains, .contains, .notEqual] :=
    ⟨_, rfl, rfl⟩
  obtain ⟨q, hq⟩ : ∃ q, compile parcelSchema plainParcels = .ok q := ⟨_, rfl⟩
  obtain ⟨hmem, hperm, -⟩ := leaves_perm_repeated hp.1
  obtain ⟨-, -, hordered⟩ := leaves_perm_repeated hq
  have hors :
      ∀ c ∈ preorder plainParcels, c.combinator = .or → c.resolves parcelSchema = true := by
    simp [plainParcels]
    decide
  exact ⟨⟨p, hp.1, hmem, hperm, hp.2⟩, q, hq, hors, (hordered hors).2⟩

end Predicate

end Criteria
