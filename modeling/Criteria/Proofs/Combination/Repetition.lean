import Criteria.Proofs.Rendering
import Mathlib.Algebra.GroupWithZero.Nat

/-!
# How often a condition is repeated

A criterion joined by OR that has no element joins the folded queue to itself.  All that its
group has queued before then stands twice in the expression, also the groups that were
joined to earlier criteria; what comes later, and the group below the criterion itself,
stands once.  So a condition is doubled by each such criterion that comes after its own, in
its own group or after a criterion that it stands below.  This module lists these later
criteria for every criterion and counts the conditions of an assembled expression by them.
-/

namespace Criteria

/-- A criterion with the criteria that come later in its group, and later than those that it
stands below in theirs. -/
structure Site where
  criterion : Criterion
  later : List Criterion

namespace Site

mutual

/-- The site of a criterion, followed by the sites below it. -/
def ofCriterion (later : List Criterion) : Criterion → List Site
  | ⟨combinator, field, comparison, value, children⟩ =>
    ⟨⟨combinator, field, comparison, value, children⟩, later⟩ :: ofList later children
termination_by structural c => c

/-- The sites of the criteria of a group and of those below them, in preorder, where other
criteria come later than the whole group. -/
def ofList (later : List Criterion) : List Criterion → List Site
  | [] => []
  | c :: rest => ofCriterion (rest ++ later) c ++ ofList later rest
termination_by structural cs => cs

end

theorem ofList_nil (later : List Criterion) : ofList later [] = [] := rfl

theorem ofList_cons (later : List Criterion) (c : Criterion) (rest : List Criterion) :
    ofList later (c :: rest) =
      ⟨c, rest ++ later⟩ :: (ofList (rest ++ later) c.children ++ ofList later rest) := by
  cases c
  simp only [ofList, ofCriterion, List.cons_append]

theorem map_criterion_ofList (cs : List Criterion) :
    ∀ later : List Criterion, (ofList later cs).map criterion = Criterion.preorder cs := by
  induction cs using Criterion.preorder_induction with
  | nil =>
      intro later
      rfl
  | cons c rest hchildren hrest =>
      intro later
      rw [ofList_cons, List.map_cons, List.map_append, hchildren, hrest, Criterion.preorder_cons]

end Site

namespace Combination

variable {α : Type}

/-- Whether a criterion joins the folded queue to itself. -/
def doubles (known : Criterion → Option (Expression α)) (c : Criterion) : Bool :=
  c.combinator == .or && (known c).isNone

theorem queued_of_enqueue?_or_none
    {queue next : List (Expression α)} (h : enqueue? .or none queue = some next) :
    queued next = queued queue ++ queued queue := by
  obtain ⟨folded, hfolded, rfl⟩ := Option.map_eq_some_iff.mp h
  rw [queued_cons, ← leaves_of_joined? hfolded]
  rfl

section Counts

variable (known : Criterion → Option (Expression α))

/-- How many times a condition stands in the expression if criteria come later. -/
def copies (later : List Criterion) : Nat :=
  2 ^ later.countP (doubles known)

theorem copies_append (first second : List Criterion) :
    copies known (first ++ second) = copies known first * copies known second := by
  rw [copies, List.countP_append, Nat.pow_add, copies, copies]

theorem copies_cons (c : Criterion) (rest : List Criterion) :
    copies known (c :: rest) = copies known [c] * copies known rest :=
  copies_append known [c] rest

variable [BEq α] (a : α)

/-- How often a condition stands in the expression on account of the criteria at the
sites. -/
def occurrences (sites : List Site) : Nat :=
  (sites.map fun s => copies known s.later * (own (known s.criterion)).count a).sum

theorem occurrences_ofList_cons (later : List Criterion) (c : Criterion) (rest : List Criterion) :
    occurrences known a (Site.ofList later (c :: rest)) =
      copies known (rest ++ later) * (own (known c)).count a +
        (occurrences known a (Site.ofList (rest ++ later) c.children) +
          occurrences known a (Site.ofList later rest)) := by
  simp only [occurrences, Site.ofList_cons, List.map_cons, List.map_append, List.sum_cons,
    List.sum_append]

/-- Criteria that come later than a whole group multiply all that stands in it alike. -/
theorem occurrences_ofList (cs : List Criterion) :
    ∀ later : List Criterion,
      occurrences known a (Site.ofList later cs) =
        copies known later * occurrences known a (Site.ofList [] cs) := by
  induction cs using Criterion.preorder_induction with
  | nil =>
      intro later
      rfl
  | cons c rest hchildren hrest =>
      intro later
      rw [occurrences_ofList_cons, occurrences_ofList_cons, hchildren, hrest, List.append_nil,
        hchildren rest, copies_append]
      grind

variable {known}

/-- A criterion doubles the conditions of the queue if it joins the fold to itself, and adds
its own otherwise. -/
theorem count_queued_of_enqueue?
    {c : Criterion} {queue next : List (Expression α)}
    (h : enqueue? c.combinator (known c) queue = some next) :
    (queued next).count a =
      copies known [c] * (queued queue).count a + (own (known c)).count a := by
  rw [copies, List.countP_singleton]
  cases hdoubles : doubles known c with
  | true =>
      obtain ⟨hor, hnone⟩ : c.combinator = .or ∧ known c = none := by
        simpa [doubles] using hdoubles
      rw [hor, hnone] at h
      rw [queued_of_enqueue?_or_none h, hnone, List.count_append, if_pos rfl, Nat.pow_one,
        Nat.two_mul]
      rfl
  | false =>
      have hsome : c.combinator = .or → (known c).isSome := by
        intro hor
        simpa [doubles, hor, Option.isSome_iff_ne_none] using hdoubles
      rw [queued_of_enqueue? h hsome, List.count_append, if_neg Bool.false_ne_true,
        Nat.pow_zero, Nat.one_mul]

/-- A condition stands in an assembled expression as often as in the queue, multiplied by
the criteria of the group, and as often besides as the criteria bring it in. -/
theorem Assembles.count_leaves
    {queue : List (Expression α)} {cs : List Criterion} {e : Expression α}
    (h : Assembles known queue cs e) :
    e.leaves.count a =
      copies known cs * (queued queue).count a +
        occurrences known a (Site.ofList [] cs) := by
  induction h with
  | nil hjoined =>
      rw [leaves_of_joined? hjoined]
      simp [occurrences, Site.ofList_nil, copies]
  | @leaf queue next c rest e hchildren hnext _ ih =>
      have hbelow : occurrences known a (Site.ofList rest c.children) = 0 := by
        rw [hchildren]
        rfl
      rw [ih, count_queued_of_enqueue? a hnext, occurrences_ofList_cons, List.append_nil, hbelow,
        copies_cons known c rest]
      grind
  | @group queue older c rest last sub e _ hnext _ _ ihsub ihrest =>
      -- What the group assembles is queued with the last entry.
      have hattached : (queued (Connectives.either last sub :: older)).count a =
          (queued (last :: older)).count a + sub.leaves.count a := by
        rw [queued_cons, queued_cons, ← List.count_append, List.append_assoc]
        rfl
      have hsub : sub.leaves.count a = occurrences known a (Site.ofList [] c.children) := by
        rw [ihsub]
        simp [queued]
      rw [ihrest, hattached, count_queued_of_enqueue? a hnext, hsub, occurrences_ofList_cons,
        List.append_nil, occurrences_ofList known a c.children rest,
        copies_cons known c rest]
      grind

end Counts

end Combination

end Criteria
