import Criteria.Proofs.Predicate.Compilation

/-!
# The meaning of a compiled predicate

Whether a record matches can be told without an expression.  Going through a group from
left to right it is enough to keep two truth values, that of the last entry of the queue
and that of all earlier ones joined by AND, because a group of children only widens the
last entry and everything else concerns the two together.  The main theorem says that this
evaluation gives what the compiled predicate gives.

Where every criterion that has children resolves, one truth value is enough: a criterion
and its children together extend the value of what stands before them.
-/

namespace Criteria

variable {R : RecordType}

/-- Whether a record's field compares as a criterion asks with the constant that its value
becomes, if there is such a field. -/
def Criterion.truth? (S : Schema R) (r : Record R) (c : Criterion) : Option Bool :=
  (S.resolve c.field).map fun f => c.comparison.holds (f.read r) (f.held c.value)

/-- The truth of what a group has queued: of the last entry, and of all older ones joined
by AND. -/
structure Tally where
  older : Bool
  last : Bool
deriving DecidableEq

namespace Tally

/-- The truth of the whole queue. -/
def value (t : Tally) : Bool :=
  t.older && t.last

/-- The tally after a criterion of which the truth is known, if it has one.  There is no
tally as long as nothing is queued. -/
def step : Combinator → Option Bool → Option Tally → Option Tally
  | .and, some x, none => some ⟨true, x⟩
  | .and, some x, some t => some ⟨t.value, x⟩
  | .and, none, t => t
  | .or, _, none => none
  | .or, some x, some t => some ⟨true, t.value || x⟩
  | .or, none, some t => some ⟨true, t.value⟩

/-- The tally after a group of children, whose truth joins the last entry. -/
def widen (sub : Option Bool) (t : Tally) : Tally :=
  ⟨t.older, t.last || sub.getD false⟩

mutual

/-- The tally of a group after one more criterion and its children. -/
def afterOne (truth : Criterion → Option Bool) (t : Option Tally) :
    Criterion → Option Tally
  | ⟨combinator, field, comparison, value, children⟩ =>
    (step combinator (truth ⟨combinator, field, comparison, value, children⟩) t).map
      (widen ((after truth none children).map Tally.value))
termination_by structural c => c

/-- The tally of a group after a list of criteria. -/
def after (truth : Criterion → Option Bool) (t : Option Tally) :
    List Criterion → Option Tally
  | [] => t
  | c :: rest => after truth (afterOne truth t c) rest
termination_by structural cs => cs

end

/-- The truth of a list of criteria, given that of each one. -/
def evaluate (truth : Criterion → Option Bool) (cs : List Criterion) : Option Bool :=
  (after truth none cs).map value

theorem after_cons
    (truth : Criterion → Option Bool) (t : Option Tally) (c : Criterion)
    (rest : List Criterion) :
    after truth t (c :: rest) =
      after truth ((step c.combinator (truth c) t).map (widen (evaluate truth c.children)))
        rest := by
  cases c
  simp only [after, afterOne, evaluate]

/-- The tally depends only on the truth of the criteria and of those below them. -/
theorem after_congr {truth truth' : Criterion → Option Bool} (cs : List Criterion) :
    ∀ t : Option Tally, (∀ c ∈ Criterion.preorder cs, truth c = truth' c) →
      after truth t cs = after truth' t cs := by
  induction cs using Criterion.preorder_induction with
  | nil =>
      intro t _
      simp only [after]
  | cons c rest hchildren hrest =>
      intro t h
      rw [Criterion.preorder_cons, List.forall_mem_cons, List.forall_mem_append] at h
      obtain ⟨hc, hbelow, hafter⟩ := h
      rw [after_cons, after_cons, evaluate, evaluate, hc, hchildren none hbelow,
        hrest _ hafter]

theorem evaluate_nil (truth : Criterion → Option Bool) : evaluate truth [] = none := rfl

theorem map_widen_none (t : Option Tally) : t.map (widen none) = t := by
  cases t <;> simp [widen]

end Tally

namespace LeftFold

/-- The truth after one more criterion, if that has a truth: it is joined to what stands
before it, if anything does. -/
def extend : Combinator → Option Bool → Option Bool → Option Bool
  | _, none, v => v
  | _, some x, none => some x
  | .and, some x, some v => some (v && x)
  | .or, some x, some v => some (v || x)

mutual

/-- The truth after one more criterion, which counts together with its children. -/
def one (truth : Criterion → Option Bool) (v : Option Bool) : Criterion → Option Bool
  | ⟨combinator, field, comparison, value, children⟩ =>
    extend combinator
      ((truth ⟨combinator, field, comparison, value, children⟩).map
        (· || (list truth none children).getD false)) v
termination_by structural c => c

/-- The truth of a list of criteria after what stands before it, by a left fold over those
that have a truth. -/
def list (truth : Criterion → Option Bool) (v : Option Bool) : List Criterion → Option Bool
  | [] => v
  | c :: rest => list truth (one truth v c) rest
termination_by structural cs => cs

end

theorem list_cons
    (truth : Criterion → Option Bool) (v : Option Bool) (c : Criterion)
    (rest : List Criterion) :
    list truth v (c :: rest) =
      list truth
        (extend c.combinator
          ((truth c).map (· || (list truth none c.children).getD false)) v) rest := by
  cases c
  simp only [list, one]

end LeftFold

namespace Tally

open Combination

variable {α : Type} (test : α → Bool)

/-- The tally of a queue of expressions. -/
def ofQueue : List (Expression α) → Option Tally
  | [] => none
  | last :: older => some ⟨older.all (Expression.holds test), last.holds test⟩

theorem holds_of_joined? {queue : List (Expression α)} {e : Expression α}
    (h : joined? queue = some e) :
    (ofQueue test queue).map value = some (e.holds test) := by
  induction queue generalizing e with
  | nil => simp [joined?] at h
  | cons last older ih =>
      cases older with
      | nil =>
          obtain rfl := Option.some.inj h
          simp [ofQueue, value]
      | cons next older =>
          obtain ⟨folded, hfolded, rfl⟩ := Option.map_eq_some_iff.mp h
          have hvalue : (older.all (Expression.holds test) && next.holds test) =
              folded.holds test := Option.some.inj (ih hfolded)
          change some (_ && _) = some (folded.holds test && last.holds test)
          rw [← hvalue, List.all_cons, Bool.and_comm (next.holds test)]

theorem step_ofQueue
    {combinator : Combinator} {own : Option (Expression α)}
    {queue next : List (Expression α)}
    (h : enqueue? combinator own queue = some next) :
    step combinator (own.map (Expression.holds test)) (ofQueue test queue) =
      ofQueue test next := by
  cases combinator with
  | and =>
      cases own with
      | none =>
          obtain rfl := Option.some.inj h
          rfl
      | some e =>
          obtain rfl := Option.some.inj h
          cases queue with
          | nil => rfl
          | cons last older =>
              simp only [ofQueue, Option.map_some, step, value, List.all_cons]
              rw [Bool.and_comm (last.holds test)]
  | or =>
      obtain ⟨folded, hfolded, rfl⟩ := Option.map_eq_some_iff.mp h
      obtain ⟨t, ht, hvalue⟩ := Option.map_eq_some_iff.mp (holds_of_joined? test hfolded)
      rw [ht]
      cases own with
      | none =>
          change some (Tally.mk true t.value) =
            some ⟨true, folded.holds test || folded.holds test⟩
          rw [hvalue, Bool.or_self]
      | some e =>
          change some (Tally.mk true (t.value || e.holds test)) =
            some ⟨true, folded.holds test || e.holds test⟩
          rw [hvalue]

/-- The tally follows the queue through every rule by which criteria assemble. -/
theorem after_of_assembles
    {known : Criterion → Option (Expression α)} {queue : List (Expression α)}
    {cs : List Criterion} {e : Expression α}
    (h : Assembles known queue cs e) :
    (after (fun c => (known c).map (Expression.holds test)) (ofQueue test queue) cs).map value =
      some (e.holds test) := by
  induction h with
  | nil hjoined => exact holds_of_joined? test hjoined
  | leaf hchildren hnext _ ih =>
      rw [after_cons, step_ofQueue test hnext, hchildren, evaluate_nil, map_widen_none]
      exact ih
  | @group _ older _ _ last sub _ _ hnext _ _ ihsub ihrest =>
      rw [after_cons, step_ofQueue test hnext]
      change evaluate _ _ = some (sub.holds test) at ihsub
      rw [ihsub]
      exact ihrest

end Tally

namespace LeftFold

open Combination

variable {α : Type} (test : α → Bool)

/-- In a left fold, a criterion and the group below it together extend the truth of the
queue, unless the criterion is passed over and has such a group. -/
theorem extend_ofQueue
    {combinator : Combinator} {own : Option (Expression α)}
    {queue next : List (Expression α)} {sub : Option Bool}
    (h : enqueue? combinator own queue = some next) (hsub : own = none → sub = none) :
    extend combinator ((own.map (Expression.holds test)).map (· || sub.getD false))
        ((Tally.ofQueue test queue).map Tally.value) =
      ((Tally.ofQueue test next).map (Tally.widen sub)).map Tally.value := by
  rw [← Tally.step_ofQueue test h]
  cases combinator with
  | and =>
      cases own with
      | none =>
          rw [hsub rfl, Tally.map_widen_none]
          rfl
      | some e =>
          cases Tally.ofQueue test queue <;>
            simp [extend, Tally.step, Tally.widen, Tally.value]
  | or =>
      obtain ⟨folded, hfolded, rfl⟩ := Option.map_eq_some_iff.mp h
      obtain ⟨t, ht, hvalue⟩ :=
        Option.map_eq_some_iff.mp (Tally.holds_of_joined? test hfolded)
      rw [ht]
      cases own with
      | none =>
          rw [hsub rfl, Tally.map_widen_none]
          simp [extend, Tally.step, Tally.value]
      | some e => simp [extend, Tally.step, Tally.widen, Tally.value, Bool.or_assoc]

/-- The left fold follows the queue if every criterion with children has an element. -/
theorem list_of_assembles
    {known : Criterion → Option (Expression α)} {queue : List (Expression α)}
    {cs : List Criterion} {e : Expression α}
    (h : Assembles known queue cs e)
    (hparents : ∀ c ∈ Criterion.preorder cs, c.children ≠ [] → (known c).isSome) :
    list (fun c => (known c).map (Expression.holds test))
      ((Tally.ofQueue test queue).map Tally.value) cs = some (e.holds test) := by
  induction h with
  | nil hjoined => exact Tally.holds_of_joined? test hjoined
  | leaf hchildren hnext _ ih =>
      have hrest := ih fun d hd => hparents d (by simp [hd])
      rw [list_cons, hchildren, list, extend_ofQueue test hnext fun _ => rfl,
        Tally.map_widen_none]
      exact hrest
  | group hchildren hnext _ _ ihsub ihrest =>
      have hsub := ihsub fun d hd => hparents d (by simp [hd])
      have hrest := ihrest fun d hd => hparents d (by simp [hd])
      have hown := hparents _ (by simp) hchildren
      change list _ none _ = _ at hsub
      rw [list_cons, hsub, extend_ofQueue test hnext fun h => by simp [h] at hown]
      exact hrest

end LeftFold

namespace Predicate

open Combination Criterion

theorem map_known (S : Schema R) (r : Record R) :
    (fun c => (known S c).map (Expression.holds fun t => t.holds r)) = truth? S r := by
  funext c
  rw [known, test?, truth?]
  cases S.resolve c.field <;> rfl

/-- A compiled predicate gives what the evaluation with two truth values gives, and also
what a left fold gives if every criterion that has children resolves. -/
theorem evaluate_eq_holds
    {S : Schema R} {cs : List Criterion} {p : Predicate R}
    (h : compile S cs = .ok p) (r : Record R) :
    Tally.evaluate (truth? S r) cs = some (p.holds r) ∧
      ((∀ c ∈ preorder cs, c.children ≠ [] → c.resolves S = true) →
        LeftFold.list (truth? S r) none cs = some (p.holds r)) := by
  have hassembles := assembles_of_compile h
  rw [← map_known]
  refine ⟨Tally.after_of_assembles _ hassembles, ?_⟩
  intro hparents
  refine LeftFold.list_of_assembles _ hassembles ?_
  intro c hc hchildren
  rw [isSome_known]
  exact hparents c hc hchildren

/-- Parcels above number 3 or with a note on glass, and unchanged by a colour that parcels
do not have, of which those without a number of 9 are wanted. -/
def parcelFilter : List Criterion :=
  [⟨.and, "number", .greaterThan, .text " 3 ",
      [⟨.and, "note", .contains, .text "glass", []⟩]⟩,
    ⟨.or, "colour", .equal, .text "red", []⟩,
    ⟨.and, "number", .notEqual, .text "9", []⟩]

theorem evaluate_eq_holds_parcelFilter :
    ∃ p, compile parcelSchema parcelFilter = .ok p ∧
      (∀ c ∈ preorder parcelFilter, c.children ≠ [] → c.resolves parcelSchema = true) ∧
      ∀ r, Tally.evaluate (truth? parcelSchema r) parcelFilter = some (p.holds r) ∧
        LeftFold.list (truth? parcelSchema r) none parcelFilter = some (p.holds r) := by
  have hparents :
      ∀ c ∈ preorder parcelFilter, c.children ≠ [] → c.resolves parcelSchema = true := by
    simp [parcelFilter]
    decide
  obtain ⟨p, hp⟩ : ∃ p, compile parcelSchema parcelFilter = .ok p := ⟨_, rfl⟩
  refine ⟨p, hp, hparents, ?_⟩
  intro r
  obtain ⟨hevaluate, hfold⟩ := evaluate_eq_holds hp r
  exact ⟨hevaluate, hfold hparents⟩

end Predicate

end Criteria
