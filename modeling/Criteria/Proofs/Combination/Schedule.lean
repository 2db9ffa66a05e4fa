import Criteria.Proofs.Preorder
import Criteria.Proofs.Walk

/-!
# The schedule of a combination

Whether combining fails, and with which error, is settled by the order in which the walk
asks for elements and finds a queue empty.  Where it is known beforehand which criteria
have an element, that order can be listed without running the walk.  The main theorem says
that the walk, its result aside, is the run of this list.  Where elements do not depend on the
state, the walk therefore fails with the first fault of the list.
-/

namespace Criteria

namespace Combination

variable {σ ε : Type} [Connectives ε]

/-- What a walk over criteria does in one step: it asks for the element of a criterion, or
it finds nothing to combine in a group. -/
inductive Event
  | ask (c : Criterion)
  | lack (group : Group)

namespace Event

/-- The step of the walk. -/
def step (element : Criterion → Walk σ (Option ε)) : Event → Walk σ Unit
  | .ask c => (element c).effect
  | .lack group => throw (.emptyCombination group)

/-- The criterion that is asked for its element. -/
def asked? : Event → Option Criterion
  | .ask c => some c
  | .lack _ => none

end Event

/-- Nothing is found to combine if the queue is empty. -/
def lacking (empty : Bool) (group : Group) : List Event :=
  if empty then [.lack group] else []

mutual

/-- The steps for a criterion of a group whose queue is empty or not. -/
def scheduleOne (kept : Criterion → Bool) (group : Group) (empty : Bool) :
    Criterion → List Event
  | ⟨combinator, field, comparison, value, children⟩ =>
    .ask ⟨combinator, field, comparison, value, children⟩ ::
      (lacking (empty && combinator == .or) group ++
        if children.isEmpty then []
        else
          schedule kept (.children field) true children ++
            lacking (empty && !kept ⟨combinator, field, comparison, value, children⟩) group)
termination_by structural c => c

/-- The steps for the criteria of a group whose queue is empty or not, given which
criteria have an element. -/
def schedule (kept : Criterion → Bool) (group : Group) (empty : Bool) :
    List Criterion → List Event
  | [] => lacking empty group
  | c :: rest => scheduleOne kept group empty c ++ schedule kept group (empty && !kept c) rest
termination_by structural cs => cs

end

/-- The steps for the group below a criterion, if there is one. -/
def scheduleBelow
    (kept : Criterion → Bool) (group : Group) (empty : Bool) (c : Criterion) : List Event :=
  if c.children.isEmpty then []
  else schedule kept (.children c.field) true c.children ++ lacking empty group

theorem schedule_nil (kept : Criterion → Bool) (group : Group) (empty : Bool) :
    schedule kept group empty [] = lacking empty group := by
  simp only [schedule]

theorem schedule_cons
    (kept : Criterion → Bool) (group : Group) (empty : Bool)
    (c : Criterion) (rest : List Criterion) :
    schedule kept group empty (c :: rest) =
      .ask c :: (lacking (empty && c.combinator == .or) group ++
        (scheduleBelow kept group (empty && !kept c) c ++
          schedule kept group (empty && !kept c) rest)) := by
  cases c
  simp only [schedule, scheduleOne, scheduleBelow, List.cons_append, List.append_assoc]

/-- A schedule depends only on which of its own criteria have an element. -/
theorem schedule_congr {kept kept' : Criterion → Bool} (cs : List Criterion) :
    ∀ (group : Group) (empty : Bool), (∀ c ∈ Criterion.preorder cs, kept c = kept' c) →
      schedule kept group empty cs = schedule kept' group empty cs := by
  induction cs using Criterion.preorder_induction with
  | nil =>
      intro group empty _
      rw [schedule_nil, schedule_nil]
  | cons c rest hchildren hrest =>
      intro group empty h
      rw [Criterion.preorder_cons, List.forall_mem_cons, List.forall_mem_append] at h
      obtain ⟨hc, hbelow, hafter⟩ := h
      rw [schedule_cons, schedule_cons, scheduleBelow, scheduleBelow, hc,
        hchildren _ true hbelow, hrest group _ hafter]

/-! ## The walk follows the schedule -/

theorem isNone_joined? (queue : List ε) : (joined? queue).isNone = queue.isEmpty := by
  induction queue with
  | nil => rfl
  | cons last older ih =>
      cases older with
      | nil => rfl
      | cons => simpa [joined?] using ih

theorem isNone_enqueue? (combinator : Combinator) (own : Option ε) (queue : List ε) :
    (enqueue? combinator own queue).isNone = (queue.isEmpty && combinator == .or) := by
  cases combinator with
  | and => cases own <;> simp [enqueue?]
  | or => simp [enqueue?, isNone_joined?]

theorem isEmpty_of_enqueue?
    {combinator : Combinator} {own : Option ε} {queue next : List ε}
    (h : enqueue? combinator own queue = some next) :
    next.isEmpty = (queue.isEmpty && !own.isSome) := by
  cases combinator with
  | and =>
      cases own <;> obtain rfl := Option.some.inj h <;> simp
  | or =>
      have hqueue : queue.isEmpty = false := by
        have hsome := isNone_enqueue? .or own queue
        simpa [h] using hsome.symm
      obtain ⟨_, _, rfl⟩ := Option.map_eq_some_iff.mp h
      simp [hqueue]

omit [Connectives ε] in
theorem effect_nonempty
    {α : Type} (element : Criterion → Walk σ (Option ε)) (group : Group) (entry : Option α) :
    (nonempty group entry : Walk σ α).effect =
      forM (lacking entry.isNone group) (Event.step element) := by
  cases entry with
  | none => simp [lacking, nonempty, Event.step, Walk.effect_throw]
  | some a => simp [lacking, nonempty, Walk.effect_pure]

theorem isEmpty_of_descend
    {element : Criterion → Walk σ (Option ε)} {group : Group} {queue next : List ε}
    {c : Criterion} {s s' : σ}
    (h : descend element group queue c s = .ok next s') : next.isEmpty = queue.isEmpty := by
  rw [descend] at h
  split at h
  next =>
    simp only [Walk.pure_apply, EStateM.Result.ok.injEq] at h
    rw [h.1]
  next =>
    simp only [Walk.bind_eq_ok, nonempty_eq_ok] at h
    obtain ⟨sub, _, _, hattach, _⟩ := h
    cases queue with
    | nil => simp [attach?] at hattach
    | cons last older =>
        obtain rfl := Option.some.inj hattach
        rfl

theorem effect_descend
    {element : Criterion → Walk σ (Option ε)} {kept : Criterion → Bool}
    {c : Criterion} (group : Group) (queue : List ε)
    (hchildren :
      (combineOnto element (.children c.field) [] c.children).effect =
        forM (schedule kept (.children c.field) true c.children) (Event.step element)) :
    (descend element group queue c).effect =
      forM (scheduleBelow kept group queue.isEmpty c) (Event.step element) := by
  rw [descend, scheduleBelow]
  split
  next => simp [Walk.effect_pure]
  next =>
    rw [Walk.effect_bind, List.forM_append, ← hchildren]
    apply Walk.bind_eq_effect_bind
    intro sub s s' _
    rw [effect_nonempty element]
    cases queue <;> rfl

/-- A walk over criteria, its result aside, is the run of its schedule. -/
theorem effect_combineOnto
    {element : Criterion → Walk σ (Option ε)} {kept : Criterion → Bool}
    (hkept : ∀ c s own s', element c s = .ok own s' → own.isSome = kept c)
    (cs : List Criterion) :
    ∀ (group : Group) (queue : List ε),
      (combineOnto element group queue cs).effect =
        forM (schedule kept group queue.isEmpty cs) (Event.step element) := by
  induction cs using Criterion.preorder_induction with
  | nil =>
      intro group queue
      rw [combineOnto_nil, schedule_nil, effect_nonempty element, isNone_joined?]
  | cons c rest hchildren hrest =>
      intro group queue
      rw [combineOnto_cons, schedule_cons, Walk.effect_bind, List.forM_cons]
      apply Walk.bind_eq_effect_bind
      intro own s t hown
      rw [Walk.effect_bind, List.forM_append, ← isNone_enqueue? c.combinator own queue,
        ← effect_nonempty]
      refine congrFun (Walk.bind_eq_effect_bind ?_) t
      intro next t₁ t₂ hnext
      have hempty : next.isEmpty = (queue.isEmpty && !kept c) := by
        rw [← hkept c s own t hown]
        exact isEmpty_of_enqueue? (nonempty_eq_ok.mp hnext).1
      rw [Walk.effect_bind, List.forM_append, ← hempty,
        ← effect_descend group next (hchildren _ _)]
      refine congrFun (Walk.bind_eq_effect_bind ?_) t₂
      intro queue' t₃ t₄ hqueue'
      rw [hrest, isEmpty_of_descend hqueue']

/-! ## The first fault of a schedule -/

/-- The fault of a step, given the fault of each criterion by itself. -/
def Event.fault? (misfit? : Criterion → Option FilterError) : Event → Option FilterError
  | .ask c => misfit? c
  | .lack group => some (.emptyCombination group)

/-- The first fault depends only on the faults of the criteria that are asked. -/
theorem findSome?_fault_congr
    {misfit? misfit?' : Criterion → Option FilterError} {events : List Event}
    (h : ∀ c ∈ events.filterMap Event.asked?, misfit? c = misfit?' c) :
    events.findSome? (Event.fault? misfit?) = events.findSome? (Event.fault? misfit?') := by
  induction events with
  | nil => rfl
  | cons event events ih =>
      rw [List.findSome?_cons, List.findSome?_cons]
      cases event with
      | lack group => rfl
      | ask c =>
          obtain ⟨hc, hrest⟩ := List.forall_mem_cons.mp h
          rw [Event.fault?, Event.fault?, hc, ih hrest]

omit [Connectives ε] in
theorem forM_step_apply
    {element : Criterion → Walk σ (Option ε)} {misfit? : Criterion → Option FilterError}
    (helement : ∀ c s, (element c).effect s =
      match misfit? c with
      | none => .ok () s
      | some e => .error e s)
    (events : List Event) (s : σ) :
    forM events (Event.step element) s =
      match events.findSome? (Event.fault? misfit?) with
      | none => .ok () s
      | some e => .error e s := by
  induction events with
  | nil => rfl
  | cons event events ih =>
      rw [List.forM_cons, Walk.bind_apply, List.findSome?_cons]
      cases event with
      | lack group => rfl
      | ask c =>
          rw [Event.step, helement, Event.fault?]
          cases misfit? c with
          | none => exact ih
          | some e => rfl

/-- The criteria are asked in preorder, each of them once. -/
theorem filterMap_asked?_schedule
    (kept : Criterion → Bool) (cs : List Criterion) :
    ∀ (group : Group) (empty : Bool),
      (schedule kept group empty cs).filterMap Event.asked? = Criterion.preorder cs := by
  have hlacking : ∀ empty group, (lacking empty group).filterMap Event.asked? = [] := by
    intro empty group
    cases empty <;> rfl
  induction cs using Criterion.preorder_induction with
  | nil =>
      intro group empty
      rw [schedule_nil, hlacking, Criterion.preorder_nil]
  | cons c rest hchildren hrest =>
      intro group empty
      have hbelow : ∀ empty,
          (scheduleBelow kept group empty c).filterMap Event.asked? =
            Criterion.preorder c.children := by
        intro empty
        rw [scheduleBelow]
        split
        next hempty => simp [List.isEmpty_iff.mp hempty]
        next => simp [hchildren, hlacking]
      simp [schedule_cons, Event.asked?, hlacking, hbelow, hrest]

/-- The walk finds the queue empty somewhere on its schedule. -/
def Lacks (events : List Event) : Prop :=
  ∃ group, .lack group ∈ events

theorem findSome?_fault_of_not_lacks
    {misfit? : Criterion → Option FilterError} {events : List Event}
    (hlacks : ¬ Lacks events) :
    events.findSome? (Event.fault? misfit?) =
      (events.filterMap Event.asked?).findSome? misfit? := by
  induction events with
  | nil => rfl
  | cons event events ih =>
      have hrest := ih fun ⟨group, h⟩ => hlacks ⟨group, by simp [h]⟩
      cases event with
      | ask c => simp [Event.asked?, Event.fault?, List.findSome?_cons, hrest]
      | lack group => exact absurd ⟨group, by simp⟩ hlacks

theorem findSome?_fault_of_fits
    {misfit? : Criterion → Option FilterError} {events : List Event} {e : FilterError}
    (hfits : ∀ c ∈ events.filterMap Event.asked?, misfit? c = none)
    (h : events.findSome? (Event.fault? misfit?) = some e) :
    ∃ group, e = .emptyCombination group := by
  obtain ⟨event, hevent, hfault⟩ := List.exists_of_findSome?_eq_some h
  cases event with
  | ask c =>
      have hasked : c ∈ events.filterMap Event.asked? :=
        List.mem_filterMap.mpr ⟨.ask c, hevent, rfl⟩
      simp [Event.fault?, hfits c hasked] at hfault
  | lack group => exact ⟨group, (Option.some.inj hfault).symm⟩

theorem findSome?_fault_eq_none_iff
    {misfit? : Criterion → Option FilterError} {events : List Event} :
    events.findSome? (Event.fault? misfit?) = none ↔
      (∀ c ∈ events.filterMap Event.asked?, misfit? c = none) ∧ ¬ Lacks events := by
  constructor
  · intro h
    have hlacks : ¬ Lacks events := by
      rintro ⟨group, hgroup⟩
      have hnone := List.findSome?_eq_none_iff.mp h _ hgroup
      cases hnone
    rw [findSome?_fault_of_not_lacks hlacks, List.findSome?_eq_none_iff] at h
    exact ⟨h, hlacks⟩
  · rintro ⟨hfits, hlacks⟩
    rw [findSome?_fault_of_not_lacks hlacks, List.findSome?_eq_none_iff]
    exact hfits

end Combination

end Criteria
