import Criteria.Proofs.Combination.Schedule

/-!
# Walks that go on

A walk over a list of criteria meets the end of the list only after the last of them.  If
further criteria follow, it takes the same steps up to there and goes on with the queue that
it has then.  So a failure before the end is there whatever follows.  At the end itself the
walk fails only with an empty queue, and a queue that was empty stays so only while criteria
are passed over: they are joined by AND and have neither an element nor children.
-/

namespace Criteria

namespace Combination

variable {σ ε : Type} [Connectives ε]
variable {element : Criterion → Walk σ (Option ε)} {group : Group}

/-- A walk over a list with further criteria behind it goes on with the queue that the list
leaves. -/
theorem combineOnto_append (cs ds : List Criterion) :
    ∀ queue : List ε,
      combineOnto element group queue (cs ++ ds) =
        cs.foldlM (visit element group) queue >>= fun queue =>
          combineOnto element group queue ds := by
  induction cs with
  | nil =>
      intro queue
      rw [List.nil_append, List.foldlM_nil, pure_bind]
  | cons c rest ih =>
      intro queue
      rw [List.cons_append, List.foldlM_cons, bind_assoc]
      simp only [combineOnto, ih]

/-- A walk over a list combines at the end what the list leaves in the queue. -/
theorem combineOnto_eq_foldlM (cs : List Criterion) (queue : List ε) :
    combineOnto element group queue cs =
      cs.foldlM (visit element group) queue >>= fun queue => nonempty group (joined? queue) := by
  rw [← cs.append_nil, combineOnto_append, cs.append_nil]
  simp only [combineOnto_nil]

/-! ## Criteria that are passed over -/

theorem visit_of_passed_over
    {c : Criterion} {s : σ} (hand : c.combinator = .and) (hchildren : c.children = [])
    (hnone : element c s = .ok none s) (queue : List ε) :
    visit element group queue c s = .ok queue s := by
  have hdescend : descend element group queue c = pure queue := by
    rw [descend, if_pos (List.isEmpty_iff.mpr hchildren)]
  rw [visit_eq, Walk.bind_apply, hnone, hand]
  exact congrFun hdescend s

/-- Criteria that are passed over leave the queue as it was. -/
theorem foldlM_visit_of_passed_over
    {cs : List Criterion} {s : σ}
    (hpassed : ∀ c ∈ cs, c.combinator = .and ∧ c.children = [])
    (hnone : ∀ c ∈ cs, element c s = .ok none s) (queue : List ε) :
    cs.foldlM (visit element group) queue s = .ok queue s := by
  induction cs with
  | nil => rfl
  | cons c rest ih =>
      obtain ⟨⟨hand, hchildren⟩, hrest⟩ := List.forall_mem_cons.mp hpassed
      obtain ⟨hown, hothers⟩ := List.forall_mem_cons.mp hnone
      rw [List.foldlM_cons, Walk.bind_apply, visit_of_passed_over hand hchildren hown]
      exact ih hrest hothers

/-- Criteria that are passed over can be left out at the beginning of a list. -/
theorem combineOnto_append_of_passed_over
    {cs : List Criterion} {s : σ}
    (hpassed : ∀ c ∈ cs, c.combinator = .and ∧ c.children = [])
    (hnone : ∀ c ∈ cs, element c s = .ok none s) (queue : List ε) (ds : List Criterion) :
    combineOnto element group queue (cs ++ ds) s = combineOnto element group queue ds s := by
  rw [combineOnto_append, Walk.bind_apply, foldlM_visit_of_passed_over hpassed hnone]

/-! ## Failures -/

theorem ne_nil_of_attach?
    {sub : ε} {queue next : List ε} (h : attach? sub queue = some next) : next ≠ [] := by
  rintro rfl
  cases queue <;> simp [attach?] at h

/-- A queue that is empty after a criterion was queued or left out was empty before. -/
theorem left_out_of_enqueue?_eq_nil
    {combinator : Combinator} {own : Option ε} {queue : List ε}
    (h : enqueue? combinator own queue = some []) :
    queue = [] ∧ combinator = .and ∧ own = none := by
  cases combinator with
  | and => cases own <;> simp_all [enqueue?]
  | or => simp [enqueue?] at h

theorem childless_of_descend_eq_nil
    {queue : List ε} {c : Criterion} {s s' : σ}
    (h : descend element group queue c s = .ok [] s') : queue = [] ∧ c.children = [] := by
  rw [descend] at h
  split at h
  next hchildren =>
    rw [Walk.pure_apply] at h
    cases h
    exact ⟨rfl, List.isEmpty_iff.mp hchildren⟩
  next =>
    obtain ⟨sub, t, -, h⟩ := Walk.bind_eq_ok.mp h
    obtain ⟨hattach, -⟩ := nonempty_eq_ok.mp h
    exact absurd rfl (ne_nil_of_attach? hattach)

/-- The queue is empty after a criterion only if it was empty before and the criterion was
passed over. -/
theorem passed_over_of_visit_eq_nil
    {queue : List ε} {c : Criterion} {s s' : σ}
    (h : visit element group queue c s = .ok [] s') :
    queue = [] ∧ c.combinator = .and ∧ c.children = [] ∧ ∃ t, element c s = .ok none t := by
  rw [visit_eq] at h
  obtain ⟨own, t, hown, h⟩ := Walk.bind_eq_ok.mp h
  obtain ⟨next, _, hnext, hdescend⟩ := Walk.bind_eq_ok.mp h
  obtain ⟨rfl, hchildren⟩ := childless_of_descend_eq_nil hdescend
  obtain ⟨hqueue, hand, rfl⟩ := left_out_of_enqueue?_eq_nil (nonempty_eq_ok.mp hnext).1
  exact ⟨hqueue, hand, hchildren, t, hown⟩

section Kept

variable {kept : Criterion → Bool}
variable (hkept : ∀ c s own s', element c s = .ok own s' → own.isSome = kept c)
include hkept

/-- The queue is empty after a list of criteria only if all of them were passed over. -/
theorem passed_over_of_foldlM_visit_eq_nil (cs : List Criterion) :
    ∀ (queue : List ε) (s s' : σ), cs.foldlM (visit element group) queue s = .ok [] s' →
      queue = [] ∧ ∀ c ∈ cs, c.combinator = .and ∧ c.children = [] ∧ kept c = false := by
  induction cs with
  | nil =>
      intro queue s s' h
      cases h
      exact ⟨rfl, by simp⟩
  | cons c rest ih =>
      intro queue s s' h
      rw [List.foldlM_cons] at h
      obtain ⟨next, t, hvisit, h⟩ := Walk.bind_eq_ok.mp h
      obtain ⟨rfl, hrest⟩ := ih next t s' h
      obtain ⟨hqueue, hand, hchildren, t', hnone⟩ := passed_over_of_visit_eq_nil hvisit
      refine ⟨hqueue, List.forall_mem_cons.mpr ⟨⟨hand, hchildren, ?_⟩, hrest⟩⟩
      exact (hkept c s none t' hnone).symm

/-- A walk that fails over a list fails alike whatever follows, unless all criteria of the
list were passed over. -/
theorem combineOnto_append_of_error
    {cs : List Criterion} {queue : List ε} {s s' : σ} {e : FilterError}
    (h : combineOnto element group queue cs s = .error e s') :
    (∀ c ∈ cs, c.combinator = .and ∧ c.children = [] ∧ kept c = false) ∨
      ∀ ds, combineOnto element group queue (cs ++ ds) s = .error e s' := by
  rw [combineOnto_eq_foldlM, Walk.bind_apply] at h
  cases hrun : cs.foldlM (visit element group) queue s with
  | error e' t =>
      right
      intro ds
      rw [hrun] at h
      rw [combineOnto_append, Walk.bind_apply, hrun]
      exact h
  | ok next t =>
      left
      -- Nothing but an empty queue makes the walk fail at the end.
      have hjoined : joined? next = none := by
        cases hjoined : joined? next with
        | none => rfl
        | some joined => simp [hrun, hjoined, nonempty, Walk.pure_apply] at h
      obtain rfl : next = [] := by
        have hempty := isNone_joined? next
        rw [hjoined, Option.isNone_none] at hempty
        exact List.isEmpty_iff.mp hempty.symm
      exact (passed_over_of_foldlM_visit_eq_nil hkept cs queue s t hrun).2

end Kept

end Combination

end Criteria
