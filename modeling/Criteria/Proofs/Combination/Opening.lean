import Criteria.Proofs.Combination.Schedule

/-!
# How a group has to open

The queue of a group stays empty while its criteria are left out.  It must not be empty
when a criterion joined by OR comes, when the group below a criterion is to be joined to
its last entry, or at the end.  So a group may begin with criteria that are left out, as
long as they are joined by AND and have no children, and then needs one joined by AND that
has an element.  The main theorem says that the schedule of a combination meets no empty
queue exactly when every group opens in this way.
-/

namespace Criteria

namespace Combination

/-- The group has a criterion joined by AND that has an element, and before it stand only
criteria joined by AND that have neither an element nor children. -/
def Opens (kept : Criterion → Bool) (g : List Criterion) : Prop :=
  ∃ skipped first rest,
    g = skipped ++ first :: rest ∧
    (∀ c ∈ skipped, c.combinator = .and ∧ c.children = [] ∧ kept c = false) ∧
    first.combinator = .and ∧ kept first = true

variable {kept : Criterion → Bool}

theorem not_opens_nil : ¬ Opens kept [] := by
  rintro ⟨skipped, first, rest, h, -⟩
  simp at h

theorem opens_cons_iff {c : Criterion} {rest : List Criterion} :
    Opens kept (c :: rest) ↔
      c.combinator = .and ∧
        (kept c = true ∨ kept c = false ∧ c.children = [] ∧ Opens kept rest) := by
  constructor
  · rintro ⟨skipped, first, tail, h, hskipped, hfirst, hkept⟩
    cases skipped with
    | nil =>
        obtain ⟨rfl, rfl⟩ := List.cons.inj h
        exact ⟨hfirst, .inl hkept⟩
    | cons d skipped =>
        obtain ⟨rfl, rfl⟩ := List.cons.inj h
        obtain ⟨hand, hchildren, hleft⟩ := hskipped c (by simp)
        refine ⟨hand, .inr ⟨hleft, hchildren, skipped, first, tail, rfl, ?_, hfirst, hkept⟩⟩
        intro d hd
        exact hskipped d (by simp [hd])
  · rintro ⟨hand, hkept | ⟨hleft, hchildren, skipped, first, tail, rfl, hskipped, h⟩⟩
    · exact ⟨[], c, rest, rfl, by simp, hand, hkept⟩
    · refine ⟨c :: skipped, first, tail, rfl, ?_, h⟩
      intro d hd
      rcases List.mem_cons.mp hd with rfl | hd
      · exact ⟨hand, hchildren, hleft⟩
      · exact hskipped d hd

/-- What a criterion asks of the queue of its group, and leaves to the rest of the group, if
the group has to open. -/
theorem opens_cons_iff_of_empty {empty : Bool} {c : Criterion} {rest : List Criterion} :
    (empty = true → Opens kept (c :: rest)) ↔
      (empty && c.combinator == .or) = false ∧
        (c.children ≠ [] → (empty && !kept c) = false) ∧
        ((empty && !kept c) = true → Opens kept rest) := by
  cases empty with
  | false => simp
  | true =>
      have hcombinator : (c.combinator == .or) = false ↔ c.combinator = .and := by
        cases c.combinator <;> simp
      rw [opens_cons_iff, Bool.true_and, Bool.true_and, hcombinator]
      cases kept c with
      | true => simp
      | false =>
          by_cases hchildren : c.children = []
          · simp [hchildren]
          · simp [hchildren]

theorem not_lacks_append {first second : List Event} :
    ¬ Lacks (first ++ second) ↔ ¬ Lacks first ∧ ¬ Lacks second := by
  constructor
  · intro h
    constructor
    · rintro ⟨group, hgroup⟩
      exact h ⟨group, List.mem_append_left second hgroup⟩
    · rintro ⟨group, hgroup⟩
      exact h ⟨group, List.mem_append_right first hgroup⟩
  · rintro ⟨hfirst, hsecond⟩ ⟨group, hgroup⟩
    rcases List.mem_append.mp hgroup with hgroup | hgroup
    · exact hfirst ⟨group, hgroup⟩
    · exact hsecond ⟨group, hgroup⟩

theorem not_lacks_ask_cons {c : Criterion} {events : List Event} :
    ¬ Lacks (.ask c :: events) ↔ ¬ Lacks events := by
  simp [Lacks]

theorem not_lacks_lacking {empty : Bool} {group : Group} :
    ¬ Lacks (lacking empty group) ↔ empty = false := by
  cases empty <;> simp [Lacks, lacking]

theorem not_lacks_scheduleBelow_iff {group : Group} {empty : Bool} {c : Criterion} :
    ¬ Lacks (scheduleBelow kept group empty c) ↔
      (c.children ≠ [] → ¬ Lacks (schedule kept (.children c.field) true c.children)) ∧
        (c.children ≠ [] → empty = false) := by
  rw [scheduleBelow]
  by_cases hchildren : c.children = []
  · simp [hchildren, Lacks]
  · rw [if_neg (by simpa using hchildren), not_lacks_append, not_lacks_lacking]
    simp [hchildren]

/-- A schedule that starts with an empty queue meets no empty queue if the group and all
groups below it open; one that starts with a queue needs only those below. -/
theorem not_lacks_schedule_iff (cs : List Criterion) :
    ∀ (group : Group) (empty : Bool),
      ¬ Lacks (schedule kept group empty cs) ↔
        (empty = true → Opens kept cs) ∧
          ∀ c ∈ Criterion.preorder cs, c.children ≠ [] → Opens kept c.children := by
  induction cs using Criterion.preorder_induction with
  | nil =>
      intro group empty
      rw [schedule_nil, not_lacks_lacking]
      simp [not_opens_nil]
  | cons c rest hchildren hrest =>
      intro group empty
      rw [schedule_cons, not_lacks_ask_cons, not_lacks_append, not_lacks_append,
        not_lacks_lacking, not_lacks_scheduleBelow_iff, hrest, opens_cons_iff_of_empty]
      simp only [hchildren, forall_const, Criterion.preorder_cons, List.forall_mem_cons,
        List.forall_mem_append]
      constructor
      · rintro ⟨hor, ⟨hbelow, hattach⟩, hopens, hall⟩
        refine ⟨⟨hor, hattach, hopens⟩, fun hne => (hbelow hne).1, ?_, hall⟩
        intro d hd
        refine (hbelow ?_).2 d hd
        intro hnil
        simp [hnil] at hd
      · rintro ⟨⟨hor, hattach, hopens⟩, hown, hbelow, hall⟩
        exact ⟨hor, ⟨fun hne => ⟨hown hne, hbelow⟩, hattach⟩, hopens, hall⟩

theorem not_lacks_topLevel_iff (cs : List Criterion) :
    ¬ Lacks (schedule kept .topLevel true cs) ↔ ∀ g ∈ Criterion.groups cs, Opens kept g := by
  rw [not_lacks_schedule_iff, Criterion.forall_groups_iff]
  simp

end Combination

end Criteria
