import Criteria.Predicate
import Criteria.Proofs.Combination.Opening
import Criteria.Proofs.Expression
import Criteria.Proofs.Fitting

/-!
# Which filters compile

Compilation asks for the test of each criterion and leaves out those whose field the
schema lacks.  It succeeds exactly if every criterion fits the schema and every group opens
with a criterion that has a test.  If only one of the two conditions fails, the error
follows from that one: something is empty, or the first criterion in preorder that does not
fit is at fault.
-/

namespace Criteria

variable {R : RecordType}

/-- The test that a criterion asks for, absent if the schema lacks the field. -/
def Criterion.test? (S : Schema R) (c : Criterion) : Option (Test R) :=
  (S.resolve c.field).map fun f => ⟨f, c.comparison, f.held c.value⟩

namespace Predicate

open Combination Criterion

/-- The expression of a single criterion. -/
def known (S : Schema R) (c : Criterion) : Option (Expression (Test R)) :=
  (c.test? S).map .leaf

theorem element_apply (S : Schema R) (c : Criterion) (s : Unit) :
    element S c s =
      match c.misfit? S with
      | none => .ok (known S c) s
      | some e => .error e s := by
  rw [element, Test.ofCriterion, known, test?]
  cases hf : S.resolve c.field with
  | none => simp [misfit?, hf, Walk.ofExcept, Walk.pure_apply, Except.map]
  | some f =>
      simp only [constant_eq hf]
      cases c.misfit? S <;> rfl

theorem effect_element (S : Schema R) (c : Criterion) (s : Unit) :
    (element S c).effect s =
      match c.misfit? S with
      | none => .ok () s
      | some e => .error e s := by
  rw [Walk.effect_apply, element_apply]
  cases c.misfit? S <;> rfl

theorem element_yields (S : Schema R) : Yields (element S) (known S) := by
  intro c s e s' h
  rw [element_apply] at h
  cases hmisfit : c.misfit? S with
  | none =>
      rw [hmisfit] at h
      cases h
      rfl
  | some e => simp [hmisfit] at h

theorem isSome_known (S : Schema R) (c : Criterion) :
    (known S c).isSome = c.resolves S := by
  simp [known, test?, resolves]

theorem isSome_of_element (S : Schema R) :
    ∀ c s own s', element S c s = .ok own s' → own.isSome = c.resolves S := by
  intro c s own s' hown
  rw [element_yields S c s own s' hown, isSome_known]

theorem assembles_of_compile
    {S : Schema R} {cs : List Criterion} {p : Predicate R} (h : compile S cs = .ok p) :
    Assembles (known S) [] cs p.expression := by
  obtain ⟨e, s, hwalk, rfl⟩ := Walk.map_outcome_eq_ok.mp h
  exact assembles_of_combineOnto (element_yields S) cs hwalk

/-- Every test of a compiled predicate is that of a criterion. -/
theorem exists_criterion_of_mem_leaves
    {S : Schema R} {cs : List Criterion} {p : Predicate R} {t : Test R}
    (h : compile S cs = .ok p) (ht : t ∈ p.expression.leaves) :
    ∃ c ∈ preorder cs, c.test? S = some t := by
  rcases (assembles_of_compile h).mem_leaves ht with
    ⟨entry, hentry, -⟩ | ⟨c, hc, own, hknown, ht⟩
  · cases hentry
  · obtain ⟨own', htest, rfl⟩ := Option.map_eq_some_iff.mp hknown
    obtain rfl := List.mem_singleton.mp ht
    exact ⟨c, hc, htest⟩

/-- The steps of a compilation. -/
def steps (S : Schema R) (cs : List Criterion) : List Event :=
  schedule (resolves S) .topLevel true cs

theorem effect_combine (S : Schema R) (cs : List Criterion) :
    (combine (element S) cs).effect () =
      match (steps S cs).findSome? (Event.fault? (misfit? S)) with
      | none => .ok () ()
      | some e => .error e () := by
  have hwalk := congrFun (effect_combineOnto (isSome_of_element S) cs .topLevel []) ()
  exact hwalk.trans (forM_step_apply (effect_element S) (steps S cs) ())

theorem compile_eq_error_iff {S : Schema R} {cs : List Criterion} {e : FilterError} :
    compile S cs = .error e ↔
      (steps S cs).findSome? (Event.fault? (misfit? S)) = some e := by
  have hwalk : compile S cs = .error e ↔
      ∃ s, (combine (element S) cs).effect () = .error e s := by
    simp only [Walk.effect_eq_error]
    exact Walk.map_outcome_eq_error
  rw [hwalk, effect_combine]
  cases (steps S cs).findSome? (Event.fault? (misfit? S)) <;> simp

theorem asked_steps (S : Schema R) (cs : List Criterion) :
    (steps S cs).filterMap Event.asked? = preorder cs :=
  filterMap_asked?_schedule (resolves S) cs .topLevel true

theorem not_lacks_steps_iff {S : Schema R} {cs : List Criterion} :
    ¬ Lacks (steps S cs) ↔ ∀ g ∈ groups cs, Opens (resolves S) g :=
  not_lacks_topLevel_iff cs

theorem exists_compile_iff {S : Schema R} {cs : List Criterion} :
    (∃ p, compile S cs = .ok p) ↔
      (∀ c ∈ preorder cs, c.Fits S) ∧ ∀ g ∈ groups cs, Opens (resolves S) g := by
  have hfault : (∃ p, compile S cs = .ok p) ↔
      (steps S cs).findSome? (Event.fault? (misfit? S)) = none := by
    rw [Option.eq_none_iff_forall_ne_some]
    cases hcompile : compile S cs with
    | ok p => simp [← compile_eq_error_iff, hcompile]
    | error e =>
        have hsome := compile_eq_error_iff.mp hcompile
        simp [hsome]
  rw [hfault, findSome?_fault_eq_none_iff, asked_steps, not_lacks_steps_iff]
  simp only [misfit?_eq_none_iff]

/-- Compilation succeeds exactly if every criterion fits and every group opens.  If all
criteria fit but a group does not open, something is empty; if all groups open but a
criterion does not fit, the first such criterion in preorder is at fault. -/
theorem compile_succeeds_iff_and_errors (S : Schema R) (cs : List Criterion) :
    ((∃ p, compile S cs = .ok p) ↔
        (∀ c ∈ preorder cs, c.Fits S) ∧ ∀ g ∈ groups cs, Opens (resolves S) g) ∧
      ((∀ c ∈ preorder cs, c.Fits S) → ¬ (∀ g ∈ groups cs, Opens (resolves S) g) →
        ∃ group, compile S cs = .error (.emptyCombination group)) ∧
      ((∀ g ∈ groups cs, Opens (resolves S) g) → ¬ (∀ c ∈ preorder cs, c.Fits S) →
        ∃ e, (preorder cs).findSome? (misfit? S) = some e ∧ compile S cs = .error e) ∧
      ∀ e, compile S cs = .error e →
        (∀ field record, e ≠ .unresolvedField field record) ∧
          ∀ field, e ≠ .duplicatePlaceholder field := by
  refine ⟨exists_compile_iff, ?_, ?_, ?_⟩
  · intro hfits hopens
    obtain ⟨e, he⟩ : ∃ e, compile S cs = .error e := by
      cases hcompile : compile S cs with
      | ok p => exact absurd (exists_compile_iff.mp ⟨p, hcompile⟩).2 hopens
      | error e => exact ⟨e, rfl⟩
    have hasked : ∀ c ∈ (steps S cs).filterMap Event.asked?, c.misfit? S = none := by
      intro c hc
      rw [asked_steps] at hc
      exact misfit?_eq_none_iff.mpr (hfits c hc)
    obtain ⟨group, rfl⟩ := findSome?_fault_of_fits hasked (compile_eq_error_iff.mp he)
    exact ⟨group, he⟩
  · intro hopens hfits
    have hfirst : (steps S cs).findSome? (Event.fault? (misfit? S)) =
        (preorder cs).findSome? (misfit? S) := by
      rw [← asked_steps S cs]
      exact findSome?_fault_of_not_lacks (not_lacks_steps_iff.mpr hopens)
    cases hmisfit : (preorder cs).findSome? (misfit? S) with
    | none =>
        refine absurd (fun c hc => misfit?_eq_none_iff.mp ?_) hfits
        exact List.findSome?_eq_none_iff.mp hmisfit c hc
    | some e => exact ⟨e, rfl, compile_eq_error_iff.mpr (hfirst.trans hmisfit)⟩
  · intro e he
    obtain ⟨event, -, hfault⟩ :=
      List.exists_of_findSome?_eq_some (compile_eq_error_iff.mp he)
    cases event with
    | ask c => exact misfit?_ne hfault
    | lack group =>
        obtain rfl := Option.some.inj hfault
        simp

end Predicate

end Criteria
