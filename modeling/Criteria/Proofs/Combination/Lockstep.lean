import Criteria.Proofs.Combination.Assembly

/-!
# Walks in lockstep

A walk over criteria touches its state only where it asks for an element, and it looks at an
element only to join it.  So if two functions that are asked for elements are related, the two
walks are: as long as they go on, the elements of one are images of those of the other and the
states stay related, and if one fails the other fails with the same error.  How the states are
related may depend on the criteria that are still to be asked, which follow in preorder.
-/

namespace Criteria

namespace Walk

variable {σ τ α β γ δ : Type}
variable {failed : FilterError → σ → τ → Prop}

/-- Two runs that end alike: with related results and states, or with the same error and states
that are related after it. -/
inductive Alike (ended : α → σ → β → τ → Prop) (failed : FilterError → σ → τ → Prop) :
    EStateM.Result FilterError σ α → EStateM.Result FilterError τ β → Prop
  | ok {a : α} {s : σ} {b : β} {t : τ} (h : ended a s b t) : Alike ended failed (.ok a s) (.ok b t)
  | error {e : FilterError} {s : σ} {t : τ} (h : failed e s t) :
      Alike ended failed (.error e s) (.error e t)

theorem Alike.exists_of_ok
    {ended : α → σ → β → τ → Prop} {a : α} {s : σ} {run : EStateM.Result FilterError τ β}
    (h : Alike ended failed (.ok a s) run) : ∃ b t, run = .ok b t ∧ ended a s b t := by
  cases h with
  | ok h => exact ⟨_, _, rfl, h⟩

theorem Alike.exists_of_error
    {ended : α → σ → β → τ → Prop} {e : FilterError} {s : σ}
    {run : EStateM.Result FilterError τ β} (h : Alike ended failed (.error e s) run) :
    ∃ t, run = .error e t ∧ failed e s t := by
  cases h with
  | error h => exact ⟨_, rfl, h⟩

theorem Alike.bind
    {ended : α → σ → β → τ → Prop} {ended' : γ → σ → δ → τ → Prop}
    {walk : Walk σ α} {walk' : Walk τ β} {next : α → Walk σ γ} {next' : β → Walk τ δ}
    {s : σ} {t : τ}
    (h : Alike ended failed (walk s) (walk' t))
    (hnext : ∀ a s b t, ended a s b t → Alike ended' failed (next a s) (next' b t)) :
    Alike ended' failed ((walk >>= next) s) ((walk' >>= next') t) := by
  rw [bind_apply, bind_apply]
  cases hwalk : walk s with
  | ok a s' =>
      rw [hwalk] at h
      obtain ⟨b, t', hwalk', hended⟩ := h.exists_of_ok
      rw [hwalk']
      exact hnext a s' b t' hended
  | error e s' =>
      rw [hwalk] at h
      obtain ⟨t', hwalk', hfailed⟩ := h.exists_of_error
      rw [hwalk']
      exact .error hfailed

end Walk

namespace Combination

open Walk

variable {σ τ ε δ : Type} [Connectives ε] [Connectives δ]

/-- Two functions that are asked for elements answer alike: where the states are related before
a criterion and those that follow it, the second answer is the image of the first one and the
states are related before the rest.  A walk may also fail by itself in any such states. -/
structure Lockstep
    (f : ε → δ) (before : List Criterion → σ → τ → Prop) (failed : FilterError → σ → τ → Prop)
    (element : Criterion → Walk σ (Option ε)) (element' : Criterion → Walk τ (Option δ)) :
    Prop where
  ask : ∀ c todo s t, before (c :: todo) s t →
    Alike (fun own s own' t => own' = own.map f ∧ before todo s t) failed
      (element c s) (element' c t)
  lack : ∀ group todo s t, before todo s t → failed (.emptyCombination group) s t

section Steps

variable {f : ε → δ} {before : List Criterion → σ → τ → Prop}
variable {failed : FilterError → σ → τ → Prop}
variable {element : Criterion → Walk σ (Option ε)} {element' : Criterion → Walk τ (Option δ)}

omit [Connectives ε] [Connectives δ] in
theorem Lockstep.nonempty
    {α β : Type} {g : α → β} (h : Lockstep f before failed element element') (group : Group)
    (entry : Option α) {todo : List Criterion} {s : σ} {t : τ} (hbefore : before todo s t) :
    Alike (fun a s b t => b = g a ∧ before todo s t) failed
      (nonempty group entry s) (nonempty group (entry.map g) t) := by
  cases entry with
  | none => exact .error (h.lack group todo s t hbefore)
  | some a => exact .ok ⟨rfl, hbefore⟩

theorem attach?_map
    (hf : Preserves f) (sub : ε) (queue : List ε) :
    attach? (f sub) (queue.map f) = (attach? sub queue).map (List.map f) := by
  cases queue with
  | nil => rfl
  | cons last older => simp [attach?, hf.either]

/-- Walks over the same criteria stay in lockstep. -/
theorem Lockstep.combineOnto
    (hf : Preserves f) (h : Lockstep f before failed element element') (cs : List Criterion) :
    ∀ (group : Group) (queue : List ε) (todo : List Criterion) (s : σ) (t : τ),
      before (Criterion.preorder cs ++ todo) s t →
        Alike (fun e s e' t => e' = f e ∧ before todo s t) failed
          (combineOnto element group queue cs s)
          (combineOnto element' group (queue.map f) cs t) := by
  induction cs using Criterion.preorder_induction with
  | nil =>
      intro group queue todo s t hbefore
      rw [combineOnto_nil, combineOnto_nil, joined?_map hf]
      exact h.nonempty group (joined? queue) hbefore
  | cons c rest hchildren hrest =>
      intro group queue todo s t hbefore
      rw [Criterion.preorder_cons, List.cons_append, List.append_assoc] at hbefore
      rw [combineOnto_cons, combineOnto_cons]
      apply (h.ask c _ s t hbefore).bind
      rintro own s _ t ⟨rfl, hbefore⟩
      rw [enqueue?_map hf]
      apply (h.nonempty group _ hbefore).bind
      rintro queue s _ t ⟨rfl, hbefore⟩
      have hdescend :
          Alike (fun queue s queue' t =>
              queue' = queue.map f ∧ before (Criterion.preorder rest ++ todo) s t) failed
            (descend element group queue c s) (descend element' group (queue.map f) c t) := by
        rw [descend, descend]
        split
        next hempty =>
          rw [List.isEmpty_iff.mp hempty, Criterion.preorder_nil, List.nil_append] at hbefore
          exact .ok ⟨rfl, hbefore⟩
        next =>
          apply (hchildren _ [] _ s t hbefore).bind
          rintro sub s _ t ⟨rfl, hbefore⟩
          rw [attach?_map hf]
          exact h.nonempty group _ hbefore
      apply hdescend.bind
      rintro queue s _ t ⟨rfl, hbefore⟩
      exact hrest group queue todo s t hbefore

/-- Walks over the same group, of which nothing is queued yet, stay in lockstep to its end. -/
theorem Lockstep.group
    (hf : Preserves f) (h : Lockstep f before failed element element') (group : Group)
    (cs : List Criterion) (s : σ) (t : τ) (hbefore : before (Criterion.preorder cs) s t) :
    Alike (fun e s e' t => e' = f e ∧ before [] s t) failed
      (Criteria.combineOnto element group [] cs s)
      (Criteria.combineOnto element' group [] cs t) := by
  apply h.combineOnto hf cs group [] [] s t
  rwa [List.append_nil]

end Steps

theorem preserves_id : Preserves (id : ε → ε) where
  both _ _ := rfl
  either _ _ := rfl

/-! ## Causes of failure -/

/-- What can make a walk over criteria fail: a group in which there is nothing to combine, or one
of the criteria. -/
def Causes (element : Criterion → Walk σ (Option ε)) (all : List Criterion) (e : FilterError) :
    Prop :=
  (∃ group, e = .emptyCombination group) ∨ ∃ c ∈ all, ∃ s s', element c s = .error e s'

omit [Connectives ε] in
theorem lockstep_self (element : Criterion → Walk σ (Option ε)) (all : List Criterion) :
    Lockstep id (fun todo s t => s = t ∧ todo ⊆ all) (fun e _ _ => Causes element all e)
      element element where
  ask := by
    rintro c todo s _ ⟨rfl, htodo⟩
    obtain ⟨hc, htodo⟩ := List.cons_subset.mp htodo
    cases hown : element c s with
    | ok own s' => exact .ok ⟨by simp, rfl, htodo⟩
    | error e s' => exact .error (.inr ⟨c, hc, s, s', hown⟩)
  lack := by
    intro group todo s t _
    exact .inl ⟨group, rfl⟩

theorem causes_of_combine_eq_error
    {element : Criterion → Walk σ (Option ε)} {cs : List Criterion} {e : FilterError} {s s' : σ}
    (h : combine element cs s = .error e s') : Causes element (Criterion.preorder cs) e := by
  have hrun := (lockstep_self element (Criterion.preorder cs)).group preserves_id .topLevel cs s s
    ⟨rfl, List.Subset.refl _⟩
  rw [← combine, h] at hrun
  obtain ⟨_, _, hcauses⟩ := hrun.exists_of_error
  exact hcauses

end Combination

end Criteria
