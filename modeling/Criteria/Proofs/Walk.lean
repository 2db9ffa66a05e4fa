import Criteria.Combination

/-!
# Runs of a walk

A walk either ends with a result or fails, and both leave a state.  This module says when
a composed walk ends with a result, and separates what a walk does to the state from the
result that it computes.
-/

namespace Criteria

namespace Walk

variable {σ α β : Type}

theorem pure_apply (a : α) (s : σ) : (pure a : Walk σ α) s = .ok a s := rfl

theorem throw_apply (e : FilterError) (s : σ) : (throw e : Walk σ α) s = .error e s := rfl

theorem bind_apply (walk : Walk σ α) (next : α → Walk σ β) (s : σ) :
    (walk >>= next) s =
      match walk s with
      | .ok a s => next a s
      | .error e s => .error e s := by
  change EStateM.bind walk next s = _
  rw [EStateM.bind]
  cases walk s <;> rfl

theorem bind_eq_ok {walk : Walk σ α} {next : α → Walk σ β} {s s' : σ} {b : β} :
    (walk >>= next) s = .ok b s' ↔ ∃ a t, walk s = .ok a t ∧ next a t = .ok b s' := by
  rw [bind_apply]
  cases walk s with
  | ok a t =>
      constructor
      · intro h
        exact ⟨a, t, rfl, h⟩
      · rintro ⟨_, _, ⟨⟩, h⟩
        exact h
  | error e t => simp

theorem map_outcome_eq_ok {walk : Walk σ α} {f : α × σ → β} {s : σ} {b : β} :
    (walk.outcome s).map f = .ok b ↔ ∃ a s', walk s = .ok a s' ∧ f (a, s') = b := by
  rw [outcome]
  cases walk s with
  | ok a s' =>
      constructor
      · intro h
        exact ⟨a, s', rfl, Except.ok.inj h⟩
      · rintro ⟨_, _, ⟨⟩, rfl⟩
        rfl
  | error e s' => simp [Except.map]

theorem map_outcome_eq_error
    {walk : Walk σ α} {f : α × σ → β} {s : σ} {e : FilterError} :
    (walk.outcome s).map f = .error e ↔ ∃ s', walk s = .error e s' := by
  rw [outcome]
  cases walk s <;> simp [Except.map]

/-- The walk without its result. -/
def effect (walk : Walk σ α) : Walk σ Unit := do
  let _ ← walk
  return ()

theorem effect_apply (walk : Walk σ α) (s : σ) :
    walk.effect s =
      match walk s with
      | .ok _ s => .ok () s
      | .error e s => .error e s := by
  rw [effect, bind_apply]
  cases walk s <;> rfl

theorem effect_pure (a : α) : (pure a : Walk σ α).effect = pure () := rfl

theorem effect_throw (e : FilterError) : (throw e : Walk σ α).effect = throw e := rfl

theorem effect_eq_ok {walk : Walk σ α} {s s' : σ} :
    walk.effect s = .ok () s' ↔ ∃ a, walk s = .ok a s' := by
  rw [effect_apply]
  cases walk s <;> simp

theorem effect_eq_error {walk : Walk σ α} {s s' : σ} {e : FilterError} :
    walk.effect s = .error e s' ↔ walk s = .error e s' := by
  rw [effect_apply]
  cases walk s <;> simp

theorem effect_bind (walk : Walk σ α) (next : α → Walk σ β) :
    (walk >>= next).effect = walk >>= fun a => (next a).effect := by
  simp [effect]

/-- Where the result of a walk does not matter to what follows, its effect is enough. -/
theorem bind_eq_effect_bind
    {walk : Walk σ α} {next : α → Walk σ β} {fixed : Walk σ β}
    (h : ∀ a s s', walk s = .ok a s' → next a s' = fixed s') :
    walk >>= next = walk.effect >>= fun _ => fixed := by
  funext s
  rw [bind_apply, bind_apply, effect_apply]
  cases hwalk : walk s with
  | ok a s' => exact h a s s' hwalk
  | error e s' => rfl

end Walk

namespace Combination

variable {σ α ε : Type} [Connectives ε]

theorem nonempty_eq_ok {group : Group} {entry : Option α} {a : α} {s s' : σ} :
    (nonempty group entry : Walk σ α) s = .ok a s' ↔ entry = some a ∧ s = s' := by
  cases entry <;> simp [nonempty, Walk.pure_apply, Walk.throw_apply]

end Combination

section Steps

open Combination

variable {σ ε : Type} [Connectives ε]
variable (element : Criterion → Walk σ (Option ε)) (group : Group) (queue : List ε)

/-- The queue after the group below a criterion, if there is one. -/
def descend (c : Criterion) : Walk σ (List ε) :=
  if c.children.isEmpty then
    return queue
  else do
    let sub ← combineOnto element (.children c.field) [] c.children
    nonempty group (attach? sub queue)

theorem visit_eq (c : Criterion) :
    visit element group queue c =
      (element c >>= fun e =>
        nonempty group (enqueue? c.combinator e queue) >>= fun queue =>
          descend element group queue c) := by
  cases c
  simp only [visit, descend]

theorem combineOnto_nil :
    combineOnto element group queue [] = nonempty group (joined? queue) := by
  simp only [combineOnto]

theorem combineOnto_cons (c : Criterion) (rest : List Criterion) :
    combineOnto element group queue (c :: rest) =
      (element c >>= fun e =>
        nonempty group (enqueue? c.combinator e queue) >>= fun queue =>
          descend element group queue c >>= fun queue =>
            combineOnto element group queue rest) := by
  simp only [combineOnto, visit_eq, bind_assoc]

end Steps

end Criteria
