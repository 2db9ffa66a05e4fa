import Criteria.Proofs.Preorder
import Criteria.Proofs.Walk

/-!
# The element that criteria assemble

Where the element of each criterion is known beforehand, what a list of criteria is
combined into follows from the elements alone.  The relation below states the rules: how
the queue changes with a criterion, and how the group below the criterion joins the last
entry.  A walk that ends with a result has assembled it by these rules, whatever it did to
its state, so a property of the results is proved by induction on the rules.
-/

namespace Criteria

namespace Combination

variable {σ ε δ : Type} [Connectives ε] [Connectives δ]

/-- What a queue and a list of criteria assemble, given the element of each criterion. -/
inductive Assembles (known : Criterion → Option ε) : List ε → List Criterion → ε → Prop
  | nil {queue : List ε} {e : ε}
      (hjoined : joined? queue = some e) :
      Assembles known queue [] e
  | leaf {queue next : List ε} {c : Criterion} {rest : List Criterion} {e : ε}
      (hchildren : c.children = [])
      (hnext : enqueue? c.combinator (known c) queue = some next)
      (hrest : Assembles known next rest e) :
      Assembles known queue (c :: rest) e
  | group {queue older : List ε} {c : Criterion} {rest : List Criterion} {last sub e : ε}
      (hchildren : c.children ≠ [])
      (hnext : enqueue? c.combinator (known c) queue = some (last :: older))
      (hsub : Assembles known [] c.children sub)
      (hrest : Assembles known (Connectives.either last sub :: older) rest e) :
      Assembles known queue (c :: rest) e

/-- The element that `element` yields for a criterion does not depend on the state. -/
def Yields (element : Criterion → Walk σ (Option ε)) (known : Criterion → Option ε) : Prop :=
  ∀ c s e s', element c s = .ok e s' → e = known c

theorem attach?_eq_some {sub : ε} {queue next : List ε} :
    attach? sub queue = some next ↔
      ∃ last older, queue = last :: older ∧ Connectives.either last sub :: older = next := by
  cases queue with
  | nil => simp [attach?]
  | cons last older =>
      constructor
      · intro h
        exact ⟨last, older, rfl, Option.some.inj h⟩
      · rintro ⟨_, _, ⟨⟩, rfl⟩
        rfl

/-- A walk that ends with a result has assembled it from the known elements. -/
theorem assembles_of_combineOnto
    {element : Criterion → Walk σ (Option ε)} {known : Criterion → Option ε}
    (hyields : Yields element known) (cs : List Criterion) :
    ∀ {group : Group} {queue : List ε} {s s' : σ} {e : ε},
      combineOnto element group queue cs s = .ok e s' → Assembles known queue cs e := by
  induction cs using Criterion.preorder_induction with
  | nil =>
      intro group queue s s' e h
      rw [combineOnto_nil, nonempty_eq_ok] at h
      exact .nil h.1
  | cons c rest hchildren hrest =>
      intro group queue s s' e h
      simp only [combineOnto_cons, Walk.bind_eq_ok, nonempty_eq_ok] at h
      obtain ⟨own, t, hown, next, _, ⟨hnext, rfl⟩, below, t', hbelow, h⟩ := h
      rw [hyields c _ _ _ hown] at hnext
      rw [descend] at hbelow
      split at hbelow
      next hempty =>
        obtain ⟨rfl, rfl⟩ : next = below ∧ t = t' := by
          simpa [Walk.pure_apply] using hbelow
        exact .leaf (List.isEmpty_iff.mp hempty) hnext (hrest h)
      next hempty =>
        simp only [Walk.bind_eq_ok, nonempty_eq_ok, attach?_eq_some] at hbelow
        obtain ⟨sub, _, hsub, ⟨last, older, rfl, rfl⟩, rfl⟩ := hbelow
        exact .group (by simpa using hempty) hnext (hchildren hsub) (hrest h)

theorem Assembles.unique
    {known : Criterion → Option ε} {queue : List ε} {cs : List Criterion} {e e' : ε}
    (h : Assembles known queue cs e) (h' : Assembles known queue cs e') : e = e' := by
  induction h generalizing e' with
  | nil hjoined =>
      cases h' with
      | nil hjoined' => exact Option.some.inj (hjoined.symm.trans hjoined')
  | leaf hchildren hnext _ ih =>
      cases h' with
      | leaf _ hnext' hrest' =>
          obtain rfl := Option.some.inj (hnext.symm.trans hnext')
          exact ih hrest'
      | group hchildren' _ _ _ => exact absurd hchildren hchildren'
  | group hchildren hnext _ _ ihsub ihrest =>
      cases h' with
      | leaf hchildren' _ _ => exact absurd hchildren' hchildren
      | group _ hnext' hsub' hrest' =>
          obtain ⟨rfl, rfl⟩ : _ = _ ∧ _ = _ :=
            List.cons.inj (Option.some.inj (hnext.symm.trans hnext'))
          obtain rfl := ihsub hsub'
          exact ihrest hrest'

/-- What criteria assemble depends only on their own elements and on those below them. -/
theorem Assembles.congr
    {known known' : Criterion → Option ε} {queue : List ε} {cs : List Criterion} {e : ε}
    (h : Assembles known queue cs e) (hknown : ∀ c ∈ Criterion.preorder cs, known c = known' c) :
    Assembles known' queue cs e := by
  induction h with
  | nil hjoined => exact .nil hjoined
  | leaf hchildren hnext _ ih =>
      rw [hknown _ (by simp)] at hnext
      exact .leaf hchildren hnext (ih fun c hc => hknown c (by simp [hc]))
  | group hchildren hnext _ _ ihsub ihrest =>
      rw [hknown _ (by simp)] at hnext
      exact .group hchildren hnext (ihsub fun c hc => hknown c (by simp [hc]))
        (ihrest fun c hc => hknown c (by simp [hc]))

/-- A map between element types that keeps both connectives. -/
structure Preserves (f : ε → δ) : Prop where
  both : ∀ a b, f (Connectives.both a b) = Connectives.both (f a) (f b)
  either : ∀ a b, f (Connectives.either a b) = Connectives.either (f a) (f b)

theorem joined?_map {f : ε → δ} (hf : Preserves f) :
    ∀ queue : List ε, joined? (queue.map f) = (joined? queue).map f
  | [] => rfl
  | [_] => rfl
  | last :: next :: older => by
    have ih := joined?_map hf (next :: older)
    simp only [List.map_cons] at ih ⊢
    simp only [joined?, ih, Option.map_map]
    congr 1
    funext e
    exact (hf.both e last).symm

theorem enqueue?_map {f : ε → δ} (hf : Preserves f)
    (combinator : Combinator) (element : Option ε) (queue : List ε) :
    enqueue? combinator (element.map f) (queue.map f) =
      (enqueue? combinator element queue).map (List.map f) := by
  cases combinator with
  | and => cases element <;> rfl
  | or =>
      simp only [enqueue?, joined?_map hf, Option.map_map]
      congr 1
      funext folded
      cases element <;> simp [hf.either]

/-- What is assembled from images of the elements is the image of what the elements
assemble. -/
theorem Assembles.map
    {f : ε → δ} (hf : Preserves f)
    {known : Criterion → Option ε} {queue : List ε} {cs : List Criterion} {e : ε}
    (h : Assembles known queue cs e) :
    Assembles (fun c => (known c).map f) (queue.map f) cs (f e) := by
  induction h with
  | nil hjoined => exact .nil (by rw [joined?_map hf, hjoined]; rfl)
  | leaf hchildren hnext _ ih =>
      exact .leaf hchildren (by rw [enqueue?_map hf, hnext]; rfl) ih
  | group hchildren hnext _ _ ihsub ihrest =>
      refine .group hchildren (by rw [enqueue?_map hf, hnext]; rfl) ihsub ?_
      simpa [hf.either] using ihrest

end Combination

end Criteria
