import Criteria.Error

/-!
# The criteria of a filter in preorder

A filter is a tree: what is said of it is said of the criteria at every depth and of the
groups that they form.  This module lists both, with each criterion before the ones below
it, and keeps for each criterion the place where it stands.
-/

namespace Criteria

namespace Criterion

/-- Induction over a list of criteria and over the children of each of them. -/
theorem preorder_induction
    {motive : List Criterion → Prop}
    (nil : motive [])
    (cons : ∀ c rest, motive c.children → motive rest → motive (c :: rest)) :
    ∀ cs, motive cs :=
  list_induction nil
    fun combinator field comparison value children =>
      cons ⟨combinator, field, comparison, value, children⟩

mutual

/-- A criterion, followed by those below it. -/
def subtree : Criterion → List Criterion
  | ⟨combinator, field, comparison, value, children⟩ =>
    ⟨combinator, field, comparison, value, children⟩ :: preorder children
termination_by structural c => c

/-- The criteria of a list and those below them, each before the ones below it. -/
def preorder : List Criterion → List Criterion
  | [] => []
  | c :: rest => subtree c ++ preorder rest
termination_by structural cs => cs

end

@[simp] theorem preorder_nil : preorder [] = [] := rfl

@[simp] theorem preorder_cons (c : Criterion) (rest : List Criterion) :
    preorder (c :: rest) = c :: (preorder c.children ++ preorder rest) := by
  cases c
  simp [preorder, subtree]

theorem mem_preorder_of_mem {c : Criterion} {cs : List Criterion} (h : c ∈ cs) :
    c ∈ preorder cs := by
  induction cs with
  | nil => cases h
  | cons d rest ih =>
      rcases List.mem_cons.mp h with rfl | h
      · simp
      · simp [ih h]

theorem mem_preorder_of_mem_children
    {c d : Criterion} {cs : List Criterion} (hc : c ∈ preorder cs) (hd : d ∈ c.children) :
    d ∈ preorder cs := by
  induction cs using preorder_induction with
  | nil => cases hc
  | cons e rest hchildren hrest =>
      rw [preorder_cons, List.mem_cons, List.mem_append] at hc ⊢
      rcases hc with rfl | hc | hc
      · exact .inr (.inl (mem_preorder_of_mem hd))
      · exact .inr (.inl (hchildren hc))
      · exact .inr (.inr (hrest hc))

/-- The list itself and every group of children at any depth that is not empty. -/
def groups (cs : List Criterion) : List (List Criterion) :=
  cs :: ((preorder cs).map children).filter fun g => !g.isEmpty

theorem forall_groups_iff {cs : List Criterion} {property : List Criterion → Prop} :
    (∀ g ∈ groups cs, property g) ↔
      property cs ∧ ∀ c ∈ preorder cs, c.children ≠ [] → property c.children := by
  rw [groups, List.forall_mem_cons]
  refine and_congr_right fun _ => ?_
  simp only [List.mem_filter, List.mem_map, Bool.not_eq_true', List.isEmpty_eq_false_iff]
  constructor
  · intro h c hc hne
    exact h c.children ⟨⟨c, hc, rfl⟩, hne⟩
  · rintro h _ ⟨⟨c, hc, rfl⟩, hne⟩
    exact h c hc hne

theorem mem_preorder_of_mem_group
    {c : Criterion} {cs g : List Criterion} (hg : g ∈ groups cs) (hc : c ∈ g) :
    c ∈ preorder cs := by
  have hall : ∀ g ∈ groups cs, ∀ c ∈ g, c ∈ preorder cs :=
    forall_groups_iff.mpr
      ⟨fun _ hc => mem_preorder_of_mem hc, fun _ hc _ _ hd => mem_preorder_of_mem_children hc hd⟩
  exact hall g hg c hc

theorem ne_nil_of_mem_groups
    {cs g : List Criterion} (hne : cs ≠ []) (hg : g ∈ groups cs) : g ≠ [] := by
  have hall : ∀ g ∈ groups cs, g ≠ [] :=
    forall_groups_iff.mpr ⟨hne, fun _ _ hchildren => hchildren⟩
  exact hall g hg

end Criterion

/-- Where a criterion stands: in which group, and whether it opens the group. -/
structure Place where
  group : Group
  opens : Bool
  criterion : Criterion

namespace Place

mutual

/-- The place of a criterion, followed by the places below it. -/
def ofCriterion (group : Group) (opens : Bool) : Criterion → List Place
  | ⟨combinator, field, comparison, value, children⟩ =>
    ⟨group, opens, ⟨combinator, field, comparison, value, children⟩⟩ ::
      ofList (.children field) true children
termination_by structural c => c

/-- The places of the criteria of a group and of those below them, in preorder.  The
first criterion of the list opens the group if nothing stands before the list. -/
def ofList (group : Group) (opens : Bool) : List Criterion → List Place
  | [] => []
  | c :: rest => ofCriterion group opens c ++ ofList group false rest
termination_by structural cs => cs

end

@[simp] theorem ofList_nil (group : Group) (opens : Bool) : ofList group opens [] = [] := rfl

@[simp] theorem ofList_cons
    (group : Group) (opens : Bool) (c : Criterion) (rest : List Criterion) :
    ofList group opens (c :: rest) =
      ⟨group, opens, c⟩ ::
        (ofList (.children c.field) true c.children ++ ofList group false rest) := by
  cases c
  simp [ofList, ofCriterion]

theorem map_criterion_ofList (group : Group) (opens : Bool) (cs : List Criterion) :
    (ofList group opens cs).map criterion = Criterion.preorder cs := by
  induction cs using Criterion.preorder_induction generalizing group opens with
  | nil => rfl
  | cons c rest hchildren hrest => simp [hchildren, hrest]

end Place

end Criteria
