import Criteria.Proofs.Combination.Opening

/-!
# Exchanging neighbours

Two neighbours of a group can change places, each with all that stands below it.  What is
said of single criteria without regard to their children is then said of the same criteria as
before, and the groups are the same ones but for those in which something was exchanged.  If
the neighbours are joined alike and no criterion without an element has children, then a
group that opened before opens after the exchange too.
-/

namespace Criteria

namespace Criterion

/-- The criterion with other children. -/
def withChildren (c : Criterion) (children : List Criterion) : Criterion :=
  { c with children := children }

theorem withChildren_children (c : Criterion) : c.withChildren c.children = c := by
  cases c
  rfl

theorem withChildren_withChildren (c : Criterion) (children children' : List Criterion) :
    (c.withChildren children).withChildren children' = c.withChildren children' := rfl

/-- The second list is the first one after two neighbours that are joined alike have changed
places, in the list itself or among the children of a criterion at any depth. -/
inductive Exchange : List Criterion → List Criterion → Prop
  | swap {c d : Criterion} {rest : List Criterion}
      (hcombinator : c.combinator = d.combinator) :
      Exchange (c :: d :: rest) (d :: c :: rest)
  | later {c : Criterion} {rest rest' : List Criterion}
      (hrest : Exchange rest rest') :
      Exchange (c :: rest) (c :: rest')
  | inside {c : Criterion} {children rest : List Criterion}
      (hchildren : Exchange c.children children) :
      Exchange (c :: rest) (c.withChildren children :: rest)

variable {cs ds : List Criterion}

namespace Exchange

theorem symm (h : Exchange cs ds) : Exchange ds cs := by
  induction h with
  | swap hcombinator => exact .swap hcombinator.symm
  | later _ ih => exact .later ih
  | @inside c children rest _ ih =>
      have hback : Exchange (c.withChildren children :: rest)
          ((c.withChildren children).withChildren c.children :: rest) := .inside ih
      rwa [withChildren_withChildren, withChildren_children] at hback

theorem ne_nil (h : Exchange cs ds) : cs ≠ [] := by
  rintro rfl
  cases h

/-- Every criterion stood in the filter before, up to an exchange among its children. -/
theorem exists_of_mem_preorder (h : Exchange cs ds) {d : Criterion} (hd : d ∈ preorder ds) :
    d ∈ preorder cs ∨
      ∃ c ∈ preorder cs, ∃ children, d = c.withChildren children ∧
        Exchange c.children children := by
  induction h with
  | swap _ =>
      left
      simp only [preorder_cons, List.mem_cons, List.mem_append] at hd ⊢
      grind
  | later _ ih =>
      rw [preorder_cons, List.mem_cons, List.mem_append] at hd
      rcases hd with rfl | hd | hd
      · exact .inl (by simp)
      · exact .inl (by simp [hd])
      · rcases ih hd with hd | ⟨c, hc, hexchange⟩
        · exact .inl (by simp [hd])
        · exact .inr ⟨c, by simp [hc], hexchange⟩
  | @inside c children rest hchildren ih =>
      rw [preorder_cons, List.mem_cons, List.mem_append] at hd
      rcases hd with rfl | hd | hd
      · exact .inr ⟨c, by simp, children, rfl, hchildren⟩
      · rcases ih hd with hd | ⟨e, he, hexchange⟩
        · exact .inl (by simp [hd])
        · exact .inr ⟨e, by simp [he], hexchange⟩
      · exact .inl (by simp [hd])

/-- What is said of all criteria regardless of their children is still said of all of them
after an exchange. -/
theorem forall_preorder
    (h : Exchange cs ds) {property : Criterion → Prop}
    (hproperty : ∀ c children, property c → property (c.withChildren children))
    (hall : ∀ c ∈ preorder cs, property c) : ∀ d ∈ preorder ds, property d := by
  intro d hd
  rcases h.exists_of_mem_preorder hd with hd | ⟨c, hc, children, rfl, -⟩
  · exact hall d hd
  · exact hproperty c children (hall c hc)

/-- What is said of all groups is still said of all of them if an exchange within a group
does not change it. -/
theorem forall_groups
    (h : Exchange cs ds) {property : List Criterion → Prop}
    (hexchange : ∀ g ∈ groups cs, ∀ g', Exchange g g' → property g → property g')
    (hall : ∀ g ∈ groups cs, property g) : ∀ g ∈ groups ds, property g := by
  obtain ⟨htop, hbelow⟩ := forall_groups_iff.mp hall
  obtain ⟨hexchangeTop, hexchangeBelow⟩ := forall_groups_iff.mp hexchange
  refine forall_groups_iff.mpr ⟨hexchangeTop ds h htop, ?_⟩
  intro d hd hne
  rcases h.exists_of_mem_preorder hd with hd | ⟨c, hc, children, rfl, hchildren⟩
  · exact hbelow d hd hne
  · have hne' := hchildren.ne_nil
    exact hexchangeBelow c hc hne' children hchildren (hbelow c hc hne')

/-- The fields that are named are the same, though in another order. -/
theorem perm_fields (h : Exchange cs ds) :
    ((preorder cs).map field).Perm ((preorder ds).map field) := by
  induction h with
  | @swap c d rest _ =>
      refine List.Perm.map field ?_
      exact List.perm_append_comm_assoc (subtree c) (subtree d) (preorder rest)
  | later _ ih =>
      simp only [preorder_cons, List.map_cons, List.map_append]
      exact .cons _ (ih.append_left _)
  | inside _ ih =>
      simp only [preorder_cons, List.map_cons, List.map_append]
      exact .cons _ (ih.append_right _)

/-- The first criterion of a group is joined as the first one was before. -/
theorem map_combinator_head? (h : Exchange cs ds) :
    ds.head?.map combinator = cs.head?.map combinator := by
  cases h with
  | swap hcombinator => exact congrArg some hcombinator.symm
  | later _ => rfl
  | inside _ => rfl

end Exchange

end Criterion

namespace Combination

open Criterion

/-- A group opens after an exchange if it did before, as long as no criterion of the group
is without an element and has children. -/
theorem Opens.exchange
    {kept : Criterion → Bool}
    (hkept : ∀ c children, kept (c.withChildren children) = kept c)
    {g g' : List Criterion} (hexchange : Exchange g g')
    (hleaves : ∀ c ∈ g, kept c = false → c.children = []) (h : Opens kept g) :
    Opens kept g' := by
  induction hexchange with
  | @swap c d rest hcombinator =>
      obtain ⟨hand, hc⟩ := opens_cons_iff.mp h
      have hand' : d.combinator = .and := hcombinator.symm.trans hand
      refine opens_cons_iff.mpr ⟨hand', ?_⟩
      cases hd : kept d with
      | true => exact .inl rfl
      | false =>
          refine .inr ⟨rfl, hleaves d (by simp) hd, opens_cons_iff.mpr ⟨hand, ?_⟩⟩
          rcases hc with hc | ⟨hc, hchildren, hrest⟩
          · exact .inl hc
          · -- Neither has an element, so the group opens behind them.
            obtain ⟨-, hd' | ⟨-, -, hrest⟩⟩ := opens_cons_iff.mp hrest
            · exact absurd hd' (by simp [hd])
            · exact .inr ⟨hc, hchildren, hrest⟩
  | later _ ih =>
      obtain ⟨hand, hc | ⟨hc, hchildren, hrest⟩⟩ := opens_cons_iff.mp h
      · exact opens_cons_iff.mpr ⟨hand, .inl hc⟩
      · have hrest' := ih (fun d hd => hleaves d (by simp [hd])) hrest
        exact opens_cons_iff.mpr ⟨hand, .inr ⟨hc, hchildren, hrest'⟩⟩
  | @inside c children rest hchildren _ =>
      obtain ⟨hand, hc | ⟨-, hnil, -⟩⟩ := opens_cons_iff.mp h
      · exact opens_cons_iff.mpr ⟨hand, .inl ((hkept c children).trans hc)⟩
      · exact absurd hnil hchildren.ne_nil

end Combination

end Criteria
