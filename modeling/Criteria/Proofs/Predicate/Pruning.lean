import Criteria.Proofs.Predicate.Meaning

/-!
# Filters on a record type that lacks some fields

A filter can be pruned for a schema by deleting, at every depth, the criteria whose field
the schema lacks.  As long as none of these carries children, the pruned filter means what
the whole one means: a criterion that is left out may fold the queue, but the truth of the
queue stays the same, and it is only this truth that later criteria extend.  If none of the
deleted criteria is joined by OR, the queue itself stays the same, and so does the text.
-/

namespace Criteria

variable {R : RecordType}

namespace Criterion

mutual

/-- A criterion that is kept, with its children pruned, or nothing. -/
def pruneOne (kept : Criterion → Bool) : Criterion → List Criterion
  | ⟨combinator, field, comparison, value, children⟩ =>
    if kept ⟨combinator, field, comparison, value, children⟩ then
      [⟨combinator, field, comparison, value, prune kept children⟩]
    else []
termination_by structural c => c

/-- The criteria of a list that are kept, each with its children pruned in the same way. -/
def prune (kept : Criterion → Bool) : List Criterion → List Criterion
  | [] => []
  | c :: rest => pruneOne kept c ++ prune kept rest
termination_by structural cs => cs

end

variable {kept : Criterion → Bool}

/-- The criterion with its children pruned. -/
def pruned (kept : Criterion → Bool) (c : Criterion) : Criterion :=
  { c with children := prune kept c.children }

theorem prune_nil : prune kept [] = [] := rfl

@[simp] theorem children_pruned (c : Criterion) :
    (c.pruned kept).children = prune kept c.children := rfl

theorem prune_cons_of_kept {c : Criterion} (h : kept c = true) (rest : List Criterion) :
    prune kept (c :: rest) = c.pruned kept :: prune kept rest := by
  cases c
  simp [prune, pruneOne, pruned, h]

theorem prune_cons_of_not_kept {c : Criterion} (h : kept c = false) (rest : List Criterion) :
    prune kept (c :: rest) = prune kept rest := by
  cases c
  simp [prune, pruneOne, h]

theorem exists_of_mem_preorder_prune {d : Criterion} (cs : List Criterion) :
    d ∈ preorder (prune kept cs) → ∃ c ∈ preorder cs, kept c = true ∧ d = c.pruned kept := by
  induction cs using preorder_induction with
  | nil => simp [prune_nil]
  | cons c rest hchildren hrest =>
      intro hd
      by_cases hkept : kept c = true
      · rw [prune_cons_of_kept hkept, preorder_cons, List.mem_cons, List.mem_append] at hd
        rcases hd with rfl | hd | hd
        · exact ⟨c, by simp, hkept, rfl⟩
        · obtain ⟨e, he, hpruned⟩ := hchildren hd
          exact ⟨e, by simp [he], hpruned⟩
        · obtain ⟨e, he, hpruned⟩ := hrest hd
          exact ⟨e, by simp [he], hpruned⟩
      · rw [prune_cons_of_not_kept (by simpa using hkept)] at hd
        obtain ⟨e, he, hpruned⟩ := hrest hd
        exact ⟨e, by simp [he], hpruned⟩

end Criterion

namespace Combination

open Criterion

variable {kept : Criterion → Bool}

/-- A group that opens still does after pruning, with the same criterion. -/
theorem Opens.prune
    (hpruned : ∀ c, kept (c.pruned kept) = kept c) {g : List Criterion} (h : Opens kept g) :
    Opens kept (prune kept g) := by
  induction g with
  | nil => exact absurd h not_opens_nil
  | cons c rest ih =>
      obtain ⟨hand, hkept | ⟨hleft, -, hrest⟩⟩ := opens_cons_iff.mp h
      · rw [prune_cons_of_kept hkept]
        exact opens_cons_iff.mpr ⟨hand, .inl ((hpruned c).trans hkept)⟩
      · rw [prune_cons_of_not_kept hleft]
        exact ih hrest

/-- Nothing can be assembled from nothing. -/
theorem Assembles.ne_nil
    {ε : Type} [Connectives ε] {known : Criterion → Option ε} {cs : List Criterion} {e : ε}
    (h : Assembles known [] cs e) : cs ≠ [] := by
  rintro rfl
  cases h with
  | nil hjoined => cases hjoined

/-- If no criterion joined by OR and none with children is without an element, then pruning
changes nothing in what the criteria assemble. -/
theorem Assembles.prune
    {ε : Type} [Connectives ε] {known : Criterion → Option ε}
    (hknown : ∀ c, (known c).isSome = kept c)
    (hpruned : ∀ c, known (c.pruned kept) = known c)
    {queue : List ε} {cs : List Criterion} {e : ε} (h : Assembles known queue cs e)
    (hleaves : ∀ c ∈ preorder cs, kept c = false → c.children = [])
    (hands : ∀ c ∈ preorder cs, kept c = false → c.combinator = .and) :
    Assembles known queue (prune kept cs) e := by
  induction h with
  | nil hjoined => exact .nil hjoined
  | @leaf queue next c rest e hchildren hnext _ ih =>
      have hrest := ih (fun d hd => hleaves d (by simp [hd])) (fun d hd => hands d (by simp [hd]))
      cases hkept : kept c with
      | true =>
          rw [prune_cons_of_kept hkept]
          refine .leaf ?_ ?_ hrest
          · rw [children_pruned, hchildren, prune_nil]
          · rw [hpruned]
            exact hnext
      | false =>
          have hnone : known c = none := Option.not_isSome_iff_eq_none.mp (by simp [hknown, hkept])
          rw [hnone, hands c (by simp) hkept] at hnext
          obtain rfl := Option.some.inj hnext
          rw [prune_cons_of_not_kept hkept]
          exact hrest
  | @group queue older c rest last sub e hchildren hnext _ _ ihsub ihrest =>
      have hsub := ihsub (fun d hd => hleaves d (by simp [hd])) (fun d hd => hands d (by simp [hd]))
      have hrest :=
        ihrest (fun d hd => hleaves d (by simp [hd])) (fun d hd => hands d (by simp [hd]))
      have hkept : kept c = true := by
        cases hleft : kept c with
        | true => rfl
        | false => exact absurd (hleaves c (by simp) hleft) hchildren
      rw [prune_cons_of_kept hkept]
      refine .group hsub.ne_nil ?_ hsub hrest
      rw [hpruned]
      exact hnext

end Combination

namespace LeftFold

open Criterion

/-- A left fold passes over the criteria that pruning deletes. -/
theorem list_prune
    {kept : Criterion → Bool} {truth : Criterion → Option Bool}
    (htruth : ∀ c, (truth c).isSome = kept c)
    (hpruned : ∀ c, truth (c.pruned kept) = truth c) (cs : List Criterion) :
    ∀ v : Option Bool, list truth v (prune kept cs) = list truth v cs := by
  induction cs using preorder_induction with
  | nil =>
      intro v
      rfl
  | cons c rest hchildren hrest =>
      intro v
      rw [list_cons]
      cases hkept : kept c with
      | true =>
          rw [prune_cons_of_kept hkept, list_cons, hpruned, hrest, children_pruned, hchildren]
          rfl
      | false =>
          have hnone : truth c = none := Option.not_isSome_iff_eq_none.mp (by simp [htruth, hkept])
          rw [prune_cons_of_not_kept hkept, hrest, hnone]
          cases c.combinator <;> rfl

end LeftFold

namespace Predicate

open Combination Criterion

/-- The filter without the criteria whose field the schema lacks. -/
def supported (S : Schema R) (cs : List Criterion) : List Criterion :=
  prune (resolves S) cs

theorem compile_supported
    {S : Schema R} {cs : List Criterion} {p : Predicate R} (h : compile S cs = .ok p) :
    ∃ p', compile S (supported S cs) = .ok p' := by
  obtain ⟨hfits, hopens⟩ := exists_compile_iff.mp ⟨p, h⟩
  obtain ⟨htop, hbelow⟩ := forall_groups_iff.mp hopens
  refine exists_compile_iff.mpr ⟨?_, forall_groups_iff.mpr ⟨?_, ?_⟩⟩
  · intro d hd
    obtain ⟨c, hc, -, rfl⟩ := exists_of_mem_preorder_prune cs hd
    exact hfits c hc
  · exact htop.prune fun _ => rfl
  · intro d hd hne
    obtain ⟨c, hc, -, rfl⟩ := exists_of_mem_preorder_prune cs hd
    refine (hbelow c hc ?_).prune fun _ => rfl
    rintro hnil
    exact hne (by rw [children_pruned, hnil, prune_nil])

theorem isSome_truth? (S : Schema R) (r : Record R) (c : Criterion) :
    (truth? S r c).isSome = c.resolves S := by
  rw [truth?, resolves, Option.isSome_map]

/-- If every criterion with children resolves, the left fold over the filter gives its
predicate. -/
theorem list_truth?_eq_holds
    {S : Schema R} {cs : List Criterion} {p : Predicate R} (h : compile S cs = .ok p)
    (hparents : ∀ c ∈ preorder cs, c.children ≠ [] → c.resolves S = true) (r : Record R) :
    LeftFold.list (truth? S r) none cs = some (p.holds r) := by
  have hassembles := assembles_of_compile h
  rw [← map_known]
  refine LeftFold.list_of_assembles (fun t => t.holds r) hassembles ?_
  intro c hc hchildren
  rw [isSome_known]
  exact hparents c hc hchildren

/-- If no criterion that the schema lacks the field of has children, a filter that compiles
can be pruned without changing which records match, and without changing the text if no
criterion joined by OR is deleted. -/
theorem compile_supported_agrees
    {S : Schema R} {cs : List Criterion} {p : Predicate R} (h : compile S cs = .ok p)
    (hleaves : ∀ c ∈ preorder cs, c.resolves S = false → c.children = []) :
    ∃ p', compile S (supported S cs) = .ok p' ∧
      (∀ r, p'.holds r = p.holds r) ∧
      ((∀ c ∈ preorder cs, c.resolves S = false → c.combinator ≠ .or) → p'.text = p.text) := by
  obtain ⟨p', hp'⟩ := compile_supported h
  refine ⟨p', hp', ?_, ?_⟩
  · intro r
    have hparents : ∀ c ∈ preorder cs, c.children ≠ [] → c.resolves S = true := by
      intro c hc hchildren
      cases hleft : c.resolves S with
      | true => rfl
      | false => exact absurd (hleaves c hc hleft) hchildren
    have hparents' : ∀ d ∈ preorder (supported S cs), d.children ≠ [] → d.resolves S = true := by
      intro d hd _
      obtain ⟨c, -, hkept, rfl⟩ := exists_of_mem_preorder_prune cs hd
      exact hkept
    have hwhole := list_truth?_eq_holds h hparents r
    have hpruned := list_truth?_eq_holds hp' hparents' r
    rw [supported, LeftFold.list_prune (isSome_truth? S r) fun _ => rfl, hwhole] at hpruned
    exact (Option.some.inj hpruned).symm
  · intro hands
    have hand : ∀ c ∈ preorder cs, c.resolves S = false → c.combinator = .and := by
      intro c hc hleft
      cases hcombinator : c.combinator with
      | and => rfl
      | or => exact absurd hcombinator (hands c hc hleft)
    have hpruned := (assembles_of_compile h).prune (isSome_known S) (fun _ => rfl) hleaves hand
    have hexpression := (assembles_of_compile hp').unique hpruned
    rw [text, text, hexpression]

/-- Parcels above number 3 that are red, as far as parcels have a colour, or have a note on
glass; and of these the light ones or those with number 9. -/
def fragileParcels : List Criterion :=
  [⟨.and, "colour", .equal, .text "red", []⟩,
    ⟨.and, "number", .greaterThan, .text " 3 ",
      [⟨.and, "colour", .equal, .text "red", []⟩, ⟨.and, "note", .contains, .text "glass", []⟩]⟩,
    ⟨.and, "weight", .lessThan, .text "2", []⟩,
    ⟨.or, "number", .equal, .text "9", []⟩]

theorem compile_supported_agrees_fragileParcels :
    ∃ p p', compile parcelSchema fragileParcels = .ok p ∧
      (∀ c ∈ preorder fragileParcels, c.resolves parcelSchema = false → c.children = []) ∧
      (∀ c ∈ preorder fragileParcels, c.resolves parcelSchema = false → c.combinator ≠ .or) ∧
      compile parcelSchema (supported parcelSchema fragileParcels) = .ok p' ∧
      (∀ r, p'.holds r = p.holds r) ∧ p'.text = p.text := by
  have hleaves :
      ∀ c ∈ preorder fragileParcels, c.resolves parcelSchema = false → c.children = [] := by
    simp [fragileParcels]
    decide
  have hands :
      ∀ c ∈ preorder fragileParcels, c.resolves parcelSchema = false → c.combinator ≠ .or := by
    simp [fragileParcels]
    decide
  obtain ⟨p, hp⟩ : ∃ p, compile parcelSchema fragileParcels = .ok p := ⟨_, rfl⟩
  obtain ⟨p', hp', hholds, htext⟩ := compile_supported_agrees hp hleaves
  exact ⟨p, p', hp, hleaves, hands, hp', hholds, htext hands⟩

end Predicate

end Criteria
