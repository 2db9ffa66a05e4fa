import Criteria.Proofs.Document.Forms

/-!
# Which documents are read

The reader of a group takes exactly the documents in which every criterion has one of its forms
and which nest no deeper than there are levels, and it gives the criteria that they denote.  The
form is chosen anew at every criterion, so the proofs follow the criteria: by induction on what
the documents denote in one direction, and on what was read in the other.  What was read holds
finite values only, and is written with no more levels than it was read with.
-/

namespace Criteria

namespace Document

open Criterion (Parts memberNames parts? listOfJson? orDefault)

/-! ## What criteria a document denotes -/

/-- A combinator may be left out if it is And. -/
inductive DenotesCombinator : Option Json → Combinator → Prop
  | omitted : DenotesCombinator none .and
  | given {j : Json} {c : Combinator} (h : DenotesName j c.name) : DenotesCombinator (some j) c

/-- The parts denote the criterion, apart from its children. -/
structure DenoteHead (parts : Parts) (c : Criterion) : Prop where
  combinator : DenotesCombinator parts.combinator c.combinator
  field : parts.field = .ofString c.field
  comparison : DenotesName parts.comparison c.comparison.name
  value : DenotesValue parts.value c.value

/-- The documents denote the criteria, one by one and together with their children.  Children
may be left out if there are none. -/
inductive DenoteCriteria : List Json → List Criterion → Prop
  | nil : DenoteCriteria [] []
  | leaf {j : Json} {parts : Parts} {c : Criterion} {items : List Json} {rest : List Criterion}
      (hparts : LaysOut j parts) (hhead : DenoteHead parts c) (homitted : parts.children = none)
      (hchildless : c.children = []) (hrest : DenoteCriteria items rest) :
      DenoteCriteria (j :: items) (c :: rest)
  | parent {j : Json} {parts : Parts} {c : Criterion} {below items : List Json}
      {rest : List Criterion} (hparts : LaysOut j parts) (hhead : DenoteHead parts c)
      (hgiven : parts.children = some (.array below)) (hchildren : DenoteCriteria below c.children)
      (hrest : DenoteCriteria items rest) :
      DenoteCriteria (j :: items) (c :: rest)

/-- The document is the array of documents that denote the criteria. -/
def DenotesGroup (j : Json) (cs : List Criterion) : Prop :=
  ∃ items, j = .array items ∧ DenoteCriteria items cs

theorem denotesGroup_array_iff {items : List Json} {cs : List Criterion} :
    DenotesGroup (.array items) cs ↔ DenoteCriteria items cs := by
  constructor
  · rintro ⟨_, hitems, h⟩
    obtain rfl := Json.array.inj hitems
    exact h
  · exact fun h => ⟨items, rfl, h⟩

variable {levels : Nat} {j : Json} {parts : Parts} {c : Criterion} {cs : List Criterion}

/-! ## Levels -/

theorem LaysOut.nesting_pos (h : LaysOut j parts) : 1 ≤ nesting j := by
  cases h <;> exact Nat.le_add_left 1 _

/-- A criterion takes one level above its parts. -/
theorem LaysOut.nesting_le_succ_iff (h : LaysOut j parts) :
    nesting j ≤ levels + 1 ↔ ∀ m ∈ parts.members, nesting m.2 ≤ levels := by
  cases h with
  | four =>
      rw [nesting, Nat.add_le_add_iff_right, itemsNesting_le_iff]
      simp [Parts.members]
  | five =>
      rw [nesting, Nat.add_le_add_iff_right, itemsNesting_le_iff]
      simp [Parts.members]
  | object hperm =>
      rw [Json.ofMembers, nesting, Nat.add_le_add_iff_right]
      refine membersNesting_named_le_iff.trans ?_
      exact forall_congr' fun m => imp_congr_left hperm.mem_iff

/-- Fields and values take no level. -/
theorem DenoteHead.nesting_le_iff (h : DenoteHead parts c) :
    (∀ m ∈ parts.members, nesting m.2 ≤ levels) ↔
      (∀ j ∈ parts.combinator, nesting j ≤ levels) ∧ nesting parts.comparison ≤ levels ∧
        ∀ j ∈ parts.children, nesting j ≤ levels := by
  have hfield : nesting parts.field = 0 := by
    rw [h.field]
    rfl
  simp [Parts.members, or_imp, forall_and, hfield, h.value.nesting_eq_zero]

/-! ## Reading a criterion -/

theorem text?_eq_some_iff {s : String} : j.text? = some s ↔ j = .ofString s := by
  constructor
  · intro h
    cases j with
    | string contents =>
        obtain rfl := h
        rfl
    | _ => cases h
  · rintro rfl
    rfl

theorem orDefault_and_eq_some_iff {part : Option Json} {combinator : Combinator} :
    orDefault .and (Combinator.ofJson? levels) part = some combinator ↔
      DenotesCombinator part combinator ∧ ∀ j ∈ part, nesting j ≤ levels := by
  cases part with
  | none =>
      constructor
      · intro h
        obtain rfl := Option.some.inj h
        exact ⟨.omitted, by simp⟩
      · rintro ⟨⟨⟩, -⟩
        rfl
  | some j =>
      rw [orDefault, Combinator.ofJson?_eq_some_iff]
      constructor
      · rintro ⟨hname, hlevels⟩
        exact ⟨.given hname, by simpa using hlevels⟩
      · rintro ⟨hdenotes, hlevels⟩
        cases hdenotes with
        | given hname => exact ⟨hname, hlevels j rfl⟩

/-- A criterion is read where it is laid out, if its names fit into the levels that are left and
its children are read. -/
theorem ofJson?_eq_some_iff :
    Criterion.ofJson? levels j = some c ↔
      ∃ parts, LaysOut j parts ∧ DenoteHead parts c ∧
        (∀ j ∈ parts.combinator, nesting j ≤ levels) ∧ nesting parts.comparison ≤ levels ∧
        orDefault [] (listOfJson? levels) parts.children = some c.children := by
  constructor
  · intro h
    obtain ⟨parts, hparts, h⟩ := Option.bind_eq_some_iff.mp h
    obtain ⟨combinator, hcombinator, h⟩ := Option.bind_eq_some_iff.mp h
    obtain ⟨field, hfield, h⟩ := Option.bind_eq_some_iff.mp h
    obtain ⟨comparison, hcomparison, h⟩ := Option.bind_eq_some_iff.mp h
    obtain ⟨value, hvalue, h⟩ := Option.bind_eq_some_iff.mp h
    obtain ⟨children, hchildren, h⟩ := Option.bind_eq_some_iff.mp h
    obtain rfl := Option.some.inj h
    obtain ⟨hcombinator, hbelow⟩ := orDefault_and_eq_some_iff.mp hcombinator
    obtain ⟨hcomparison, hbelow'⟩ := Comparison.ofJson?_eq_some_iff.mp hcomparison
    exact ⟨parts, parts?_eq_some_iff.mp hparts,
      ⟨hcombinator, text?_eq_some_iff.mp hfield, hcomparison, Value.ofJson?_eq_some_iff.mp hvalue⟩,
      hbelow, hbelow', hchildren⟩
  · rintro ⟨parts, hparts, hhead, hbelow, hbelow', hchildren⟩
    have hcombinator := orDefault_and_eq_some_iff.mpr ⟨hhead.combinator, hbelow⟩
    have hcomparison := Comparison.ofJson?_eq_some_iff.mpr ⟨hhead.comparison, hbelow'⟩
    rw [Criterion.ofJson?, parts?_eq_some_iff.mpr hparts]
    simp only [Option.bind_eq_bind, Option.bind_some, hcombinator, hcomparison, hchildren,
      text?_eq_some_iff.mpr hhead.field, Value.ofJson?_eq_some_iff.mpr hhead.value]
    cases c
    rfl

/-! ## Reading a group -/

theorem exists_items_of_listOfJson? (h : listOfJson? levels j = some cs) :
    ∃ items, j = .array items := by
  rw [Criterion.listOfJson?.eq_def] at h
  split at h
  next => exact ⟨[], rfl⟩
  next items _ => exact ⟨items, rfl⟩
  next => cases h

theorem listOfJson?_nil_eq_some_iff :
    listOfJson? levels (.array []) = some cs ↔ 1 ≤ levels ∧ cs = [] := by
  cases levels with
  | zero => simp [listOfJson?]
  | succ below => simp [listOfJson?, eq_comm]

/-- The first criterion of a group is read with two levels less, and the others as a group. -/
theorem listOfJson?_cons_eq_some_iff {items : List Json} :
    listOfJson? levels (.array (j :: items)) = some cs ↔
      ∃ below c rest, levels = below + 2 ∧ Criterion.ofJson? below j = some c ∧
        listOfJson? levels (.array items) = some rest ∧ c :: rest = cs := by
  constructor
  · intro h
    by_cases hlevels : levels < 2
    · rw [Criterion.listOfJson?_eq_none_of_lt (List.cons_ne_nil j items) hlevels] at h
      cases h
    · obtain ⟨below, rfl⟩ : ∃ n, levels = n + 2 := ⟨levels - 2, by omega⟩
      rw [Criterion.listOfJson?_array, Json.mapM_cons_eq_some_iff] at h
      obtain ⟨c, rest, hc, hrest, hcs⟩ := h
      exact ⟨below, c, rest, rfl, hc, (Criterion.listOfJson?_array below items).trans hrest, hcs⟩
  · rintro ⟨below, c, rest, rfl, hc, hrest, hcs⟩
    rw [Criterion.listOfJson?_array] at hrest ⊢
    exact Json.mapM_cons_eq_some_iff.mpr ⟨c, rest, hc, hrest, hcs⟩

theorem nesting_array_cons_le_iff {items : List Json} :
    nesting (.array (j :: items)) ≤ levels ↔
      nesting j + 1 ≤ levels ∧ nesting (.array items) ≤ levels := by
  simp only [nesting, itemsNesting]
  omega

/-- The step from the parts of a criterion to a group that begins with it. -/
theorem listOfJson?_cons_of_laysOut
    {items : List Json} {rest : List Criterion} (hparts : LaysOut j parts)
    (hhead : DenoteHead parts c) (hlevels : nesting (.array (j :: items)) ≤ levels)
    (hchildren : ∀ below, (∀ j ∈ parts.children, nesting j ≤ below) →
      orDefault [] (listOfJson? below) parts.children = some c.children)
    (hrest : nesting (.array items) ≤ levels → listOfJson? levels (.array items) = some rest) :
    listOfJson? levels (.array (j :: items)) = some (c :: rest) := by
  obtain ⟨hj, hitems⟩ := nesting_array_cons_le_iff.mp hlevels
  have hpos := hparts.nesting_pos
  obtain ⟨below, rfl⟩ : ∃ n, levels = n + 2 := ⟨levels - 2, by omega⟩
  have hmembers := hparts.nesting_le_succ_iff.mp (show nesting j ≤ below + 1 by omega)
  obtain ⟨hcombinator, hcomparison, hbelow⟩ := hhead.nesting_le_iff.mp hmembers
  exact listOfJson?_cons_eq_some_iff.mpr ⟨below, c, rest, rfl,
    ofJson?_eq_some_iff.mpr
      ⟨parts, hparts, hhead, hcombinator, hcomparison, hchildren below hbelow⟩,
    hrest hitems, rfl⟩

/-- A document that denotes criteria is read with as many levels as it nests. -/
theorem listOfJson?_of_denoteCriteria {items : List Json} (h : DenoteCriteria items cs) :
    ∀ levels, nesting (.array items) ≤ levels → listOfJson? levels (.array items) = some cs := by
  induction h with
  | nil =>
      intro levels hlevels
      exact listOfJson?_nil_eq_some_iff.mpr ⟨hlevels, rfl⟩
  | leaf hparts hhead homitted hchildless _ ihrest =>
      intro levels hlevels
      refine listOfJson?_cons_of_laysOut hparts hhead hlevels ?_ (ihrest levels)
      intro below _
      rw [homitted, hchildless]
      rfl
  | parent hparts hhead hgiven _ _ ihchildren ihrest =>
      intro levels hlevels
      refine listOfJson?_cons_of_laysOut hparts hhead hlevels ?_ (ihrest levels)
      intro below hbelow
      rw [hgiven]
      exact ihchildren below (hbelow _ hgiven)

/-- What was read is what the document denotes, and it nests no deeper than there were levels. -/
theorem denotesGroup_of_listOfJson? :
    ∀ {levels j}, listOfJson? levels j = some cs → DenotesGroup j cs ∧ nesting j ≤ levels := by
  induction cs using Criterion.preorder_induction with
  | nil =>
      intro levels j h
      obtain ⟨items, rfl⟩ := exists_items_of_listOfJson? h
      cases items with
      | nil => exact ⟨⟨[], rfl, .nil⟩, (listOfJson?_nil_eq_some_iff.mp h).1⟩
      | cons item items =>
          obtain ⟨_, _, _, _, _, _, hcs⟩ := listOfJson?_cons_eq_some_iff.mp h
          cases hcs
  | cons c rest ihchildren ihrest =>
      intro levels j h
      obtain ⟨items, rfl⟩ := exists_items_of_listOfJson? h
      cases items with
      | nil => cases (listOfJson?_nil_eq_some_iff.mp h).2
      | cons item items =>
          obtain ⟨below, _, _, rfl, hitem, hitems, hcs⟩ := listOfJson?_cons_eq_some_iff.mp h
          obtain ⟨rfl, rfl⟩ := List.cons.inj hcs
          obtain ⟨parts, hparts, hhead, hcombinator, hcomparison, hchildren⟩ :=
            ofJson?_eq_some_iff.mp hitem
          obtain ⟨hrest, hlevels⟩ := ihrest hitems
          rw [denotesGroup_array_iff] at hrest ⊢
          -- Only the children are left to be counted, and whether there are any decides the form.
          have hfits : (∀ j ∈ parts.children, nesting j ≤ below) →
              nesting (.array (item :: items)) ≤ below + 2 := by
            intro hbelow
            have hitem := hparts.nesting_le_succ_iff.mpr
              (hhead.nesting_le_iff.mpr ⟨hcombinator, hcomparison, hbelow⟩)
            exact nesting_array_cons_le_iff.mpr ⟨Nat.succ_le_succ hitem, hlevels⟩
          cases hpart : parts.children with
          | none =>
              rw [hpart] at hchildren
              have hchildless := (Option.some.inj hchildren).symm
              exact ⟨.leaf hparts hhead hpart hchildless hrest, hfits (by simp [hpart])⟩
          | some group =>
              rw [hpart] at hchildren
              obtain ⟨⟨_, rfl, hbelow⟩, hgroup⟩ := ihchildren hchildren
              exact ⟨.parent hparts hhead hpart hbelow hrest,
                hfits (by simpa [hpart] using hgroup)⟩

/-- A group is read where its document denotes it and nests no deeper than there are levels. -/
theorem listOfJson?_eq_some_iff :
    listOfJson? levels j = some cs ↔ DenotesGroup j cs ∧ nesting j ≤ levels := by
  constructor
  · exact denotesGroup_of_listOfJson?
  · rintro ⟨⟨items, rfl, hdenote⟩, hlevels⟩
    exact listOfJson?_of_denoteCriteria hdenote levels hlevels

/-! ## Writing what was read -/

theorem DenoteCriteria.isFinite {items : List Json} (h : DenoteCriteria items cs) :
    ∀ c ∈ Criterion.preorder cs, c.value.isFinite = true := by
  induction h with
  | nil => simp
  | leaf _ hhead _ hchildless _ ihrest =>
      rw [Criterion.preorder_cons, hchildless, List.forall_mem_cons]
      exact ⟨hhead.value.isFinite, ihrest⟩
  | parent _ hhead _ _ _ ihchildren ihrest =>
      rw [Criterion.preorder_cons, List.forall_mem_cons, List.forall_mem_append]
      exact ⟨hhead.value.isFinite, ihchildren, ihrest⟩

theorem LaysOut.nesting_lt {m : String × Json} (h : LaysOut j parts) (hm : m ∈ parts.members) :
    nesting m.2 < nesting j := by
  obtain ⟨below, hbelow⟩ : ∃ n, nesting j = n + 1 := Nat.exists_eq_add_one.mpr h.nesting_pos
  have hle := h.nesting_le_succ_iff.mp (Nat.le_of_eq hbelow) m hm
  omega

/-- A criterion is written with one level above its children, or a single one if it has none. -/
theorem LaysOut.depth_toJson_le (h : LaysOut j parts)
    (hchildren : c.children ≠ [] →
      (Json.array (Criterion.listToJson c.children)).depth < nesting j) :
    (Criterion.toJson c).depth ≤ nesting j := by
  by_cases hchildless : c.children = []
  · rw [Criterion.depth_toJson, hchildless]
    exact h.nesting_pos
  · rw [Criterion.depth_toJson_of_ne_nil hchildless]
    exact hchildren hchildless

/-- What is written nests no deeper than any other document that denotes the same criteria. -/
theorem DenoteCriteria.depth_le_nesting {items : List Json} (h : DenoteCriteria items cs) :
    (Json.array (Criterion.listToJson cs)).depth ≤ nesting (.array items) := by
  induction h with
  | nil => exact Nat.le_refl 1
  | leaf hparts _ _ hchildless _ ihrest =>
      have hcriterion := hparts.depth_toJson_le fun hne => absurd hchildless hne
      simp only [Criterion.listToJson, Json.depth, Json.itemsDepth, nesting,
        itemsNesting] at ihrest ⊢
      omega
  | parent hparts _ hgiven _ _ ihchildren ihrest =>
      have hgroup := hparts.nesting_lt (Parts.children_mem_iff.mpr hgiven)
      have hcriterion := hparts.depth_toJson_le fun _ => Nat.lt_of_le_of_lt ihchildren hgroup
      simp only [Criterion.listToJson, Json.depth, Json.itemsDepth, nesting,
        itemsNesting] at ihrest ⊢
      omega

end Document

end Criteria
