import Criteria.Proofs.Document.Acceptance
import Mathlib.Data.List.Count

/-!
# Which documents are rejected

A single criterion with a fault is enough for the whole document to be rejected, however deep it
stands.  The faults are listed as they would be found in a document, without regard to what a
reader does; each of them contradicts what is required of a criterion that is read.
-/

namespace Criteria

namespace Document

open Criterion (Parts memberNames listOfJson?)

/-- The document gives a criterion the part: an object in a member, an array by its place. -/
inductive Gives : Json → String → Json → Prop
  | member {members : List (Option String × Json)} {name : String} {part : Json}
      (hname : name ∈ memberNames) (h : (some name, part) ∈ members) :
      Gives (.object members) name part
  | place {items : List Json} {name : String} {part : Json}
      (h : (name, part) ∈ memberNames.zip items) : Gives (.array items) name part

/-- The document is no criterion: a part that must be there is missing, a part is null or given
twice, a name is unknown, the value is an array or an object, or an array has too few or too many
parts. -/
inductive Faulty : Json → Prop
  | missing {members : List (Option String × Json)} {name : String}
      (hname : name ∈ ["field", "comparison", "value"])
      (h : ∀ part, (some name, part) ∉ members) : Faulty (.object members)
  | null {j : Json} {name : String} (h : Gives j name .null) : Faulty j
  | repeated {members : List (Option String × Json)} {name : String} (hname : name ∈ memberNames)
      (h : 2 ≤ (members.map Prod.fst).count (some name)) : Faulty (.object members)
  | combinator {j part : Json} {name : String} (h : Gives j "combinator" part)
      (hpart : DenotesName part name) (hunknown : ∀ c : Combinator, c.name ≠ name) : Faulty j
  | comparison {j part : Json} {name : String} (h : Gives j "comparison" part)
      (hpart : DenotesName part name) (hunknown : ∀ c : Comparison, c.name ≠ name) : Faulty j
  | value {j part : Json} (h : Gives j "value" part)
      (hpart : (∃ items, part = .array items) ∨ ∃ members, part = .object members) : Faulty j
  | length {items : List Json} (hfour : items.length ≠ 4) (hfive : items.length ≠ 5) :
      Faulty (.array items)

/-- The document stands where a criterion is expected: in the group itself, or in the children of
one that does. -/
inductive StandsIn (j : Json) : Json → Prop
  | item {items : List Json} (h : j ∈ items) : StandsIn j (.array items)
  | deeper {items : List Json} {item group : Json} (hitem : item ∈ items)
      (hgroup : Gives item "children" group) (h : StandsIn j group) : StandsIn j (.array items)

variable {j : Json} {parts : Parts} {c : Criterion} {cs : List Criterion}

theorem DenotesName.unique {name name' : String} (h : DenotesName j name)
    (h' : DenotesName j name') : name = name' := by
  have hread := name?_eq_some_iff.mpr ⟨h, Nat.le_refl (nesting j)⟩
  have hread' := name?_eq_some_iff.mpr ⟨h', Nat.le_refl (nesting j)⟩
  exact Option.some.inj (hread.symm.trans hread')

/-- In an object the parts are the members of known names, in any order. -/
theorem LaysOut.exists_members {members : List (Option String × Json)}
    (h : LaysOut (.object members) parts) :
    ∃ found, members = Json.Reader.named found ∧
      (found.filter fun m => memberNames.contains m.1).Perm parts.members := by
  generalize hj : Json.object members = j at h
  cases h with
  | four => cases hj
  | five => cases hj
  | object hperm => exact ⟨_, Json.object.inj hj, hperm⟩

/-- In an array each part has its place. -/
theorem LaysOut.members_eq_zip {items : List Json} (h : LaysOut (.array items) parts) :
    parts.members = memberNames.zip items ∧ (items.length = 4 ∨ items.length = 5) := by
  generalize hj : Json.array items = j at h
  cases h with
  | four =>
      obtain rfl := Json.array.inj hj
      exact ⟨rfl, .inl rfl⟩
  | five =>
      obtain rfl := Json.array.inj hj
      exact ⟨rfl, .inr rfl⟩
  | object => cases hj

theorem mem_named_iff {found : List (String × Json)} {name : String} {part : Json} :
    (some name, part) ∈ Json.Reader.named found ↔ (name, part) ∈ found := by
  simp [Json.Reader.named]

theorem LaysOut.mem_iff_mem_members {members : List (Option String × Json)} {name : String}
    {part : Json} (h : LaysOut (.object members) parts) (hname : name ∈ memberNames) :
    (some name, part) ∈ members ↔ (name, part) ∈ parts.members := by
  obtain ⟨found, rfl, hperm⟩ := h.exists_members
  rw [mem_named_iff, ← hperm.mem_iff, List.mem_filter]
  simp [hname]

/-- What a document gives a criterion is among the parts that it is laid out in. -/
theorem LaysOut.mem_members_of_gives {name : String} {part : Json} (h : LaysOut j parts)
    (hgives : Gives j name part) : (name, part) ∈ parts.members := by
  cases hgives with
  | member hname hmem => exact (h.mem_iff_mem_members hname).mp hmem
  | place hmem => rwa [h.members_eq_zip.1]

theorem LaysOut.count_le_one {members : List (Option String × Json)} {name : String}
    (h : LaysOut (.object members) parts) (hname : name ∈ memberNames) :
    (members.map Prod.fst).count (some name) ≤ 1 := by
  obtain ⟨found, rfl, hperm⟩ := h.exists_members
  have hdistinct := (hperm.map Prod.fst).nodup_iff.mpr parts.nodup_map_fst_members
  have hnames : (Json.Reader.named found).map Prod.fst = (found.map Prod.fst).map some := by
    simp [Json.Reader.named, Function.comp_def]
  have hfilter : (found.filter fun m => memberNames.contains m.1).map Prod.fst =
      (found.map Prod.fst).filter memberNames.contains := by
    rw [List.filter_map]
    rfl
  rw [hnames, List.count_map_of_injective _ _ fun _ _ => Option.some.inj,
    ← List.count_filter (show memberNames.contains name by simpa using hname), ← hfilter]
  exact List.nodup_iff_count_le_one.mp hdistinct name

theorem DenotesCombinator.denotesName {combinator : Combinator}
    (h : DenotesCombinator (some j) combinator) : DenotesName j combinator.name := by
  cases h with
  | given hname => exact hname

/-- Parts that denote a criterion are not those of a faulty one. -/
theorem LaysOut.not_faulty (hparts : LaysOut j parts) (hhead : DenoteHead parts c)
    (hchildren : ∀ group ∈ parts.children, DenotesGroup group c.children) : ¬ Faulty j := by
  intro hfaulty
  cases hfaulty with
  | @missing members name hname hmissing =>
      have hmem : ∃ part, (name, part) ∈ parts.members := by
        simp only [List.mem_cons, List.not_mem_nil, or_false] at hname
        rcases hname with rfl | rfl | rfl <;> simp [Parts.mem_members_iff]
      obtain ⟨part, hmem⟩ := hmem
      have hknown : name ∈ memberNames :=
        parts.map_fst_members_sublist.subset (List.mem_map_of_mem hmem)
      exact hmissing part ((hparts.mem_iff_mem_members hknown).mpr hmem)
  | null hgives =>
      -- Null is no form of any part, so each of the five parts is excluded for its own reason.
      rcases Parts.mem_members_iff.mp (hparts.mem_members_of_gives hgives) with
        ⟨-, hpart⟩ | ⟨-, hpart⟩ | ⟨-, hpart⟩ | ⟨-, hpart⟩ | ⟨-, hpart⟩
      · have hcombinator := hhead.combinator
        rw [hpart] at hcombinator
        cases hcombinator.denotesName
      · cases hpart.trans hhead.field
      · have hcomparison := hhead.comparison
        rw [← hpart] at hcomparison
        cases hcomparison
      · have hvalue := hhead.value
        rw [← hpart] at hvalue
        cases hvalue
      · obtain ⟨items, hitems, -⟩ := hchildren _ hpart
        cases hitems
  | repeated hname hrepeated =>
      have hcount := hparts.count_le_one hname
      omega
  | combinator hgives hpart hunknown =>
      have hcombinator := hhead.combinator
      rw [Parts.combinator_mem_iff.mp (hparts.mem_members_of_gives hgives)] at hcombinator
      exact hunknown c.combinator (hcombinator.denotesName.unique hpart)
  | comparison hgives hpart hunknown =>
      rw [Parts.comparison_mem_iff.mp (hparts.mem_members_of_gives hgives)] at hpart
      exact hunknown c.comparison (hhead.comparison.unique hpart)
  | value hgives hpart =>
      have hvalue := hhead.value
      rw [← Parts.value_mem_iff.mp (hparts.mem_members_of_gives hgives)] at hvalue
      rcases hpart with ⟨items, rfl⟩ | ⟨members, rfl⟩
      · cases hvalue
      · cases hvalue
  | length hfour hfive =>
      rcases hparts.members_eq_zip.2 with hlength | hlength
      · exact hfour hlength
      · exact hfive hlength

/-- Every one of the documents is laid out in parts that denote a criterion and its children. -/
theorem DenoteCriteria.exists_parts {items : List Json} (h : DenoteCriteria items cs)
    (hj : j ∈ items) :
    ∃ parts c, LaysOut j parts ∧ DenoteHead parts c ∧
      ∀ group ∈ parts.children, DenotesGroup group c.children := by
  induction h with
  | nil => cases hj
  | leaf hparts hhead homitted _ _ ih =>
      rcases List.mem_cons.mp hj with rfl | hj
      · exact ⟨_, _, hparts, hhead, by simp [homitted]⟩
      · exact ih hj
  | parent hparts hhead hgiven hchildren _ _ ih =>
      rcases List.mem_cons.mp hj with rfl | hj
      · exact ⟨_, _, hparts, hhead, by simpa [hgiven] using denotesGroup_array_iff.mpr hchildren⟩
      · exact ih hj

/-- A document with a faulty criterion at any depth denotes no criteria. -/
theorem StandsIn.not_denotesGroup {group : Json} (h : StandsIn j group) (hfaulty : Faulty j) :
    ∀ cs, ¬ DenotesGroup group cs := by
  induction h with
  | item hj =>
      intro cs hdenotes
      obtain ⟨parts, c, hparts, hhead, hchildren⟩ :=
        (denotesGroup_array_iff.mp hdenotes).exists_parts hj
      exact hparts.not_faulty hhead hchildren hfaulty
  | deeper hitem hgroup _ ih =>
      intro cs hdenotes
      obtain ⟨parts, c, hparts, -, hchildren⟩ :=
        (denotesGroup_array_iff.mp hdenotes).exists_parts hitem
      have hgiven := Parts.children_mem_iff.mp (hparts.mem_members_of_gives hgroup)
      exact ih c.children (hchildren _ hgiven)

/-- The reader takes exactly the documents that denote criteria in one of their forms each, and
gives these criteria.  How deep a document may nest is not a matter of its form, so this is said for
every number of levels, and for the number that the syntax of documents allows.  A document with
a faulty criterion at any depth is rejected, whatever else it holds.  A filter that was read from
any form is read back from its own text. -/
theorem filters_are_read_as_denoted :
    (∀ (levels : Nat) (j : Json) (cs : List Criterion),
      listOfJson? levels j = some cs ↔ DenotesGroup j cs ∧ nesting j ≤ levels) ∧
    (∀ (j : Json) (F : Filter),
      Filter.ofJson? j = some F ↔ DenotesGroup j F.criteria ∧ nesting j ≤ 127) ∧
    (∀ item j : Json, StandsIn item j → Faulty item →
      (∀ levels, listOfJson? levels j = none) ∧ Filter.ofJson? j = none) ∧
    ∀ (j : Json) (F : Filter), Filter.ofJson? j = some F → Filter.read? F.print = some F := by
  have hfilter : ∀ (j : Json) (F : Filter),
      Filter.ofJson? j = some F ↔ DenotesGroup j F.criteria ∧ nesting j ≤ 127 := by
    intro j F
    rw [Filter.ofJson?, Option.map_eq_some_iff]
    constructor
    · rintro ⟨cs, hcs, rfl⟩
      exact listOfJson?_eq_some_iff.mp hcs
    · intro hdenotes
      exact ⟨F.criteria, listOfJson?_eq_some_iff.mpr hdenotes, rfl⟩
  refine ⟨fun _ _ _ => listOfJson?_eq_some_iff, hfilter, ?_, ?_⟩
  · intro item j hstands hfaulty
    have hnone : ∀ levels, listOfJson? levels j = none := by
      intro levels
      rw [Option.eq_none_iff_forall_ne_some]
      intro cs hcs
      exact hstands.not_denotesGroup hfaulty cs (listOfJson?_eq_some_iff.mp hcs).1
    refine ⟨hnone, ?_⟩
    rw [Filter.ofJson?, hnone, Option.map_none]
  · intro j F hread
    obtain ⟨⟨items, rfl, hdenotes⟩, hlevels⟩ := (hfilter j F).mp hread
    refine Filter.read?_print_eq_some ?_ hdenotes.isFinite
    exact Nat.le_trans hdenotes.depth_le_nesting hlevels

/-- Parcels with the number 7 or with what the child asks for. -/
def numberForm (child : Json) : Json :=
  .ofMembers [("comparison", .ofMembers [("Equal", .null)]), ("note", .array [.null]),
    ("field", .ofString "number"), ("value", .number "7"), ("children", .array [child])]

/-- Red parcels, with the combinator in an object. -/
def redForm : Json :=
  .array [.ofMembers [("Or", .null)], .ofString "colour", .ofString "Contains", .ofString "red"]

/-- Parcels of two values at once. -/
def repeatedForm : Json :=
  .ofMembers [("field", .ofString "colour"), ("comparison", .ofString "Contains"),
    ("value", .ofString "red"), ("value", .ofString "blue")]

/-- Fragile parcels, with a group of children that is empty. -/
def fragileForm : Json :=
  .array [.ofString "Or", .ofString "fragile", .ofString "Equal", .bool true, .array []]

/-- Parcels with the number 7 or red ones, and fragile ones. -/
def mixedFilter : Filter :=
  ⟨[⟨.and, "number", .equal, .int ⟨7, by decide, by decide⟩,
      [⟨.or, "colour", .contains, .text "red", []⟩]⟩,
    ⟨.or, "fragile", .equal, .bool true, []⟩]⟩

/-- Each criterion has another form, and they are read together; with a child that gives its value
twice nothing is read. -/
theorem filters_are_read_as_denoted_mixed :
    Filter.ofJson? (.array [numberForm redForm, fragileForm]) = some mixedFilter ∧
      Filter.read? mixedFilter.print = some mixedFilter ∧
      Filter.ofJson? (.array [numberForm repeatedForm, fragileForm]) = none := by
  obtain ⟨-, hread, hrejected, hback⟩ := filters_are_read_as_denoted
  have hparts : LaysOut (numberForm redForm) {
      combinator := none
      field := .ofString "number"
      comparison := .ofMembers [("Equal", .null)]
      value := .number "7"
      children := some (.array [redForm]) } :=
    .object (.swap _ _ _)
  have hseven : DenotesValue (.number "7") (.int ⟨7, by decide, by decide⟩) :=
    .int (Value.spellsInteger_iff.mpr ⟨rfl, rfl⟩)
  have hred : DenoteCriteria [redForm] [⟨.or, "colour", .contains, .text "red", []⟩] :=
    .leaf (.four _ _ _ _) ⟨.given (.member "Or"), rfl, .word "Contains", .text "red"⟩ rfl rfl .nil
  have hfragile : DenoteCriteria [fragileForm] [⟨.or, "fragile", .equal, .bool true, []⟩] :=
    .parent (.five _ _ _ _ _) ⟨.given (.word "Or"), rfl, .word "Equal", .bool true⟩ rfl .nil .nil
  have hmixed : DenotesGroup (.array [numberForm redForm, fragileForm]) mixedFilter.criteria :=
    denotesGroup_array_iff.mpr
      (.parent hparts ⟨.omitted, rfl, .member "Equal", hseven⟩ rfl hred hfragile)
  have hfilter := (hread _ _).mpr ⟨hmixed, by decide⟩
  have hgives : Gives (numberForm repeatedForm) "children" (.array [repeatedForm]) :=
    .member (by decide) (by simp)
  have hstands : StandsIn repeatedForm (.array [numberForm repeatedForm, fragileForm]) :=
    .deeper List.mem_cons_self hgives (.item List.mem_cons_self)
  have hvalue : "value" ∈ memberNames := by decide
  have hfaulty : Faulty repeatedForm := .repeated hvalue (by decide)
  exact ⟨hfilter, hback _ _ hfilter, (hrejected _ _ hstands hfaulty).2⟩

end Document

end Criteria
