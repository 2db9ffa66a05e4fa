import Criteria.Proofs.Document.Filter
import Mathlib.Data.List.Nodup

/-!
# The forms of a filter in documents

One filter can be written in many ways.  A name is a string or an object of one member, a
criterion is an object whose members stand in any order and with others between them, or an
array of its parts, and a part that has its default may be left out.  What a document denotes
is said here by relations that do not mention the reader.  The readers of names, of values and
of the parts of a criterion are shown to take what denotes something, and nothing else.
-/

namespace Criteria

/-! ## Nesting -/

namespace Document

mutual

/-- How deep the arrays and objects of a document nest, apart from those in members whose name
is not that of a part of a criterion. -/
def nesting : Json → Nat
  | .array items => itemsNesting items + 1
  | .object members => membersNesting members + 1
  | _ => 0
termination_by structural j => j

/-- The greatest nesting of an item. -/
def itemsNesting : List Json → Nat
  | [] => 0
  | j :: rest => max (nesting j) (itemsNesting rest)
termination_by structural items => items

/-- The nesting of a member, which is none if its name is not known. -/
def memberNesting : Option String × Json → Nat
  | (name, j) => if name.any Criterion.memberNames.contains then nesting j else 0
termination_by structural member => member

/-- The greatest nesting of a member. -/
def membersNesting : List (Option String × Json) → Nat
  | [] => 0
  | member :: rest => max (memberNesting member) (membersNesting rest)
termination_by structural members => members

end

variable {levels : Nat}

theorem itemsNesting_le_iff {items : List Json} :
    itemsNesting items ≤ levels ↔ ∀ j ∈ items, nesting j ≤ levels := by
  induction items with
  | nil => simp [itemsNesting]
  | cons j rest ih => rw [itemsNesting, Nat.max_le, ih, List.forall_mem_cons]

theorem membersNesting_named_le_iff {members : List (String × Json)} :
    membersNesting (Json.Reader.named members) ≤ levels ↔
      ∀ m ∈ members.filter fun m => Criterion.memberNames.contains m.1, nesting m.2 ≤ levels := by
  induction members with
  | nil => simp [Json.Reader.named, membersNesting]
  | cons m rest ih =>
      change max (memberNesting (some m.1, m.2)) (membersNesting (Json.Reader.named rest)) ≤
        levels ↔ _
      rw [Nat.max_le, ih, memberNesting, Option.any_some, List.filter_cons]
      cases Criterion.memberNames.contains m.1 <;> simp

/-! ## Names -/

/-- A name is written as a string, or as an object that gives it the value null. -/
inductive DenotesName : Json → String → Prop
  | word (name : String) : DenotesName (.ofString name) name
  | member (name : String) : DenotesName (.ofMembers [(name, .null)]) name

theorem nesting_member (name : String) : nesting (.ofMembers [(name, .null)]) = 1 := by
  simp [Json.ofMembers, nesting, membersNesting, memberNesting]

theorem name?_eq_some_iff {j : Json} {name : String} :
    name? levels j = some name ↔ DenotesName j name ∧ nesting j ≤ levels := by
  constructor
  · intro h
    rw [name?.eq_def] at h
    split at h
    next =>
      obtain rfl := h
      exact ⟨.word name, Nat.zero_le levels⟩
    next =>
      split at h
      next => cases h
      next hlevels =>
        obtain rfl := h
        refine ⟨.member name, ?_⟩
        change nesting (.ofMembers [(name, .null)]) ≤ levels
        rw [nesting_member]
        exact Nat.one_le_iff_ne_zero.mpr hlevels
    next => cases h
  · rintro ⟨hname, hlevels⟩
    cases hname with
    | word => rfl
    | member =>
        rw [nesting_member] at hlevels
        exact if_neg (Nat.one_le_iff_ne_zero.mp hlevels)

end Document

theorem Combinator.ofName?_eq_some_iff {name : String} {c : Combinator} :
    ofName? name = some c ↔ c.name = name := by
  constructor
  · intro h
    simpa using List.find?_some h
  · rintro rfl
    cases c <;> rfl

theorem Comparison.ofName?_eq_some_iff {name : String} {c : Comparison} :
    ofName? name = some c ↔ c.name = name := by
  constructor
  · intro h
    simpa using List.find?_some h
  · rintro rfl
    cases c <;> rfl

theorem Combinator.ofJson?_eq_some_iff {levels : Nat} {j : Json} {c : Combinator} :
    ofJson? levels j = some c ↔
      Document.DenotesName j c.name ∧ Document.nesting j ≤ levels := by
  rw [ofJson?, Option.bind_eq_some_iff]
  simp only [ofName?_eq_some_iff, exists_eq_right']
  exact Document.name?_eq_some_iff

theorem Comparison.ofJson?_eq_some_iff {levels : Nat} {j : Json} {c : Comparison} :
    ofJson? levels j = some c ↔
      Document.DenotesName j c.name ∧ Document.nesting j ≤ levels := by
  rw [ofJson?, Option.bind_eq_some_iff]
  simp only [ofName?_eq_some_iff, exists_eq_right']
  exact Document.name?_eq_some_iff

/-! ## Values -/

namespace Document

/-- The number is spelled as an integer and is within the range.  Minus zero is no integer. -/
def SpellsInteger (spelling : String) (i : Integer .i64) : Prop :=
  Integer.Spells spelling.toList i.val ∧ spelling ≠ "-0"

/-- A number that does not spell an integer is a float, provided that it is finite. -/
inductive DenotesValue : Json → Value → Prop
  | bool (b : Bool) : DenotesValue (.bool b) (.bool b)
  | int {spelling : String} {i : Integer .i64} (h : SpellsInteger spelling i) :
      DenotesValue (.number spelling) (.int i)
  | float {spelling : String} {x : Double} (hnot : ∀ i, ¬ SpellsInteger spelling i)
      (hread : Binary.read spelling.toList = .ok x) (hfinite : x.isFinite = true) :
      DenotesValue (.number spelling) (.float x)
  | text (s : String) : DenotesValue (.ofString s) (.text s)

theorem DenotesValue.isFinite {j : Json} {v : Value} (h : DenotesValue j v) :
    v.isFinite = true := by
  cases h with
  | bool => rfl
  | int => rfl
  | float _ _ hfinite => exact hfinite
  | text => rfl

/-- What a value is written as is one of its forms. -/
theorem DenotesValue.nesting_eq_zero {j : Json} {v : Value} (h : DenotesValue j v) :
    nesting j = 0 := by
  cases h <;> rfl

end Document

namespace Value

open Document (SpellsInteger DenotesValue)

theorem finite?_eq_some_iff {spelling : List Char} {x : Double} :
    finite? spelling = some x ↔ Binary.read spelling = .ok x ∧ x.isFinite = true := by
  rw [finite?]
  constructor
  · intro h
    split at h
    next hread =>
      obtain rfl := Option.some.inj h
      exact ⟨hread, rfl⟩
    next => cases h
  · rintro ⟨hread, hfinite⟩
    cases x with
    | nan => cases hfinite
    | infinity negative => cases hfinite
    | finite negative units hunits => simp only [hread]

theorem spellsInteger_iff {spelling : String} {i : Integer .i64} :
    SpellsInteger spelling i ↔
      writtenIntegral spelling.toList = true ∧ Integer.read spelling.toList = .ok i := by
  have hzero : spelling ≠ "-0" ↔ spelling.toList ≠ ['-', '0'] := by
    rw [ne_eq, ne_eq, ← String.toList_inj]
    rfl
  rw [SpellsInteger, Integer.read_eq_ok_iff, writtenIntegral, Bool.and_eq_true, bne_iff_ne, hzero,
    and_comm, and_congr_left_iff]
  intro hspells
  exact (and_iff_right (List.all_eq_true.mpr (plain_of_spells hspells))).symm

theorem ofSpelling?_of_spellsInteger {spelling : String} {i : Integer .i64}
    (h : SpellsInteger spelling i) : ofSpelling? spelling.toList = some (.int i) := by
  obtain ⟨hwritten, hread⟩ := spellsInteger_iff.mp h
  rw [ofSpelling?, hwritten, hread]

theorem ofSpelling?_of_not_spellsInteger {spelling : String} (h : ∀ i, ¬ SpellsInteger spelling i) :
    ofSpelling? spelling.toList = (finite? spelling.toList).map .float := by
  rw [ofSpelling?]
  split
  next i hwritten hread => exact absurd (spellsInteger_iff.mpr ⟨hwritten, hread⟩) (h i)
  next => rfl

/-- The reader of values takes exactly the documents that denote a value. -/
theorem ofJson?_eq_some_iff {j : Json} {v : Value} : ofJson? j = some v ↔ DenotesValue j v := by
  constructor
  · intro h
    cases j with
    | null => cases h
    | bool b =>
        obtain rfl := Option.some.inj h
        exact .bool b
    | number spelling =>
        by_cases hint : ∃ i, SpellsInteger spelling i
        · obtain ⟨i, hint⟩ := hint
          rw [ofJson?, ofSpelling?_of_spellsInteger hint] at h
          obtain rfl := Option.some.inj h
          exact .int hint
        · have hnot := not_exists.mp hint
          rw [ofJson?, ofSpelling?_of_not_spellsInteger hnot] at h
          obtain ⟨x, hx, rfl⟩ := Option.map_eq_some_iff.mp h
          obtain ⟨hread, hfinite⟩ := finite?_eq_some_iff.mp hx
          exact .float hnot hread hfinite
    | string contents =>
        obtain ⟨s, rfl, rfl⟩ := Option.map_eq_some_iff.mp h
        exact .text s
    | array items => cases h
    | object members => cases h
  · intro h
    cases h with
    | bool b => rfl
    | int hint => exact ofSpelling?_of_spellsInteger hint
    | float hnot hread hfinite =>
        rw [ofJson?, ofSpelling?_of_not_spellsInteger hnot,
          finite?_eq_some_iff.mpr ⟨hread, hfinite⟩, Option.map_some]
    | text s => rfl

end Value

/-! ## The parts of a criterion -/

/-- Among members of different names, looking a name up finds the member with that name. -/
theorem Json.lookup_eq_some_iff_mem
    {members : List (String × Json)} (hdistinct : (members.map Prod.fst).Nodup) {name : String}
    {j : Json} : members.lookup name = some j ↔ (name, j) ∈ members := by
  rw [List.lookup_eq_some_iff]
  constructor
  · rintro ⟨before, after, rfl, -⟩
    simp
  · intro hmem
    obtain ⟨before, after, rfl⟩ := List.append_of_mem hmem
    refine ⟨before, after, rfl, fun m hm => ?_⟩
    rw [List.map_append, List.map_cons, List.nodup_append] at hdistinct
    exact bne_iff_ne.mpr (hdistinct.2.2 m.1 (List.mem_map_of_mem hm) name (by simp)).symm

namespace Criterion

variable {parts : Parts}

/-- The parts that are there, as members in order. -/
def Parts.members (parts : Parts) : List (String × Json) :=
  (parts.combinator.toList.map fun j => ("combinator", j)) ++
    [("field", parts.field), ("comparison", parts.comparison), ("value", parts.value)] ++
    parts.children.toList.map fun j => ("children", j)

theorem Parts.map_fst_members_sublist (parts : Parts) :
    (parts.members.map Prod.fst).Sublist memberNames := by
  obtain ⟨combinator, field, comparison, value, children⟩ := parts
  cases combinator <;> cases children <;> simp [members, memberNames]

theorem Parts.nodup_map_fst_members (parts : Parts) : (parts.members.map Prod.fst).Nodup :=
  parts.map_fst_members_sublist.nodup (by decide)

theorem Parts.lookup_members (parts : Parts) :
    parts.members.lookup "combinator" = parts.combinator ∧
      parts.members.lookup "field" = some parts.field ∧
      parts.members.lookup "comparison" = some parts.comparison ∧
      parts.members.lookup "value" = some parts.value ∧
      parts.members.lookup "children" = parts.children := by
  obtain ⟨combinator, field, comparison, value, children⟩ := parts
  cases combinator <;> cases children <;> exact ⟨rfl, rfl, rfl, rfl, rfl⟩

theorem Parts.mem_members_iff {name : String} {part : Json} :
    (name, part) ∈ parts.members ↔
      name = "combinator" ∧ parts.combinator = some part ∨
        name = "field" ∧ part = parts.field ∨ name = "comparison" ∧ part = parts.comparison ∨
        name = "value" ∧ part = parts.value ∨
        name = "children" ∧ parts.children = some part := by
  obtain ⟨combinator, field, comparison, value, children⟩ := parts
  cases combinator <;> cases children <;> simp [members, eq_comm]

theorem Parts.combinator_mem_iff {part : Json} :
    ("combinator", part) ∈ parts.members ↔ parts.combinator = some part := by
  simp [mem_members_iff]

theorem Parts.comparison_mem_iff {part : Json} :
    ("comparison", part) ∈ parts.members ↔ part = parts.comparison := by
  simp [mem_members_iff]

theorem Parts.value_mem_iff {part : Json} :
    ("value", part) ∈ parts.members ↔ part = parts.value := by
  simp [mem_members_iff]

theorem Parts.children_mem_iff {part : Json} :
    ("children", part) ∈ parts.members ↔ parts.children = some part := by
  simp [mem_members_iff]

/-- The parts among the members with known names. -/
def ofKnown? (known : List (String × Json)) : Option Parts := do
  return {
    combinator := known.lookup "combinator"
    field := ← known.lookup "field"
    comparison := ← known.lookup "comparison"
    value := ← known.lookup "value"
    children := known.lookup "children"
  }

theorem parts?_object (members : List (Option String × Json)) :
    parts? (.object members) = (Json.known? memberNames members).bind ofKnown? := rfl

theorem ofKnown?_eq_some_iff {known : List (String × Json)} :
    ofKnown? known = some parts ↔
      ∀ name ∈ memberNames, known.lookup name = parts.members.lookup name := by
  obtain ⟨hcombinator, hfield, hcomparison, hvalue, hchildren⟩ := parts.lookup_members
  simp only [memberNames, List.forall_mem_cons, List.not_mem_nil, false_imp_iff, implies_true,
    and_true, hcombinator, hfield, hcomparison, hvalue, hchildren]
  obtain ⟨combinator, field, comparison, value, children⟩ := parts
  constructor
  · intro h
    obtain ⟨_, hf, h⟩ := Option.bind_eq_some_iff.mp h
    obtain ⟨_, hc, h⟩ := Option.bind_eq_some_iff.mp h
    obtain ⟨_, hv, h⟩ := Option.bind_eq_some_iff.mp h
    cases Option.some.inj h
    exact ⟨rfl, hf, hc, hv, rfl⟩
  · rintro ⟨hcombinator, hfield, hcomparison, hvalue, hchildren⟩
    simp only [ofKnown?, hcombinator, hfield, hcomparison, hvalue, hchildren]
    rfl

/-- Members of different, known names have the same parts as others if they are the same up to
order. -/
theorem perm_members_iff
    {known : List (String × Json)} (hdistinct : (known.map Prod.fst).Nodup)
    (hknown : ∀ m ∈ known, m.1 ∈ memberNames) :
    known.Perm parts.members ↔ ofKnown? known = some parts := by
  have hmem : ∀ (name : String) (j : Json),
      (known.lookup name = some j ↔ (name, j) ∈ known) ∧
        (parts.members.lookup name = some j ↔ (name, j) ∈ parts.members) :=
    fun name j => ⟨Json.lookup_eq_some_iff_mem hdistinct,
      Json.lookup_eq_some_iff_mem parts.nodup_map_fst_members⟩
  rw [ofKnown?_eq_some_iff, List.perm_ext_iff_of_nodup (hdistinct.of_map _)
    (parts.nodup_map_fst_members.of_map _)]
  constructor
  · intro h name _
    refine Option.ext fun j => ?_
    rw [(hmem name j).1, (hmem name j).2, h (name, j)]
  · rintro h ⟨name, j⟩
    constructor
    · intro hj
      rw [← (hmem name j).2, ← h name (hknown _ hj), (hmem name j).1]
      exact hj
    · intro hj
      have hname : name ∈ memberNames :=
        parts.map_fst_members_sublist.subset (List.mem_map_of_mem hj)
      rw [← (hmem name j).1, h name hname, (hmem name j).2]
      exact hj

end Criterion

namespace Document

open Criterion (Parts memberNames parts?)

/-- A criterion is laid out as an array of its parts, or as an object with its parts for members,
in any order and with any members of other names between them. -/
inductive LaysOut : Json → Parts → Prop
  | four (combinator field comparison value : Json) :
      LaysOut (.array [combinator, field, comparison, value])
        ⟨some combinator, field, comparison, value, none⟩
  | five (combinator field comparison value children : Json) :
      LaysOut (.array [combinator, field, comparison, value, children])
        ⟨some combinator, field, comparison, value, some children⟩
  | object {members : List (String × Json)} {parts : Parts}
      (h : (members.filter fun m => memberNames.contains m.1).Perm parts.members) :
      LaysOut (.ofMembers members) parts

/-- The parts of a criterion are found where it is laid out, and only there. -/
theorem parts?_eq_some_iff {j : Json} {parts : Parts} :
    parts? j = some parts ↔ LaysOut j parts := by
  constructor
  · intro h
    cases j with
    | array items =>
        rw [Criterion.parts?.eq_def] at h
        split at h
        next combinator field comparison value hitems =>
          cases Option.some.inj h
          rw [hitems]
          exact .four combinator field comparison value
        next combinator field comparison value children hitems =>
          cases Option.some.inj h
          rw [hitems]
          exact .five combinator field comparison value children
        next hitems => cases hitems
        next => cases h
    | object members =>
        rw [Criterion.parts?_object, Option.bind_eq_some_iff] at h
        obtain ⟨known, hknown, h⟩ := h
        obtain ⟨found, rfl, rfl, hdistinct⟩ := Json.known?_eq_some_iff.mp hknown
        refine .object ((Criterion.perm_members_iff hdistinct ?_).mpr h)
        simp
    | _ => cases h
  · intro h
    cases h with
    | four => rfl
    | five => rfl
    | @object members _ hperm =>
        have hdistinct := ((hperm.map Prod.fst).nodup_iff).mpr parts.nodup_map_fst_members
        have hknown : Json.known? memberNames (Json.Reader.named members) = some _ :=
          Json.known?_eq_some_iff.mpr ⟨members, rfl, rfl, hdistinct⟩
        refine Option.bind_eq_some_iff.mpr ⟨_, hknown, ?_⟩
        refine (Criterion.perm_members_iff hdistinct ?_).mp hperm
        simp

end Document

end Criteria
