import Criteria.Document.Filter
import Criteria.Proofs.Document.Value
import Criteria.Proofs.Preorder

/-!
# Filters in documents are read back

A criterion is written as an object whose last member, the children, may be missing, and
the reader takes the default for a part that is missing.  So what is read from the document
of a criterion is said once, for any number of levels that are left: everything comes back
except perhaps the value and the children.  A group then comes back if its document nests no
deeper than there are levels and every value in it is finite, and a value that is not finite
is enough to lose the whole group.
-/

namespace Criteria

namespace Json

mutual

/-- How deep the arrays and objects of a document nest. -/
def depth : Json → Nat
  | .array items => itemsDepth items + 1
  | .object members => membersDepth members + 1
  | _ => 0
termination_by structural j => j

/-- The greatest depth of an item. -/
def itemsDepth : List Json → Nat
  | [] => 0
  | j :: rest => max (depth j) (itemsDepth rest)
termination_by structural items => items

/-- The depth of the value of a member. -/
def memberDepth : Option String × Json → Nat
  | (_, j) => depth j
termination_by structural member => member

/-- The greatest depth of the value of a member. -/
def membersDepth : List (Option String × Json) → Nat
  | [] => 0
  | member :: rest => max (memberDepth member) (membersDepth rest)
termination_by structural members => members

end

end Json

theorem Value.depth_toJson (v : Value) : v.toJson.depth = 0 := by
  cases v with
  | bool b => rfl
  | int i => rfl
  | float x =>
      rw [toJson]
      cases x.spelling? <;> rfl
  | text s => rfl

theorem Combinator.ofJson?_name (levels : Nat) (c : Combinator) :
    ofJson? levels (Json.ofString c.name) = some c := by
  cases c <;> rfl

theorem Comparison.ofJson?_name (levels : Nat) (c : Comparison) :
    ofJson? levels (Json.ofString c.name) = some c := by
  cases c <;> rfl

namespace Criterion

variable {levels : Nat} {c : Criterion} {cs : List Criterion}

/-- Reads a criterion with the given number of levels left for its parts. -/
def ofJson? (levels : Nat) (j : Json) : Option Criterion := do
  let parts ← parts? j
  let combinator ← orDefault .and (Combinator.ofJson? levels) parts.combinator
  let field ← parts.field.text?
  let comparison ← Comparison.ofJson? levels parts.comparison
  let value ← Value.ofJson? parts.value
  let children ← orDefault [] (listOfJson? levels) parts.children
  return ⟨combinator, field, comparison, value, children⟩

/-- A group is read criterion by criterion, two levels below it. -/
theorem listOfJson?_array (levels : Nat) (items : List Json) :
    listOfJson? (levels + 2) (.array items) = items.mapM (ofJson? levels) := by
  cases items with
  | nil => rfl
  | cons j rest => rfl

/-- There is no criterion in an array with fewer levels left. -/
theorem listOfJson?_eq_none_of_lt {items : List Json} (hne : items ≠ []) (h : levels < 2) :
    listOfJson? levels (.array items) = none := by
  obtain ⟨j, rest, rfl⟩ := List.exists_cons_of_ne_nil hne
  obtain rfl | rfl : levels = 0 ∨ levels = 1 := by omega
  · rfl
  · rfl

theorem listToJson_ne_nil (hne : cs ≠ []) : listToJson cs ≠ [] := by
  obtain ⟨c, rest, rfl⟩ := List.exists_cons_of_ne_nil hne
  exact List.cons_ne_nil _ _

/-- The document of children, which is written only if there are any. -/
def childrenDocument? (children : List Criterion) : Option Json :=
  if children.isEmpty then none else some (.array (listToJson children))

theorem childrenDocument?_of_ne_nil (hne : cs ≠ []) :
    childrenDocument? cs = some (.array (listToJson cs)) := by
  obtain ⟨c, rest, rfl⟩ := List.exists_cons_of_ne_nil hne
  rfl

/-- The members of the document of a criterion. -/
def members (c : Criterion) : List (String × Json) :=
  [("combinator", Json.ofString c.combinator.name), ("field", Json.ofString c.field),
    ("comparison", Json.ofString c.comparison.name), ("value", c.value.toJson)] ++
  (childrenDocument? c.children).toList.map fun j => ("children", j)

theorem toJson_eq_ofMembers (c : Criterion) : toJson c = Json.ofMembers c.members := by
  obtain ⟨combinator, field, comparison, value, children⟩ := c
  cases children with
  | nil => rfl
  | cons d rest => rfl

/-- The document of a criterion is taken apart into the documents of its parts. -/
theorem parts?_toJson (c : Criterion) :
    parts? (toJson c) = some {
      combinator := some (Json.ofString c.combinator.name)
      field := Json.ofString c.field
      comparison := Json.ofString c.comparison.name
      value := c.value.toJson
      children := childrenDocument? c.children } := by
  have hknown : Json.known? memberNames (Json.Reader.named c.members) = some c.members := by
    apply Json.known?_named
    · rw [members]
      cases childrenDocument? c.children <;> simp [memberNames]
    · rw [members]
      cases childrenDocument? c.children <;> simp
  rw [toJson_eq_ofMembers]
  change (Json.known? memberNames (Json.Reader.named c.members)).bind _ = _
  rw [hknown, members]
  cases childrenDocument? c.children <;> rfl

/-- What is read from the document of a criterion: all of it, as long as the value and the
children are read. -/
theorem ofJson?_toJson (levels : Nat) (c : Criterion) :
    ofJson? levels (toJson c) =
      (if c.value.isFinite then some c.value else none).bind fun value =>
        (orDefault [] (listOfJson? levels) (childrenDocument? c.children)).map fun children =>
          ⟨c.combinator, c.field, c.comparison, value, children⟩ := by
  have hcombinator := c.combinator.ofJson?_name levels
  have hcomparison := c.comparison.ofJson?_name levels
  have hfield : (Json.ofString c.field).text? = some c.field := rfl
  rw [ofJson?, parts?_toJson]
  simp only [Option.bind_eq_bind, Option.bind_some]
  rw [orDefault, hcombinator, hfield, hcomparison, Value.ofJson?_toJson]
  simp only [Option.bind_some, Option.map_eq_bind]
  rfl

/-- A criterion is read back if its value is finite and its children are read back. -/
theorem ofJson?_toJson_eq_some
    (hvalue : c.value.isFinite = true)
    (hchildren : c.children ≠ [] →
      listOfJson? levels (.array (listToJson c.children)) = some c.children) :
    ofJson? levels (toJson c) = some c := by
  have hread : orDefault [] (listOfJson? levels) (childrenDocument? c.children) =
      some c.children := by
    by_cases hempty : c.children = []
    · rw [hempty]
      rfl
    · rw [childrenDocument?_of_ne_nil hempty]
      exact hchildren hempty
  rw [ofJson?_toJson, if_pos hvalue, hread]
  cases c
  rfl

/-- A criterion is not read if its value is not finite or its children are not read. -/
theorem ofJson?_toJson_eq_none
    (h : c.value.isFinite = false ∨
      c.children ≠ [] ∧ listOfJson? levels (.array (listToJson c.children)) = none) :
    ofJson? levels (toJson c) = none := by
  rw [ofJson?_toJson]
  rcases h with hvalue | ⟨hne, hchildren⟩
  · rw [hvalue]
    rfl
  · rw [childrenDocument?_of_ne_nil hne, orDefault, hchildren]
    exact Option.bind_fun_none _

/-- The document of a criterion takes one level more than that of its children. -/
theorem depth_toJson (c : Criterion) :
    (toJson c).depth = ((childrenDocument? c.children).map Json.depth).getD 0 + 1 := by
  rw [toJson_eq_ofMembers, members]
  cases childrenDocument? c.children <;>
    simp [Json.ofMembers, Json.depth, Json.membersDepth, Json.memberDepth, Json.ofString,
      Value.depth_toJson]

theorem depth_toJson_of_ne_nil (hne : c.children ≠ []) :
    (toJson c).depth = (Json.array (listToJson c.children)).depth + 1 := by
  rw [depth_toJson, childrenDocument?_of_ne_nil hne]
  rfl

theorem depth_pos_of_ne_nil (hne : cs ≠ []) : 1 ≤ Json.itemsDepth (listToJson cs) := by
  obtain ⟨c, rest, rfl⟩ := List.exists_cons_of_ne_nil hne
  rw [listToJson, Json.itemsDepth, depth_toJson]
  omega

theorem mapM_ofJson?_listToJson (hfinite : ∀ c ∈ preorder cs, c.value.isFinite = true) :
    ∀ levels, Json.itemsDepth (listToJson cs) ≤ levels + 1 →
      (listToJson cs).mapM (ofJson? levels) = some cs := by
  induction cs using preorder_induction with
  | nil =>
      intro levels _
      rfl
  | cons c rest ihchildren ihrest =>
      intro levels hdepth
      rw [listToJson, Json.itemsDepth] at hdepth
      have hread : ofJson? levels (toJson c) = some c := by
        refine ofJson?_toJson_eq_some (hfinite c (by simp)) fun hne => ?_
        have hpos := depth_pos_of_ne_nil hne
        rw [depth_toJson_of_ne_nil hne, Json.depth] at hdepth
        -- The criterion takes one level and the array of its children another one.
        obtain ⟨below, rfl⟩ : ∃ n, levels = n + 2 := ⟨levels - 2, by omega⟩
        rw [listOfJson?_array]
        exact ihchildren (fun d hd => hfinite d (by simp [hd])) below (by omega)
      have hrest := ihrest (fun d hd => hfinite d (by simp [hd])) levels (by omega)
      rw [listToJson, List.mapM_cons, hread, hrest]
      rfl

/-- A group whose values are all finite is read back wherever its document fits. -/
theorem listOfJson?_listToJson
    (hfinite : ∀ c ∈ preorder cs, c.value.isFinite = true)
    (hdepth : (Json.array (listToJson cs)).depth ≤ levels) :
    listOfJson? levels (.array (listToJson cs)) = some cs := by
  rw [Json.depth] at hdepth
  by_cases hne : cs = []
  · subst hne
    obtain ⟨below, rfl⟩ : ∃ n, levels = n + 1 := ⟨levels - 1, by omega⟩
    rfl
  · have hpos := depth_pos_of_ne_nil hne
    obtain ⟨below, rfl⟩ : ∃ n, levels = n + 2 := ⟨levels - 2, by omega⟩
    rw [listOfJson?_array]
    exact mapM_ofJson?_listToJson hfinite below (by omega)

/-- A group in which a value is not finite, at whatever depth, is not read back. -/
theorem listOfJson?_listToJson_eq_none
    (hnot : ∃ c ∈ preorder cs, c.value.isFinite = false) :
    ∀ levels, listOfJson? levels (.array (listToJson cs)) = none := by
  induction cs using preorder_induction with
  | nil =>
      obtain ⟨c, hc, -⟩ := hnot
      cases hc
  | cons c rest ihchildren ihrest =>
      intro levels
      by_cases hlevels : levels < 2
      · exact listOfJson?_eq_none_of_lt (listToJson_ne_nil (List.cons_ne_nil c rest)) hlevels
      obtain ⟨below, rfl⟩ : ∃ n, levels = n + 2 := ⟨levels - 2, by omega⟩
      rw [listOfJson?_array, listToJson, List.mapM_cons]
      obtain ⟨d, hd, hvalue⟩ := hnot
      rw [preorder_cons, List.mem_cons, List.mem_append] at hd
      rcases hd with rfl | hd | hd
      · rw [ofJson?_toJson_eq_none (.inl hvalue)]
        rfl
      · have hne : c.children ≠ [] := by
          intro hnil
          rw [hnil] at hd
          cases hd
        rw [ofJson?_toJson_eq_none (.inr ⟨hne, ihchildren ⟨d, hd, hvalue⟩ below⟩)]
        rfl
      · have hrest := ihrest ⟨d, hd, hvalue⟩ (below + 2)
        rw [listOfJson?_array] at hrest
        rw [hrest]
        cases ofJson? below (toJson c) <;> rfl

/-- The document of a criterion has a text. -/
theorem spelled_toJson (hchildren : ∀ j ∈ listToJson c.children, Json.Spelled j) :
    Json.Spelled (toJson c) := by
  rw [toJson_eq_ofMembers]
  apply Json.Spelled.object
  have hfour : ∀ m ∈ [("combinator", Json.ofString c.combinator.name),
      ("field", Json.ofString c.field), ("comparison", Json.ofString c.comparison.name),
      ("value", c.value.toJson)], Json.Spelled m.2 := by
    simp [Json.Spelled.string, Value.spelled_toJson]
  intro m hm
  rw [members, List.mem_append] at hm
  rcases hm with hm | hm
  · exact hfour m hm
  · obtain ⟨j, hj, rfl⟩ := List.mem_map.mp hm
    rw [Option.mem_toList, childrenDocument?] at hj
    split at hj
    · cases hj
    · obtain rfl := Option.some.inj hj
      exact .array hchildren

theorem spelled_listToJson (cs : List Criterion) : ∀ j ∈ listToJson cs, Json.Spelled j := by
  induction cs using preorder_induction with
  | nil =>
      intro j hj
      cases hj
  | cons c rest ihchildren ihrest =>
      intro j hj
      rw [listToJson] at hj
      rcases List.mem_cons.mp hj with rfl | hj
      · exact spelled_toJson ihchildren
      · exact ihrest j hj

end Criterion

namespace Filter

theorem read?_print_eq (F : Filter) : read? F.print = ofJson? F.toJson := by
  have hspelled : Json.Spelled F.toJson := .array (Criterion.spelled_listToJson F.criteria)
  rw [read?, print, Json.read?_print hspelled]
  rfl

/-- A filter whose values are all finite and whose document nests no deeper than documents
may is read back from its text. -/
theorem read?_print_eq_some
    {F : Filter} (hdepth : F.toJson.depth ≤ Document.levels)
    (hfinite : ∀ c ∈ Criterion.preorder F.criteria, c.value.isFinite = true) :
    read? F.print = some F := by
  rw [read?_print_eq, ofJson?, toJson, Criterion.listOfJson?_listToJson hfinite hdepth]
  rfl

/-- A filter in which a value is not finite is not read back from its text. -/
theorem read?_print_eq_none
    {F : Filter} (hnot : ∃ c ∈ Criterion.preorder F.criteria, c.value.isFinite = false) :
    read? F.print = none := by
  rw [read?_print_eq, ofJson?, toJson, Criterion.listOfJson?_listToJson_eq_none hnot]
  rfl

end Filter

end Criteria
