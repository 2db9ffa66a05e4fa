import Criteria.Document.Options
import Criteria.Proofs.Document.Filter

/-!
# What is written is read back

The text of a filter, of a value and of clause options stands for what it was written from.
The only documents that are lost are those with a float that is not finite, and these are
rejected rather than read as something else.
-/

namespace Criteria

namespace ClauseOptions

/-- The members of the document of options. -/
def members (options : ClauseOptions) : List (String × Json) :=
  [("placeholder_prefix", Json.ofString options.mark),
    ("qualifier", (options.qualifier.map Json.ofString).getD .null)]

theorem toJson_eq_ofMembers (options : ClauseOptions) :
    toJson options = Json.ofMembers options.members := by
  obtain ⟨mark, qualifier⟩ := options
  cases qualifier with
  | none => rfl
  | some s => rfl

theorem spelled_toJson (options : ClauseOptions) : Json.Spelled options.toJson := by
  have hqualifier : Json.Spelled ((options.qualifier.map Json.ofString).getD .null) := by
    cases options.qualifier with
    | none => exact .null
    | some s => exact .string s
  rw [toJson_eq_ofMembers]
  apply Json.Spelled.object
  intro m hm
  simp only [members, List.mem_cons, List.not_mem_nil, or_false] at hm
  rcases hm with rfl | rfl
  · exact .string options.mark
  · exact hqualifier

theorem ofJson?_toJson (options : ClauseOptions) : ofJson? options.toJson = some options := by
  have hknown : Json.known? ["placeholder_prefix", "qualifier"]
      (Json.Reader.named options.members) = some options.members :=
    Json.known?_named (by simp [members]) (by simp [members])
  have hparts : ofJson? (Json.ofMembers options.members) =
      (Json.known? ["placeholder_prefix", "qualifier"]
        (Json.Reader.named options.members)).bind fun known =>
          ofParts? (known.lookup "placeholder_prefix") (known.lookup "qualifier") := rfl
  rw [toJson_eq_ofMembers, hparts, hknown]
  obtain ⟨mark, qualifier⟩ := options
  cases qualifier with
  | none => rfl
  | some s => rfl

end ClauseOptions

namespace Document

open Criterion (preorder)

/-- A filter whose values are all finite and whose document nests less deep than the
reader's limit is read back from its text as the same filter; a filter in which some value
is a NaN or infinite is rejected.  The same holds of a single value, and options are always
read back.  Equality here is that of the terms: it tells an integer from the float of the
same size, and the two zeros from each other. -/
theorem texts_are_read_back :
    (∀ F : Filter, F.toJson.depth < 128 →
      (∀ c ∈ preorder F.criteria, c.value.isFinite = true) → Filter.read? F.print = some F) ∧
    (∀ F : Filter, (∃ c ∈ preorder F.criteria, c.value.isFinite = false) →
      Filter.read? F.print = none) ∧
    (∀ v : Value, v.isFinite = true →
      (Json.read? v.toJson.print).bind Value.ofJson? = some v) ∧
    (∀ v : Value, v.isFinite = false →
      (Json.read? v.toJson.print).bind Value.ofJson? = none) ∧
    ∀ options : ClauseOptions,
      (Json.read? options.toJson.print).bind ClauseOptions.ofJson? = some options := by
  have hvalue : ∀ v : Value, (Json.read? v.toJson.print).bind Value.ofJson? =
      if v.isFinite then some v else none := by
    intro v
    rw [Json.read?_print v.spelled_toJson, Option.bind_some, Value.ofJson?_toJson]
  refine ⟨?_, ?_, ?_, ?_, ?_⟩
  · intro F hdepth hfinite
    exact Filter.read?_print_eq_some (Nat.le_of_lt_succ hdepth) hfinite
  · intro F hnot
    exact Filter.read?_print_eq_none hnot
  · intro v hfinite
    rw [hvalue, if_pos hfinite]
  · intro v hnot
    rw [hvalue, hnot]
    rfl
  · intro options
    rw [Json.read?_print options.spelled_toJson, Option.bind_some, ClauseOptions.ofJson?_toJson]

/-- Parcels with the number 3 or, within a group, of a weight that differs from minus zero;
the names and the text hold characters that are escaped. -/
def quotedParcels (weight : Double) : Filter :=
  ⟨[⟨.and, "number", .equal, .int ⟨3, by decide, by decide⟩,
      [⟨.or, "the \"weight\"", .notEqual, .float (Binary.zero true), []⟩,
        ⟨.and, "", .lessThan, .float weight, []⟩]⟩,
    ⟨.or, "note\\", .contains, .text "glass\n\u0001", []⟩]⟩

/-- With the weight 3.0 the filter is read back, with a NaN it is rejected. -/
theorem texts_are_read_back_quotedParcels :
    (quotedParcels (Binary.ofInt 3)).toJson.depth < 128 ∧
      Filter.read? (quotedParcels (Binary.ofInt 3)).print =
        some (quotedParcels (Binary.ofInt 3)) ∧
      Filter.read? (quotedParcels .nan).print = none ∧
      (Json.read? (Value.float (Binary.ofInt 3)).toJson.print).bind Value.ofJson? =
        some (.float (Binary.ofInt 3)) ∧
      (Json.read? (Value.float (.infinity true)).toJson.print).bind Value.ofJson? = none ∧
      (Json.read? (ClauseOptions.mk "$" (some "t.\"")).toJson.print).bind ClauseOptions.ofJson? =
        some ⟨"$", some "t.\""⟩ := by
  obtain ⟨hread, hrejected, hvalue, hnone, hoptions⟩ := texts_are_read_back
  have hdepth : (quotedParcels (Binary.ofInt 3)).toJson.depth < 128 := by
    simp [quotedParcels, Filter.toJson, Json.depth, Json.itemsDepth, Criterion.listToJson,
      Criterion.depth_toJson, Criterion.childrenDocument?]
  have hthree : (Binary.ofInt 3 : Double).isFinite = true := by decide +kernel
  have hfinite : ∀ c ∈ preorder (quotedParcels (Binary.ofInt 3)).criteria,
      c.value.isFinite = true := by
    simp [quotedParcels, Value.isFinite, hthree]
    rfl
  refine ⟨hdepth, hread _ hdepth hfinite, hrejected _ ?_, hvalue _ hthree, hnone _ rfl,
    hoptions _⟩
  refine ⟨⟨.and, "", .lessThan, .float .nan, []⟩, ?_, rfl⟩
  simp [quotedParcels]

end Document

end Criteria
