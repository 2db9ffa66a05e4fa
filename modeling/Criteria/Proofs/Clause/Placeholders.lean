import Criteria.Proofs.Clause.Agreement
import Criteria.Proofs.Rendering

/-!
# Placeholders, text and values line up

The placeholders of a query clause, the conditions of its text and the values to be bound
come from one walk, but by different ways: the text is assembled from the folds of the
queue, while the placeholders and the values are kept as the criteria are met.  All three
follow the criteria in preorder, because every criterion of a query clause has a condition
and combining keeps their order.
-/

namespace Criteria

variable {R : RecordType}

/-- A column as a query writes it. -/
def ClauseOptions.column (options : ClauseOptions) (name : String) : String :=
  (options.qualifier.map (· ++ ".")).getD "" ++ name

theorem Condition.text_eq (options : ClauseOptions) (c : Condition) :
    c.text options =
      options.column c.field ++ " " ++ c.comparison.operator ++ " " ++ options.mark ++ c.field := by
  cases hqualifier : options.qualifier <;> simp [text, ClauseOptions.column, hqualifier]

namespace QueryClause

open Combination Criterion

/-- The conditions of a query clause are those of the criteria in preorder. -/
theorem leaves_of_generate
    {options : ClauseOptions} {S : Schema R} {cs : List Criterion} {q : QueryClause R}
    (h : generate options S cs = .ok q) :
    q.expression.leaves = (preorder cs).map fun c => ⟨c.field, c.comparison⟩ := by
  obtain ⟨-, -, hresolves, -, -⟩ := exists_generate_iff.mp ⟨q, h⟩
  have hconditions : ∀ c ∈ preorder cs,
      (Predicate.known S c).map (Expression.map Test.condition) =
        some (.leaf ⟨c.field, c.comparison⟩) :=
    fun c hc => known_map_condition (hresolves c hc)
  have hleaves := (assembles_of_generate h).2.leaves_eq fun c hc _ => by
    rw [hconditions c hc]
    rfl
  have hown : ∀ c ∈ preorder cs,
      own ((Predicate.known S c).map (Expression.map Test.condition)) =
        [⟨c.field, c.comparison⟩] := by
    intro c hc
    rw [hconditions c hc]
    rfl
  rw [hleaves, List.flatMap_def, List.map_congr_left hown, ← List.flatMap_def,
    ← List.map_eq_flatMap]
  rfl

/-- The placeholders of a query clause are the fields of its conditions. -/
theorem parameters_eq_map_leaves
    {options : ClauseOptions} {S : Schema R} {cs : List Criterion} {q : QueryClause R}
    (h : generate options S cs = .ok q) :
    q.parameters = q.expression.leaves.map Condition.field := by
  have hparameters : q.parameters = (preorder cs).map Criterion.field :=
    (filled_of_generate h).parameters
  rw [hparameters, leaves_of_generate h, List.map_map]
  rfl

/-- The placeholders of a query clause are the fields of the criteria in preorder, without
repetition and all of them of the schema; the conditions follow each other in the text in
the same order; each placeholder's field holds the converted value of its criterion; and
every other field of the schema is as in a record to which nothing has been written. -/
theorem generate_lines_up
    {S : Schema R} (hseparate : S.Separate) {options : ClauseOptions} {cs : List Criterion}
    {q : QueryClause R} (h : generate options S cs = .ok q) :
    (q.parameters = (preorder cs).map Criterion.field ∧ q.parameters.Nodup ∧
        ∀ name ∈ q.parameters, name ∈ S.names) ∧
      (q.text = String.join
          (q.expression.symbols.map (Symbol.text " AND " " OR " (Condition.text options))) ∧
        (q.expression.symbols.filterMap Symbol.condition?).map (Condition.text options) =
          (preorder cs).map fun c =>
            options.column c.field ++ " " ++ c.comparison.operator ++ " " ++
              options.mark ++ c.field) ∧
      (∀ c ∈ preorder cs, ∃ f, S.resolve c.field = some f ∧
        f.convert c.value = .ok (f.read q.values)) ∧
      ∀ f ∈ S.fields, f.name ∉ q.parameters → f.read q.values = f.read (Record.initial R) := by
  obtain ⟨-, -, hresolves, hnodup, hfits⟩ := exists_generate_iff.mp ⟨q, h⟩
  have hfilled := filled_of_generate h
  have hparameters : q.parameters = (preorder cs).map Criterion.field := hfilled.parameters
  rw [hparameters]
  refine ⟨⟨rfl, hnodup, ?_⟩, ⟨?_, ?_⟩, ?_, hfilled.others hseparate⟩
  · intro name hname
    obtain ⟨c, hc, rfl⟩ := List.mem_map.mp hname
    obtain ⟨f, hf⟩ := Option.isSome_iff_exists.mp (hresolves c hc)
    exact List.mem_map.mpr ⟨f, Schema.mem_of_resolve hf, Schema.name_of_resolve hf⟩
  · rw [text, (assembles_of_generate h).1, Expression.render_eq_join]
  · rw [Expression.filterMap_condition?_symbols, leaves_of_generate h, List.map_map]
    refine List.map_congr_left ?_
    intro c _
    exact Condition.text_eq options _
  · intro c hc
    obtain ⟨f, hf⟩ := Option.isSome_iff_exists.mp (hresolves c hc)
    obtain ⟨-, constant, hconstant⟩ := hfits c hc f hf
    refine ⟨f, hf, ?_⟩
    have hread : f.read q.values = f.held c.value :=
      hfilled.bound hseparate hnodup c hc f hf
    rw [hread, Field.held_of_convert hconstant, hconstant]

/-- Shipments have a number that fits in a byte, a note, and a mark for fragile goods. -/
def shipments : RecordType where
  name := "Shipment"
  slots := [.int .u8, .text, .bool]

/-- The fields of shipments. -/
def shipmentSchema : Schema shipments :=
  .ofList [⟨"number", (0 : Fin 3)⟩, ⟨"note", (1 : Fin 3)⟩, ⟨"fragile", (2 : Fin 3)⟩]

/-- Shipments with a note on glass, or with number 7. -/
def glassOrSeventh : List Criterion :=
  [⟨.and, "note", .contains, .text "glass", [⟨.and, "number", .equal, .text " 7 ", []⟩]⟩]

theorem generate_lines_up_glassOrSeventh :
    shipmentSchema.Separate ∧
      ∃ q, generate ⟨":", some "s"⟩ shipmentSchema glassOrSeventh = .ok q ∧
        q.parameters = ["note", "number"] ∧
        (q.expression.symbols.filterMap Symbol.condition?).map
            (Condition.text ⟨":", some "s"⟩) =
          ["s.note LIKE :note", "s.number = :number"] ∧
        (∀ c ∈ preorder glassOrSeventh, ∃ f, shipmentSchema.resolve c.field = some f ∧
          f.convert c.value = .ok (f.read q.values)) ∧
        ∃ f ∈ shipmentSchema.fields, f.name = "fragile" ∧
          f.read q.values = f.read (Record.initial shipments) := by
  have hseparate : shipmentSchema.Separate := by
    rw [Schema.Separate]
    decide
  obtain ⟨q, hq⟩ : ∃ q, generate ⟨":", some "s"⟩ shipmentSchema glassOrSeventh = .ok q :=
    ⟨_, rfl⟩
  obtain ⟨⟨hparameters, -, -⟩, ⟨-, htexts⟩, hbound, hothers⟩ := generate_lines_up hseparate hq
  have hnames : q.parameters = ["note", "number"] := hparameters
  refine ⟨hseparate, q, hq, hnames, htexts, hbound, ⟨"fragile", (2 : Fin 3)⟩, ?_, rfl, ?_⟩
  · decide
  · refine hothers _ ?_ ?_
    · decide
    · rw [hnames]
      decide

end QueryClause

end Criteria
