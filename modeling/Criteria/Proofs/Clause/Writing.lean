import Criteria.Proofs.Calls
import Criteria.Proofs.Clause.Readability
import Mathlib.Data.List.Basic

/-!
# Conditions that are written out

The conditions of a query clause can be written out while the criteria are met, or when the
expression is complete: the walk only joins what it is given, so the text, the bound values and
the errors are the same.  A written condition can be read back.  Its operator names one
comparison, and a plain column name ends at the first space.  So the written conditions alone,
with the bound values for the placeholders, ask of a record what the predicate asks.
-/

namespace Criteria

variable {R : RecordType}

/-! ## Reading a written condition -/

namespace Condition

open Text

/-- The condition that a text writes: after the qualifier a column, an operator, and the
placeholder of the column's name, with a space between two of them. -/
def read? (options : ClauseOptions) (s : String) : Option Condition := do
  let qualified ← s.toList.dropPrefix? (options.column "").toList
  let field := String.ofList (qualified.takeWhile inName)
  let rest ← (qualified.dropWhile inName).dropPrefix? [' ']
  let comparison ← Comparison.ofOperator? (String.ofList (rest.takeWhile (· != ' ')))
  if rest.dropWhile (· != ' ') = ' ' :: (options.mark ++ field).toList then
    some ⟨field, comparison⟩
  else none

theorem dropPrefix?_append (front rest : List Char) :
    (front ++ rest).dropPrefix? front = some rest :=
  List.dropPrefix?_append_of_beq rest (beq_self_eq_true front)

/-- A condition is read back from its text, whatever the options. -/
theorem read?_text {c : Condition} (hc : c.PlainlyNamed) (options : ClauseOptions) :
    read? options (c.text options) = some c := by
  have htext : (c.text options).toList =
      (options.column "").toList ++ (c.field.toList ++ ([' '] ++ (c.comparison.operator.toList ++
        ' ' :: (options.mark ++ c.field).toList))) := by
    rw [text_eq]
    simp [ClauseOptions.column]
  have hcolumn : ∀ rest, Stops inName ([' '] ++ rest) := stops_cons (by decide)
  have hoperator := c.comparison.ne_space_of_mem_operator
  have hspace : ∀ rest, Stops (· != ' ') (' ' :: rest) := stops_cons rfl
  rw [read?, htext, dropPrefix?_append]
  simp only [Option.bind_eq_bind, Option.bind_some]
  rw [takeWhile_run hc (hcolumn _), dropWhile_run hc (hcolumn _), dropPrefix?_append,
    Option.bind_some, takeWhile_run hoperator (hspace _), dropWhile_run hoperator (hspace _),
    String.ofList_toList, String.ofList_toList, Comparison.ofOperator?_eq_some_iff.mpr rfl,
    Option.bind_some]
  exact if_pos rfl

/-- Whether a record meets a written condition, with the placeholder standing for the value of
its field in a second record. -/
def meets (options : ClauseOptions) (S : Schema R) (values r : Record R) (s : String) : Bool :=
  ((read? options s).map (holds S values r)).getD false

end Condition

namespace QueryClause

open Combination Walk

/-! ## Writing during the walk -/

theorem writtenElement_eq (options : ClauseOptions) (S : Schema R) :
    writtenElement options S =
      fun c => Option.map (Expression.map (Condition.text options)) <$> element S c := by
  funext c
  rw [element, map_eq_pure_bind]
  simp only [bind_assoc, pure_bind]
  rfl

/-- Writing each condition when it is met gives the expression with all conditions written. -/
theorem write_eq_map_generate (options : ClauseOptions) (S : Schema R) (cs : List Criterion) :
    write options S cs =
      (generate options S cs).map fun q =>
        (q.expression.map (Condition.text options), q.bindings) := by
  have hwalk : combine (writtenElement options S) cs =
      Expression.map (Condition.text options) <$> combine (element S) cs := by
    rw [writtenElement_eq, combine, combine]
    exact combineOnto_map (Expression.preserves_map _) (element S) .topLevel cs
  rw [write, generate, hwalk, outcome, outcome, map_eq_pure_bind, bind_apply]
  cases combine (element S) cs (.initial R) <;> rfl

/-- The text and the bound values do not depend on when conditions are written out, nor does the
error if there is one. -/
theorem map_text_write (options : ClauseOptions) (S : Schema R) (cs : List Criterion) :
    ((write options S cs).map fun (written, bindings) =>
        (written.render " AND " " OR " id, bindings)) =
      (generate options S cs).map fun q => (q.text, q.bindings) := by
  rw [write_eq_map_generate]
  cases h : generate options S cs with
  | error e => rfl
  | ok q =>
      change Except.ok ((q.expression.map (Condition.text options)).render " AND " " OR " id, _) = _
      rw [Expression.render_map, Except.map, text, (assembles_of_generate h).1]
      rfl

/-! ## What the written conditions ask for -/

/-- The written conditions of a query clause, read with the bound values for the placeholders,
say of a record what the predicate of the same criteria says. -/
theorem write_agrees_with_compile
    {S : Schema R} (hseparate : S.Separate) (hnames : S.PlainlyNamed) {options : ClauseOptions}
    {cs : List Criterion} {written : Expression String} {bindings : Bindings R}
    (h : write options S cs = .ok (written, bindings)) :
    ∃ p, Predicate.compile S cs = .ok p ∧
      ∀ r, written.holds (Condition.meets options S bindings.values r) = p.holds r := by
  rw [write_eq_map_generate] at h
  cases hgenerate : generate options S cs with
  | error e =>
      rw [hgenerate] at h
      cases h
  | ok q =>
      rw [hgenerate] at h
      obtain ⟨rfl, rfl⟩ := Prod.mk.inj (Except.ok.inj h)
      obtain ⟨p, hp⟩ := exists_compile_of_generate hgenerate
      refine ⟨p, hp, ?_⟩
      intro r
      rw [Expression.holds_map, ← holds_of_generate hseparate hgenerate hp r]
      apply Expression.holds_congr
      intro c hc
      rw [Condition.meets,
        Condition.read?_text (plainlyNamed_of_mem_leaves hnames hgenerate c hc)]
      rfl

end QueryClause

end Criteria
