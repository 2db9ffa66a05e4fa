import Criteria.Proofs.Clause.Placeholders
import Criteria.Proofs.Predicate.Readability

/-!
# Rendered texts are unambiguous

A condition of a query clause is written with the name of its column first and once more as
the placeholder, so it can be told from its text as a test can.  Both kinds of text
therefore determine what they were rendered from: the tree with its conditions, and with
these the records that a predicate matches and the placeholders of a clause.
-/

namespace Criteria

open Text

variable {R : RecordType}

namespace Comparison

/-- The comparison that an operator of a query asks for. -/
def ofOperator? : String → Option Comparison
  | "=" => some .equal
  | "<>" => some .notEqual
  | "<" => some .lessThan
  | "<=" => some .lessThanOrEqual
  | ">" => some .greaterThan
  | ">=" => some .greaterThanOrEqual
  | "LIKE" => some .contains
  | _ => none

/-- An operator is read as the comparison that is written so. -/
theorem ofOperator?_eq_some_iff {s : String} {c : Comparison} :
    ofOperator? s = some c ↔ c.operator = s := by
  constructor
  · intro h
    unfold ofOperator? at h
    split at h <;> cases h <;> rfl
  · rintro rfl
    cases c <;> rfl

theorem eq_of_operator_eq {a b : Comparison} (h : a.operator = b.operator) : a = b := by
  have hread := ofOperator?_eq_some_iff.mpr h
  rw [ofOperator?_eq_some_iff.mpr rfl] at hread
  exact (Option.some.inj hread).symm

theorem ne_space_of_mem_operator (c : Comparison) :
    ∀ d ∈ c.operator.toList, (d != ' ') = true := by
  cases c <;> exact List.all_eq_true.mp rfl

end Comparison

namespace Condition

/-- The field of a condition is named by letters, digits and underscores. -/
def PlainlyNamed (c : Condition) : Prop :=
  ∀ d ∈ c.field.toList, inName d = true

theorem text_default_append (c : Condition) (rest : List Char) :
    (c.text {}).toList ++ rest =
      c.field.toList ++ ' ' :: (c.comparison.operator.toList ++
        ' ' :: '@' :: (c.field.toList ++ rest)) := by
  simp [text]

/-- The texts of conditions with plain names determine the conditions. -/
theorem readable_text : Readable PlainlyNamed (text {}) := by
  intro c hc c' hc' rest rest' _ _ h
  rw [text_default_append, text_default_append] at h
  obtain ⟨hname, htail⟩ := run_inj hc hc' (stops_cons (by decide) _) (stops_cons (by decide) _) h
  obtain ⟨hoperator, hplaceholder⟩ := run_inj c.comparison.ne_space_of_mem_operator
    c'.comparison.ne_space_of_mem_operator (stops_cons rfl _) (stops_cons rfl _)
    (List.cons.inj htail).2
  have hfield : c.field = c'.field := String.toList_inj.mp hname
  have hcomparison : c.comparison = c'.comparison :=
    Comparison.eq_of_operator_eq (String.toList_inj.mp hoperator)
  -- The placeholder repeats the name, so what follows it begins at the same place.
  rw [hname] at hplaceholder
  have hrest : rest = rest' :=
    List.append_cancel_left (List.cons.inj (List.cons.inj hplaceholder).2).2
  obtain ⟨field, comparison⟩ := c
  obtain rfl := hfield
  obtain rfl := hcomparison
  exact ⟨rfl, hrest⟩

theorem head?_text_ne_opening {c : Condition} (h : c.PlainlyNamed) :
    (c.text {}).toList.head? ≠ some '(' := by
  have htext := c.text_default_append []
  rw [List.append_nil] at htext
  rw [htext]
  cases hname : c.field.toList with
  | nil => simp
  | cons d name =>
      have hd : inName d = true := h d (by rw [hname]; simp)
      intro hopening
      obtain rfl := Option.some.inj hopening
      cases hd

end Condition

namespace QueryClause

theorem setApart : SetApart " AND " " OR " where
  both_delimited _ := delimited_space _
  either_delimited _ := delimited_space _
  ne_append _ _ := by simp

theorem plainlyNamed_of_mem_leaves
    {S : Schema R} (hnames : S.PlainlyNamed) {options : ClauseOptions} {cs : List Criterion}
    {q : QueryClause R} (h : generate options S cs = .ok q) :
    ∀ c ∈ q.expression.leaves, c.PlainlyNamed := by
  obtain ⟨-, -, hresolves, -, -⟩ := exists_generate_iff.mp ⟨q, h⟩
  intro condition hcondition
  rw [leaves_of_generate h] at hcondition
  obtain ⟨c, hc, rfl⟩ := List.mem_map.mp hcondition
  obtain ⟨f, hf⟩ := Option.isSome_iff_exists.mp (hresolves c hc)
  exact hnames c.field
    (List.mem_map.mpr ⟨f, Schema.mem_of_resolve hf, Schema.name_of_resolve hf⟩)

/-- Query clauses of one text, generated with default options for one schema, have the same
expression. -/
theorem expression_eq_of_text_eq
    {S : Schema R} (hnames : S.PlainlyNamed) {cs cs' : List Criterion} {q q' : QueryClause R}
    (h : generate {} S cs = .ok q) (h' : generate {} S cs' = .ok q') (htext : q.text = q'.text) :
    q.expression = q'.expression := by
  have hreadable := Expression.readable_render setApart
    (fun _ hc => Condition.head?_text_ne_opening hc) Condition.readable_text
  rw [text, text, (assembles_of_generate h).1, (assembles_of_generate h').1] at htext
  exact hreadable.eq_of_text_eq (plainlyNamed_of_mem_leaves hnames h)
    (plainlyNamed_of_mem_leaves hnames h') htext

end QueryClause

/-- Predicates of one text, compiled for a schema with plain names, have one expression and
match the same records.  Query clauses of one text, generated for it with default options,
have one expression and the same placeholders. -/
theorem Schema.texts_determine_expressions {S : Schema R} (hnames : S.PlainlyNamed) :
    (∀ cs cs' p p', Predicate.compile S cs = .ok p → Predicate.compile S cs' = .ok p' →
        p.text = p'.text → p.expression = p'.expression ∧ ∀ r, p.holds r = p'.holds r) ∧
      ∀ cs cs' q q', QueryClause.generate {} S cs = .ok q →
        QueryClause.generate {} S cs' = .ok q' → q.text = q'.text →
          q.expression = q'.expression ∧ q.parameters = q'.parameters := by
  constructor
  · intro cs cs' p p' h h' htext
    have hsame := Predicate.expression_eq_of_text_eq hnames h h' htext
    refine ⟨hsame, ?_⟩
    intro r
    rw [Predicate.holds, Predicate.holds, hsame]
  · intro cs cs' q q' h h' htext
    have hsame := QueryClause.expression_eq_of_text_eq hnames h h' htext
    refine ⟨hsame, ?_⟩
    rw [QueryClause.parameters_eq_map_leaves h, QueryClause.parameters_eq_map_leaves h', hsame]

/-- Parcels of the given number, or with a note that reads like the middle of a predicate. -/
def misleadingParcels (number : Value) : List Criterion :=
  [⟨.and, "number", .equal, number, [⟨.and, "note", .contains, .text "\" || obj.note == \"", []⟩]⟩]

theorem Schema.texts_determine_expressions_misleadingParcels :
    parcelSchema.PlainlyNamed ∧
      (∃ p p', Predicate.compile parcelSchema (misleadingParcels (.text " 1 ")) = .ok p ∧
        Predicate.compile parcelSchema (misleadingParcels (.bool true)) = .ok p' ∧
        p.text = p'.text ∧ p.expression = p'.expression ∧ ∀ r, p.holds r = p'.holds r) ∧
      ∃ q q', QueryClause.generate {} parcelSchema (misleadingParcels (.text " 1 ")) = .ok q ∧
        QueryClause.generate {} parcelSchema (misleadingParcels (.text "2")) = .ok q' ∧
        q.text = q'.text ∧ q.expression = q'.expression ∧ q.parameters = q'.parameters := by
  have hnames : parcelSchema.PlainlyNamed := by
    have hall : parcelSchema.names.all (fun name => name.toList.all inName) = true := rfl
    simpa only [PlainlyNamed, List.all_eq_true] using hall
  obtain ⟨hpredicates, hclauses⟩ := texts_determine_expressions hnames
  constructor
  · exact hnames
  constructor
  · obtain ⟨p, hp⟩ : ∃ p, Predicate.compile parcelSchema (misleadingParcels (.text " 1 ")) =
        .ok p := ⟨_, rfl⟩
    obtain ⟨p', hp'⟩ : ∃ p, Predicate.compile parcelSchema (misleadingParcels (.bool true)) =
        .ok p := ⟨_, rfl⟩
    have hsame : Predicate.compile parcelSchema (misleadingParcels (.text " 1 ")) =
        Predicate.compile parcelSchema (misleadingParcels (.bool true)) := rfl
    rw [hp, hp'] at hsame
    have htext : p.text = p'.text := congrArg Predicate.text (Except.ok.inj hsame)
    exact ⟨p, p', hp, hp', htext, hpredicates _ _ p p' hp hp' htext⟩
  · obtain ⟨q, hq⟩ : ∃ q, QueryClause.generate {} parcelSchema
        (misleadingParcels (.text " 1 ")) = .ok q := ⟨_, rfl⟩
    obtain ⟨q', hq'⟩ : ∃ q, QueryClause.generate {} parcelSchema
        (misleadingParcels (.text "2")) = .ok q := ⟨_, rfl⟩
    have htexts :
        (QueryClause.generate {} parcelSchema (misleadingParcels (.text " 1 "))).map
            QueryClause.text =
          (QueryClause.generate {} parcelSchema (misleadingParcels (.text "2"))).map
            QueryClause.text := rfl
    rw [hq, hq'] at htexts
    have htext : q.text = q'.text := Except.ok.inj htexts
    exact ⟨q, q', hq, hq', htext, hclauses _ _ q q' hq hq' htext⟩

end Criteria
