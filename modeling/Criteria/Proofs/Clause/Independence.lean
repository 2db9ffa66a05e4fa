import Criteria.Proofs.Clause.Placeholders

/-!
# What a query clause does not depend on

The values of a filter reach the record of a query clause and nothing else of it: two
filters that differ in their values only, whatever these are, give the same text and the
same placeholders.  This holds because the condition of a criterion is made of its field
and its comparison, and because the criteria of both filters assemble by the same rules.
The options reach the text and nothing else: they decide neither whether a clause is
generated, nor what it binds.
-/

namespace Criteria

variable {R : RecordType}

namespace Criterion

/-- The two lists are the same but for the values: the criteria at each place have the same
combinator, field and comparison, and so have those below them. -/
inductive SameButValues : List Criterion → List Criterion → Prop
  | nil : SameButValues [] []
  | cons {c c' : Criterion} {rest rest' : List Criterion}
      (hcombinator : c.combinator = c'.combinator)
      (hfield : c.field = c'.field)
      (hcomparison : c.comparison = c'.comparison)
      (hchildren : SameButValues c.children c'.children)
      (hrest : SameButValues rest rest') :
      SameButValues (c :: rest) (c' :: rest')

theorem SameButValues.ne_nil {cs cs' : List Criterion} (h : SameButValues cs cs')
    (hne : cs ≠ []) : cs' ≠ [] := by
  cases h with
  | nil => exact absurd rfl hne
  | cons => exact List.cons_ne_nil _ _

theorem SameButValues.eq_nil {cs' : List Criterion} (h : SameButValues [] cs') : cs' = [] := by
  cases h with
  | nil => rfl

end Criterion

namespace Combination

open Criterion

/-- If the elements do not depend on the values, neither does what criteria assemble. -/
theorem Assembles.of_sameButValues
    {ε : Type} [Connectives ε] {known : Criterion → Option ε}
    (hknown : ∀ c c', c.field = c'.field → c.comparison = c'.comparison → known c = known c')
    {queue : List ε} {cs : List Criterion} {e : ε} (h : Assembles known queue cs e) :
    ∀ {cs'}, SameButValues cs cs' → Assembles known queue cs' e := by
  induction h with
  | nil hjoined =>
      intro cs' hsame
      rw [hsame.eq_nil]
      exact .nil hjoined
  | leaf hchildren hnext _ ih =>
      intro cs' hsame
      cases hsame with
      | cons hcombinator hfield hcomparison hbelow hrest =>
          rw [hcombinator, hknown _ _ hfield hcomparison] at hnext
          rw [hchildren] at hbelow
          exact .leaf hbelow.eq_nil hnext (ih hrest)
  | group hchildren hnext _ _ ihsub ihrest =>
      intro cs' hsame
      cases hsame with
      | cons hcombinator hfield hcomparison hbelow hrest =>
          rw [hcombinator, hknown _ _ hfield hcomparison] at hnext
          exact .group (hbelow.ne_nil hchildren) hnext (ihsub hbelow) (ihrest hrest)

end Combination

namespace QueryClause

open Combination Criterion

theorem known_map_condition_congr
    {S : Schema R} {c c' : Criterion} (hfield : c.field = c'.field)
    (hcomparison : c.comparison = c'.comparison) :
    (Predicate.known S c).map (Expression.map Test.condition) =
      (Predicate.known S c').map (Expression.map Test.condition) := by
  simp only [Predicate.known, test?, hfield, hcomparison, Option.map_map]
  rfl

theorem expression_of_sameButValues
    {options options' : ClauseOptions} {S : Schema R} {cs cs' : List Criterion}
    {q q' : QueryClause R} (hsame : SameButValues cs cs')
    (hq : generate options S cs = .ok q) (hq' : generate options' S cs' = .ok q') :
    q.expression = q'.expression := by
  have hassembles := (assembles_of_generate hq).2.of_sameButValues
    (fun _ _ => known_map_condition_congr) hsame
  exact hassembles.unique (assembles_of_generate hq').2

theorem bindings_of_options (options options' : ClauseOptions) (S : Schema R)
    (cs : List Criterion) :
    (generate options S cs).map bindings = (generate options' S cs).map bindings := by
  rw [generate, generate]
  cases Walk.outcome (combine (element S) cs) (.initial R) <;> rfl

/-- The text and the placeholders of a query clause do not depend on the values of the
filter.  Whether there is a query clause, the error if there is none, and the placeholders
and the record of values if there is one do not depend on the options. -/
theorem text_keeps_values_out (options : ClauseOptions) (S : Schema R) (cs : List Criterion) :
    (∀ cs' q q', SameButValues cs cs' →
        generate options S cs = .ok q → generate options S cs' = .ok q' →
        q.text = q'.text ∧ q.parameters = q'.parameters) ∧
      ∀ options',
        (∃ q q', generate options S cs = .ok q ∧ generate options' S cs = .ok q' ∧
          q.parameters = q'.parameters ∧ q.values = q'.values) ∨
        ∃ e, generate options S cs = .error e ∧ generate options' S cs = .error e := by
  constructor
  · intro cs' q q' hsame hq hq'
    have hexpression := expression_of_sameButValues hsame hq hq'
    constructor
    · rw [text, text, (assembles_of_generate hq).1, (assembles_of_generate hq').1, hexpression]
    · rw [parameters_eq_map_leaves hq, parameters_eq_map_leaves hq', hexpression]
  · intro options'
    have hbindings := bindings_of_options options options' S cs
    cases hq : generate options S cs with
    | ok q =>
        cases hq' : generate options' S cs with
        | ok q' =>
            have hsame : q.bindings = q'.bindings := by
              simpa [hq, hq', Except.map] using hbindings
            exact .inl ⟨q, q', rfl, rfl, congrArg Bindings.parameters hsame,
              congrArg Bindings.values hsame⟩
        | error e => simp [hq, hq', Except.map] at hbindings
    | error e =>
        cases hq' : generate options' S cs with
        | ok q' => simp [hq, hq', Except.map] at hbindings
        | error e' =>
            have hsame : e = e' := by simpa [hq, hq', Except.map] using hbindings
            exact .inr ⟨e, rfl, by rw [hsame]⟩

/-- Parcels with the given note, or of the given number. -/
def notedOrNumbered (note number : Value) : List Criterion :=
  [⟨.and, "note", .equal, note, [⟨.and, "number", .lessThanOrEqual, number, []⟩]⟩]

theorem text_keeps_values_out_notedOrNumbered :
    ∃ q q', SameButValues (notedOrNumbered (.text "glass") (.text " 7 "))
        (notedOrNumbered (.text "@note OR note <> '' --") (.bool true)) ∧
      generate {} parcelSchema (notedOrNumbered (.text "glass") (.text " 7 ")) = .ok q ∧
      generate {} parcelSchema (notedOrNumbered (.text "@note OR note <> '' --") (.bool true)) =
        .ok q' ∧
      q.text = q'.text ∧ q.text = "(note = @note OR number <= @number)" ∧
      q.parameters = q'.parameters := by
  have hsame : SameButValues (notedOrNumbered (.text "glass") (.text " 7 "))
      (notedOrNumbered (.text "@note OR note <> '' --") (.bool true)) :=
    .cons rfl rfl rfl (.cons rfl rfl rfl .nil .nil) .nil
  obtain ⟨q, hq, htext⟩ : ∃ q,
      generate {} parcelSchema (notedOrNumbered (.text "glass") (.text " 7 ")) = .ok q ∧
        q.text = "(note = @note OR number <= @number)" := ⟨_, rfl, by decide⟩
  obtain ⟨q', hq'⟩ : ∃ q', generate {} parcelSchema
      (notedOrNumbered (.text "@note OR note <> '' --") (.bool true)) = .ok q' := ⟨_, rfl⟩
  obtain ⟨hout, -⟩ := text_keeps_values_out {} parcelSchema
    (notedOrNumbered (.text "glass") (.text " 7 "))
  obtain ⟨htexts, hparameters⟩ := hout _ q q' hsame hq hq'
  exact ⟨q, q', hsame, hq, hq', htexts, htext, hparameters⟩

end QueryClause

end Criteria
