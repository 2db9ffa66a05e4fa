import Criteria.Proofs.Comparison
import Criteria.Proofs.Expression
import Criteria.Proofs.Predicate.Appending

/-!
# One filter on several record types

A filter knows fields by their names alone, so what it becomes depends only on how a schema
resolves the names that it uses.  Two schemas that resolve each of these names to fields of
the same storage type, or both not at all, compile the filter to predicates of the same
text or fail with the same error; the sizes of the schemas, the order of their fields and
all other fields play no part.  Two records that yield the same values for these names are
then matched alike.  On a single record type this says that the other fields of a record
cannot influence a match.
-/

namespace Criteria

variable {R R' : RecordType}

namespace Field

variable {f : Field R} {g : Field R'}

theorem convert_congr (h : f.storage = g.storage) (v : Value) : f.convert v = g.convert v := by
  rw [convert, convert, h]

theorem held_congr (h : f.storage = g.storage) (v : Value) : f.held v = g.held v := by
  rw [held, held, convert_congr h]

theorem kind_congr (h : f.storage = g.storage) : f.kind = g.kind := by
  rw [kind, kind, h]

end Field

/-- Neither schema has a field of the name, or both have one and it stores the same. -/
def Schema.Alike (S : Schema R) (S' : Schema R') (name : String) : Prop :=
  (S.resolve name = none ∧ S'.resolve name = none) ∨
    ∃ f g, S.resolve name = some f ∧ S'.resolve name = some g ∧ f.storage = g.storage

theorem Schema.Alike.refl (S : Schema R) (name : String) : S.Alike S name := by
  cases hf : S.resolve name with
  | none => exact .inl ⟨hf, hf⟩
  | some f => exact .inr ⟨f, f, hf, hf, rfl⟩

/-- The records yield the same value for the name, as far as both have a field of it. -/
def Record.YieldAlike
    (S : Schema R) (S' : Schema R') (r : Record R) (r' : Record R') (name : String) : Prop :=
  ∀ f g, S.resolve name = some f → S'.resolve name = some g → (f.read r).Agrees (g.read r')

namespace Criterion

variable {S : Schema R} {S' : Schema R'} {c : Criterion}

theorem resolves_congr (h : S.Alike S' c.field) : c.resolves S = c.resolves S' := by
  rcases h with ⟨hnone, hnone'⟩ | ⟨f, g, hf, hg, -⟩
  · simp [resolves, hnone, hnone']
  · simp [resolves, hf, hg]

theorem misfit?_congr (h : S.Alike S' c.field) : c.misfit? S = c.misfit? S' := by
  rcases h with ⟨hnone, hnone'⟩ | ⟨f, g, hf, hg, hstorage⟩
  · simp [misfit?, hnone, hnone']
  · simp only [misfit?, hf, hg, Field.kind_congr hstorage, Field.convert_congr hstorage]

/-- The tests of a criterion on both types have one text. -/
theorem map_text_test?_congr (h : S.Alike S' c.field) :
    (c.test? S).map Test.text = (c.test? S').map Test.text := by
  rcases h with ⟨hnone, hnone'⟩ | ⟨f, g, hf, hg, hstorage⟩
  · simp [test?, hnone, hnone']
  · have hname : f.name = g.name :=
      (Schema.name_of_resolve hf).trans (Schema.name_of_resolve hg).symm
    simp only [test?, hf, hg, Option.map_some, Test.text, hname, Field.held_congr hstorage]

theorem truth?_congr
    {r : Record R} {r' : Record R'} (h : S.Alike S' c.field)
    (hyield : Record.YieldAlike S S' r r' c.field) : c.truth? S r = c.truth? S' r' := by
  rcases h with ⟨hnone, hnone'⟩ | ⟨f, g, hf, hg, hstorage⟩
  · simp [truth?, hnone, hnone']
  · simp only [truth?, hf, hg, Option.map_some, Field.held_congr hstorage,
      Comparison.holds_congr c.comparison (hyield f g hf hg)]

end Criterion

namespace Predicate

open Combination Criterion

variable {S : Schema R} {S' : Schema R'} {cs : List Criterion}

theorem compile_eq_error_congr
    (h : ∀ c ∈ preorder cs, S.Alike S' c.field) (e : FilterError) :
    compile S cs = .error e ↔ compile S' cs = .error e := by
  have hsteps : steps S cs = steps S' cs :=
    schedule_congr cs .topLevel true fun c hc => resolves_congr (h c hc)
  have hfault : (steps S cs).findSome? (Event.fault? (misfit? S)) =
      (steps S' cs).findSome? (Event.fault? (misfit? S')) := by
    rw [hsteps]
    apply findSome?_fault_congr
    intro c hc
    rw [asked_steps] at hc
    exact misfit?_congr (h c hc)
  rw [compile_eq_error_iff, compile_eq_error_iff, hfault]

theorem text_congr
    (h : ∀ c ∈ preorder cs, S.Alike S' c.field) {p : Predicate R} {p' : Predicate R'}
    (hp : compile S cs = .ok p) (hp' : compile S' cs = .ok p') : p.text = p'.text := by
  have htexts : ∀ c ∈ preorder cs,
      (known S c).map (Expression.map Test.text) =
        (known S' c).map (Expression.map Test.text) := by
    intro c hc
    have htext := congrArg (Option.map Expression.leaf) (map_text_test?_congr (h c hc))
    simpa [known, Option.map_map, Function.comp_def, Expression.map] using htext
  have hassembles := ((assembles_of_compile hp).map (Expression.preserves_map Test.text)).congr
    htexts
  have hassembles' := (assembles_of_compile hp').map (Expression.preserves_map Test.text)
  have hexpression : p.expression.map Test.text = p'.expression.map Test.text :=
    hassembles.unique hassembles'
  calc
    p.text = (p.expression.map Test.text).render " && " " || " id :=
      (Expression.render_map Test.text _ _ id p.expression).symm
    _ = (p'.expression.map Test.text).render " && " " || " id := by rw [hexpression]
    _ = p'.text := Expression.render_map Test.text _ _ id p'.expression

theorem holds_congr
    (h : ∀ c ∈ preorder cs, S.Alike S' c.field) {p : Predicate R} {p' : Predicate R'}
    (hp : compile S cs = .ok p) (hp' : compile S' cs = .ok p')
    {r : Record R} {r' : Record R'}
    (hyield : ∀ c ∈ preorder cs, Record.YieldAlike S S' r r' c.field) :
    p.holds r = p'.holds r' := by
  obtain ⟨t, ht, hvalue⟩ := exists_tally_of_compile hp r
  obtain ⟨t', ht', hvalue'⟩ := exists_tally_of_compile hp' r'
  have hsame : Tally.after (truth? S r) none cs = Tally.after (truth? S' r') none cs :=
    Tally.after_congr cs none fun c hc => truth?_congr (h c hc) (hyield c hc)
  obtain rfl := Option.some.inj (ht.symm.trans (hsame.trans ht'))
  exact hvalue.symm.trans hvalue'

/-- Fields that a filter does not name cannot influence a match. -/
theorem holds_eq_of_read_eq
    {p : Predicate R} (hp : compile S cs = .ok p) {r r' : Record R}
    (hread : ∀ c ∈ preorder cs, ∀ f, S.resolve c.field = some f → f.read r = f.read r') :
    p.holds r = p.holds r' := by
  refine holds_congr (fun c _ => Schema.Alike.refl S c.field) hp hp ?_
  intro c hc f g hf hg
  obtain rfl := Option.some.inj (hf.symm.trans hg)
  rw [hread c hc f hf]
  exact .refl _

/-- A filter on two record types that treat the names in it alike compiles on both, to
predicates of one text that match records alike if these yield the same values for the
names; or it fails on both with one error. -/
theorem compile_depends_on_named_fields
    (h : ∀ c ∈ preorder cs, S.Alike S' c.field) :
    (∃ p p', compile S cs = .ok p ∧ compile S' cs = .ok p' ∧ p.text = p'.text ∧
        ∀ r r', (∀ c ∈ preorder cs, Record.YieldAlike S S' r r' c.field) →
          p.holds r = p'.holds r') ∨
      ∃ e, compile S cs = .error e ∧ compile S' cs = .error e := by
  cases hp : compile S cs with
  | error e => exact .inr ⟨e, rfl, (compile_eq_error_congr h e).mp hp⟩
  | ok p =>
      cases hp' : compile S' cs with
      | error e =>
          rw [(compile_eq_error_congr h e).mpr hp'] at hp
          cases hp
      | ok p' =>
          exact .inl ⟨p, p', rfl, rfl, text_congr h hp hp', fun r r' => holds_congr h hp hp'⟩

/-- Letters have a note, a mark for urgent ones, and a number that fits in a byte. -/
def letters : RecordType where
  name := "Letter"
  slots := [.text, .bool, .int .u8]

/-- The fields of letters. -/
def letterSchema : Schema letters :=
  .ofNames letters ["note", "urgent", "number"]

theorem compile_depends_on_named_fields_letters :
    (∀ c ∈ preorder parcelFilter, parcelSchema.Alike letterSchema c.field) ∧
      ∃ p p' r r', compile parcelSchema parcelFilter = .ok p ∧
        compile letterSchema parcelFilter = .ok p' ∧ p.text = p'.text ∧
        (∀ c ∈ preorder parcelFilter,
          Record.YieldAlike parcelSchema letterSchema r r' c.field) ∧
        p.holds r = true ∧ p'.holds r' = true := by
  have halike : ∀ c ∈ preorder parcelFilter, parcelSchema.Alike letterSchema c.field := by
    have hnumber : parcelSchema.Alike letterSchema "number" := .inr ⟨_, _, rfl, rfl, rfl⟩
    have hnote : parcelSchema.Alike letterSchema "note" := .inr ⟨_, _, rfl, rfl, rfl⟩
    have hcolour : parcelSchema.Alike letterSchema "colour" := .inl ⟨rfl, rfl⟩
    simp [parcelFilter, hnumber, hnote, hcolour]
  -- Both records have number 7, and the letter is urgent besides.
  let seven : Integer .u8 := ⟨7, by decide, by decide⟩
  let r : Record parcels := (Record.initial parcels).set (0 : Fin 2) seven
  let r' : Record letters := ((Record.initial letters).set (2 : Fin 3) seven).set (1 : Fin 3) true
  have hyield : ∀ c ∈ preorder parcelFilter,
      Record.YieldAlike parcelSchema letterSchema r r' c.field := by
    have hnumber : Record.YieldAlike parcelSchema letterSchema r r' "number" := by
      rintro _ _ ⟨⟩ ⟨⟩
      exact .inl rfl
    have hnote : Record.YieldAlike parcelSchema letterSchema r r' "note" := by
      rintro _ _ ⟨⟩ ⟨⟩
      exact .inl rfl
    have hcolour : Record.YieldAlike parcelSchema letterSchema r r' "colour" := by
      rintro _ _ ⟨⟩
    simp [parcelFilter, hnumber, hnote, hcolour]
  obtain ⟨p, hp, hmatches⟩ : ∃ p, compile parcelSchema parcelFilter = .ok p ∧
      p.holds r = true := ⟨_, rfl, rfl⟩
  rcases compile_depends_on_named_fields halike with
    ⟨q, q', hq, hq', htext, hholds⟩ | ⟨e, he, -⟩
  · obtain rfl := Except.ok.inj (hp.symm.trans hq)
    have hmatches' := (hholds r r' hyield).symm.trans hmatches
    exact ⟨halike, p, q', r, r', hp, hq', htext, hyield, hmatches, hmatches'⟩
  · rw [hp] at he
    cases he

end Predicate

end Criteria
