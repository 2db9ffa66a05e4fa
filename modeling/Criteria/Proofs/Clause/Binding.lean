import Criteria.Clause
import Criteria.Proofs.Accessor
import Criteria.Proofs.Walk

/-!
# Binding the values of criteria

A criterion of a query clause is refused if the schema lacks its field, if an earlier
criterion names the same field, or if it does not fit.  Otherwise its field is added to the
placeholders and its constant is written, which cannot fail any more.  This module states
both outcomes and what a whole sequence of bindings leaves behind.
-/

namespace Criteria

variable {R : RecordType}

/-- The fault of a criterion of a query clause, given the fields named before it. -/
def Criterion.refusal? (S : Schema R) (earlier : List String) (c : Criterion) :
    Option FilterError :=
  if c.resolves S = false then some (.unresolvedField c.field R.name)
  else if c.field ∈ earlier then some (.duplicatePlaceholder c.field)
  else c.misfit? S

theorem Criterion.refusal?_eq_none_iff
    {S : Schema R} {earlier : List String} {c : Criterion} :
    c.refusal? S earlier = none ↔ c.resolves S = true ∧ c.field ∉ earlier ∧ c.Fits S := by
  rw [refusal?, ← misfit?_eq_none_iff]
  by_cases hresolves : c.resolves S = true
  · by_cases hearlier : c.field ∈ earlier <;> simp [hresolves, hearlier]
  · simp [hresolves]

namespace Bindings

/-- What is left behind after the values of criteria have been bound one after another:
their fields are the new placeholders, each of them yields the constant of its criterion,
and the other fields yield what they yielded before. -/
structure Filled (S : Schema R) (before after : Bindings R) (cs : List Criterion) : Prop where
  parameters : after.parameters = before.parameters ++ cs.map Criterion.field
  bound : S.Separate → (cs.map Criterion.field).Nodup →
    ∀ c ∈ cs, ∀ f, S.resolve c.field = some f → f.read after.values = f.held c.value
  others : S.Separate → ∀ f ∈ S.fields, f.name ∉ cs.map Criterion.field →
    f.read after.values = f.read before.values

theorem Filled.nil (S : Schema R) (b : Bindings R) : Filled S b b [] where
  parameters := by simp
  bound := by simp
  others := by simp

theorem bind_eq_error
    {S : Schema R} {c : Criterion} {b : Bindings R} {e : FilterError}
    (h : c.refusal? S b.parameters = some e) :
    bind S c b = .error e := by
  rw [Criterion.refusal?, Criterion.resolves] at h
  rw [bind]
  cases hf : S.resolve c.field with
  | none =>
      obtain rfl : FilterError.unresolvedField c.field R.name = e := by simpa [hf] using h
      rfl
  | some f =>
      simp only [hf, Option.isSome_some, Bool.true_eq_false, if_false] at h
      simp only [Schema.name_of_resolve hf]
      by_cases hearlier : c.field ∈ b.parameters
      · obtain rfl : FilterError.duplicatePlaceholder c.field = e := by
          simpa [hearlier] using h
        simp [hearlier]
      · rw [if_neg hearlier] at h
        simp only [if_neg hearlier, Criterion.constant_eq hf, h]
        rfl

theorem bind_eq_ok
    {S : Schema R} {c : Criterion} {b : Bindings R}
    (h : c.refusal? S b.parameters = none) :
    ∃ b', bind S c b = .ok (⟨c.field, c.comparison⟩, b') ∧ Filled S b b' [c] := by
  obtain ⟨hresolves, hearlier, hfits⟩ := Criterion.refusal?_eq_none_iff.mp h
  obtain ⟨f, hf⟩ := Option.isSome_iff_exists.mp hresolves
  obtain ⟨-, constant, hconstant⟩ := hfits f hf
  obtain ⟨x, hwrite, hread⟩ := Field.write_convert hconstant b.values
  have hname := Schema.name_of_resolve hf
  have hmisfit : c.misfit? S = none := Criterion.misfit?_eq_none_iff.mpr hfits
  refine ⟨⟨b.parameters ++ [c.field], b.values.set f.slot x⟩, ?_, ?_⟩
  · simp only [bind, hf, hname, if_neg hearlier, Criterion.constant_eq hf, hmisfit,
      Field.held_of_convert hconstant]
    change ((f.write b.values constant).mapError _).bind _ = _
    rw [hwrite]
    rfl
  · constructor
    · rfl
    · intro _ _ d hd g hg
      obtain rfl := List.mem_singleton.mp hd
      obtain rfl := Option.some.inj (hf.symm.trans hg)
      rw [Field.held_of_convert hconstant]
      exact hread
    · intro hseparate g hg hne
      refine Field.read_set_other ?_ b.values x
      refine hseparate g hg f (Schema.mem_of_resolve hf) ?_
      intro hsame
      exact hne (by simp [hsame, hname])

theorem Filled.cons
    {S : Schema R} {b b₁ b₂ : Bindings R} {c : Criterion} {cs : List Criterion}
    (h : Filled S b b₁ [c]) (hrest : Filled S b₁ b₂ cs) :
    Filled S b b₂ (c :: cs) := by
  constructor
  · rw [hrest.parameters, h.parameters]
    simp
  · intro hseparate hnodup d hd f hf
    obtain ⟨hfresh, hnodup⟩ := List.nodup_cons.mp hnodup
    rcases List.mem_cons.mp hd with rfl | hd
    · have hname : f.name ∉ cs.map Criterion.field := by
        rw [Schema.name_of_resolve hf]
        exact hfresh
      rw [hrest.others hseparate f (Schema.mem_of_resolve hf) hname]
      exact h.bound hseparate (by simp) d (by simp) f hf
    · exact hrest.bound hseparate hnodup d hd f hf
  · intro hseparate f hf hname
    obtain ⟨hown, hname⟩ : f.name ≠ c.field ∧ f.name ∉ cs.map Criterion.field := by
      simpa using hname
    rw [hrest.others hseparate f hf hname]
    exact h.others hseparate f hf (by simpa using hown)

end Bindings

namespace QueryClause

theorem element_apply_of_not_refused
    {S : Schema R} {c : Criterion} {b : Bindings R}
    (h : c.refusal? S b.parameters = none) :
    ∃ b', element S c b = .ok (some (.leaf ⟨c.field, c.comparison⟩)) b' ∧
      Bindings.Filled S b b' [c] := by
  obtain ⟨b', hbind, hfilled⟩ := Bindings.bind_eq_ok h
  refine ⟨b', ?_, hfilled⟩
  change (Walk.ofExcept (Bindings.bind S c b) >>= _ : Walk (Bindings R) _) b = _
  rw [hbind]
  rfl

theorem element_apply_of_refused
    {S : Schema R} {c : Criterion} {b : Bindings R} {e : FilterError}
    (h : c.refusal? S b.parameters = some e) :
    element S c b = .error e b := by
  change (Walk.ofExcept (Bindings.bind S c b) >>= _ : Walk (Bindings R) _) b = _
  rw [Bindings.bind_eq_error h]
  rfl

end QueryClause

end Criteria
