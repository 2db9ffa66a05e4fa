import Criteria.Filter.Builder
import Criteria.Proofs.Accessor
import Criteria.Proofs.Ordering
import Criteria.Proofs.Predicate.Compilation

/-!
# Predicates of a single criterion

The predicate of a single criterion compares the field with the constant that the value
becomes.  The constant is of the kind of the field, so the two are ordered unless one of them
is a NaN, and the comparisons relate to each other as those of a linear order do.  A NaN on
either side only differs.
-/

namespace Criteria

variable {R : RecordType}

theorem Value.exists_text_of_kind {v : Value} (h : v.kind = .text) : ∃ s, v = .text s := by
  cases v with
  | text s => exact ⟨s, rfl⟩
  | _ => cases h

namespace Predicate

open Combination Criterion

/-- The predicate that compares a field with a constant. -/
def ofTest (t : Test R) : Predicate R :=
  ⟨.leaf t⟩

/-- A single criterion compiles to the comparison with the constant that its value becomes. -/
theorem compile_single
    {S : Schema R} {name : String} {f : Field R} {comparison : Comparison} {v constant : Value}
    (hf : S.resolve name = some f) (hconstant : f.convert v = .ok constant)
    (htext : comparison = .contains → f.kind = .text) :
    compile S (Filter.single name comparison v).criteria =
      .ok (ofTest ⟨f, comparison, constant⟩) := by
  let c : Criterion := .single .and name comparison v
  let t : Test R := ⟨f, comparison, constant⟩
  have hknown : known S c = some (.leaf t) := by
    simp [c, t, known, test?, Criterion.single, hf, Field.held_of_convert hconstant]
  have hfits : c.Fits S := by
    intro g hg
    obtain rfl := Option.some.inj (hf.symm.trans hg)
    exact ⟨htext, constant, hconstant⟩
  have hopens : Opens (resolves S) [c] :=
    opens_cons_iff.mpr ⟨rfl, .inl (by rw [← isSome_known, hknown]; rfl)⟩
  obtain ⟨⟨e⟩, hp⟩ : ∃ p, compile S [c] = .ok p := by
    refine exists_compile_iff.mpr ⟨?_, forall_groups_iff.mpr ⟨hopens, ?_⟩⟩
    · simpa [c, Criterion.single] using hfits
    · simp [c, Criterion.single]
  have hqueue : enqueue? c.combinator (known S c) [] = some [.leaf t] := by
    rw [hknown]
    rfl
  have hexpression : e = .leaf t :=
    (assembles_of_compile hp).unique (.leaf rfl hqueue (.nil rfl))
  rw [hexpression] at hp
  exact hp

/-- The comparisons of values are consistent, and so are the predicates of a single criterion
with a value that its field converts.  The order of two values agrees with their equality,
reverses if they are exchanged and is transitive; only values of different kinds and a NaN
have no order.  Unless the field or the constant is a NaN, exactly one of less, equal and
greater matches, and the other comparisons are made of these; a NaN only differs.  A search
for a part finds the texts in which the part stands between two others. -/
theorem comparisons_are_consistent :
    (∀ a b c : Value,
      (a.compare? b = some .eq ↔ a.equals b = true) ∧
      b.compare? a = (a.compare? b).map Ordering.swap ∧
      (a.compare? b = some .lt → b.compare? c = some .lt → a.compare? c = some .lt) ∧
      (a.compare? b = none ↔ a.kind ≠ b.kind ∨ a = .float .nan ∨ b = .float .nan)) ∧
    ∀ {R : RecordType} (S : Schema R) (name : String) (f : Field R) (v constant : Value),
      S.resolve name = some f → f.convert v = .ok constant →
      ∃ p : Comparison → Predicate R,
        (∀ comparison, (comparison = .contains → f.kind = .text) →
          compile S (Filter.single name comparison v).criteria = .ok (p comparison)) ∧
        ∀ r : Record R,
          (f.read r ≠ .float .nan → constant ≠ .float .nan →
            ∃! comparison, comparison ∈ [.lessThan, .equal, .greaterThan] ∧
              (p comparison).holds r = true) ∧
          ((p .lessThanOrEqual).holds r = true ↔
            (p .lessThan).holds r = true ∨ (p .equal).holds r = true) ∧
          ((p .greaterThanOrEqual).holds r = true ↔
            (p .greaterThan).holds r = true ∨ (p .equal).holds r = true) ∧
          ((p .notEqual).holds r = true ↔ ¬ (p .equal).holds r = true) ∧
          (f.read r = .float .nan ∨ constant = .float .nan →
            ∀ comparison, comparison ≠ .contains →
              ((p comparison).holds r = true ↔ comparison = .notEqual)) ∧
          (f.kind = .text → ∃ text part, f.read r = .text text ∧ constant = .text part ∧
            ((p .contains).holds r = true ↔
              ∃ before after, text = before ++ part ++ after)) := by
  refine ⟨?_, ?_⟩
  · intro a b c
    exact ⟨Value.consistent.eq_iff a b, Value.consistent.swap a b, Value.consistent.lt_trans,
      Value.compare?_eq_none_iff⟩
  · intro R S name f v constant hf hconstant
    refine ⟨fun comparison => ofTest ⟨f, comparison, constant⟩, ?_, ?_⟩
    · intro comparison htext
      exact compile_single hf hconstant htext
    · intro r
      have hkind : (f.read r).kind = constant.kind :=
        (f.storage.kind_toValue _).trans (Field.kind_of_convert hconstant).symm
      refine ⟨Comparison.existsUnique_holds hkind, Comparison.holds_lessThanOrEqual_iff _ _,
        Comparison.holds_greaterThanOrEqual_iff _ _, Comparison.holds_notEqual_iff _ _, ?_, ?_⟩
      · intro hnan comparison hcontains
        refine Comparison.holds_of_compare?_eq_none hcontains ?_
        exact Value.compare?_eq_none_iff.mpr (.inr hnan)
      · intro htext
        obtain ⟨part, rfl⟩ :=
          Value.exists_text_of_kind ((Field.kind_of_convert hconstant).trans htext)
        obtain ⟨text, hread⟩ := Value.exists_text_of_kind (hkind.trans rfl)
        refine ⟨text, part, hread, rfl, ?_⟩
        rw [← Comparison.holds_contains_iff, ← hread]
        rfl

/-- The number of a parcel is compared with a constant that is read from a text, and its note is
searched. -/
theorem comparisons_are_consistent_parcels :
    ∃ p q : Comparison → Predicate parcels,
      (∀ comparison, comparison ≠ .contains →
        compile parcelSchema (Filter.single "number" comparison (.text " 3 ")).criteria =
          .ok (p comparison)) ∧
      (∀ comparison, compile parcelSchema (Filter.single "note" comparison (.text "glass")).criteria =
        .ok (q comparison)) ∧
      ∀ r : Record parcels,
        (∃! comparison, comparison ∈ [.lessThan, .equal, .greaterThan] ∧
          (p comparison).holds r = true) ∧
        ∃ text, ((q .contains).holds r = true ↔
          ∃ before after, text = before ++ "glass" ++ after) := by
  obtain ⟨-, hsingle⟩ := comparisons_are_consistent
  obtain ⟨p, hp, hnumber⟩ := hsingle parcelSchema "number" ⟨"number", (0 : Fin 2)⟩ (.text " 3 ")
    (.int ⟨3, by decide, by decide⟩) rfl rfl
  obtain ⟨q, hq, hnote⟩ := hsingle parcelSchema "note" ⟨"note", (1 : Fin 2)⟩ (.text "glass")
    (.text "glass") rfl rfl
  refine ⟨p, q, ?_, fun comparison => hq comparison fun _ => rfl, ?_⟩
  · intro comparison hcontains
    exact hp comparison fun h => absurd h hcontains
  · intro r
    obtain ⟨hunique, -⟩ := hnumber r
    obtain ⟨-, -, -, -, -, hcontains⟩ := hnote r
    obtain ⟨text, part, -, hpart, hfound⟩ := hcontains rfl
    obtain rfl := Value.text.inj hpart
    refine ⟨hunique ?_ ?_, text, hfound⟩
    · rintro ⟨⟩
    · rintro ⟨⟩

end Predicate

end Criteria
