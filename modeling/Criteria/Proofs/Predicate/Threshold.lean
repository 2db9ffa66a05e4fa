import Criteria.Proofs.Clause.Fulfilment
import Criteria.Proofs.Narrowing
import Criteria.Proofs.Number.Monotone
import Criteria.Proofs.Predicate.Single
import Mathlib.Order.Compare

/-!
# Thresholds

A number that a field is compared with is rounded on its way into the field, perhaps twice.
Each of these roundings keeps the order of numbers, so a greater threshold lets at least the
same records through from below, and at most the same ones from above.
-/

namespace Criteria

/-- Different counts of units within the range are different numbers, in the same order. -/
theorem Format.strictMonoOn_reach (F : Format) :
    StrictMonoOn F.reach (Set.Icc (-(2 ^ F.range : Nat)) (2 ^ F.range : Nat)) := by
  intro m hm n hn hlt
  obtain ⟨hm, -⟩ := hm
  obtain ⟨-, hn⟩ := hn
  have hscale : (0 : ℚ) < (2 ^ F.scale : Nat) := by exact_mod_cast Nat.two_pow_pos F.scale
  simp only [reach]
  rw [if_neg (show ¬ n ≤ -(2 ^ F.range : Nat) by omega),
    if_neg (show ¬ ((2 ^ F.range : Nat) : Int) ≤ m by omega)]
  split
  · split
    · exact bot_lt_top
    · exact WithBot.bot_lt_coe _
  · split
    · exact WithBot.coe_lt_coe.mpr (WithTop.coe_lt_top _)
    · have hcast : (m : ℚ) < n := by exact_mod_cast hlt
      exact WithBotTop.coe_lt_coe.mpr (div_lt_div_of_pos_right hcast hscale)

namespace Binary

variable {F : Format}

/-- The place of a number among the ratios is that of its rank. -/
theorem number?_eq_map_rank (x : Binary F) : x.number? = x.rank?.map F.reach := by
  have hpositive := Nat.two_pow_pos F.range
  cases x with
  | nan => rfl
  | infinity negative =>
      cases negative with
      | true =>
          rw [rank?, Option.map_some, signed_true, Format.reach, if_pos le_rfl]
          rfl
      | false =>
          rw [rank?, Option.map_some, signed_false, Format.reach, if_neg (by omega),
            if_pos le_rfl]
          rfl
  | finite negative units hunits =>
      obtain ⟨hbelow, habove⟩ := signed_lt_of_lt negative hunits.2
      rw [signed_true] at hbelow
      rw [signed_false] at habove
      rw [rank?, Option.map_some, Format.reach, if_neg (not_le.mpr hbelow),
        if_neg (not_le.mpr habove)]
      rfl

/-- No rank lies beyond the infinities. -/
theorem rank?_mem {x : Binary F} {m : Int} (h : x.rank? = some m) :
    m ∈ Set.Icc (-(2 ^ F.range : Nat) : Int) (2 ^ F.range : Nat) := by
  have hpositive := Nat.two_pow_pos F.range
  cases x with
  | nan => cases h
  | infinity negative =>
      obtain rfl := Option.some.inj h
      cases negative with
      | true => exact ⟨le_rfl, by rw [signed_true]; omega⟩
      | false => exact ⟨by rw [signed_false]; omega, le_rfl⟩
  | finite negative units hunits =>
      obtain rfl := Option.some.inj h
      obtain ⟨hbelow, habove⟩ := signed_lt_of_lt negative hunits.2
      exact ⟨hbelow.le, habove.le⟩

/-- Numbers are ordered as their places among the ratios are. -/
theorem compare?_eq_cmp {a b : Extended} {x y : Binary F}
    (hx : x.number? = some a) (hy : y.number? = some b) : x.compare? y = some (cmp a b) := by
  rw [number?_eq_map_rank] at hx hy
  obtain ⟨m, hm, rfl⟩ := Option.map_eq_some_iff.mp hx
  obtain ⟨n, hn, rfl⟩ := Option.map_eq_some_iff.mp hy
  rw [compare?_eq_compare_rank, hm, hn,
    F.strictMonoOn_reach.cmp_map_eq (rank?_mem hm) (rank?_mem hn), cmp_eq_compare]
  rfl

end Binary

namespace Value

/-- The place of an integer or a float among the ratios.  A NaN has none. -/
def number? : Value → Option Extended
  | .int i => some ((i.val : ℚ) : Extended)
  | .float x => x.number?
  | _ => none

/-- The number does not lie above the other one. -/
def AtMost (v w : Value) : Prop :=
  ∃ a b, v.number? = some a ∧ w.number? = some b ∧ a ≤ b

theorem compare?_eq_cmp {a b : Extended} {v w : Value} (hkind : v.kind = w.kind)
    (hv : v.number? = some a) (hw : w.number? = some b) : v.compare? w = some (cmp a b) := by
  cases v with
  | int i =>
      cases w with
      | int j =>
          obtain rfl := Option.some.inj hv
          obtain rfl := Option.some.inj hw
          have hcmp : cmp ((i.val : ℚ) : Extended) ((j.val : ℚ) : Extended) = cmp i.val j.val := by
            refine StrictMono.cmp_map_eq (f := fun n : Int => ((n : ℚ) : Extended)) ?_ _ _
            intro m n hlt
            exact WithBotTop.coe_lt_coe.mpr (Int.cast_lt.mpr hlt)
          rw [hcmp, cmp_eq_compare]
          rfl
      | _ => cases hkind
  | float x =>
      cases w with
      | float y => exact Binary.compare?_eq_cmp hv hw
      | _ => cases hkind
  | bool b => cases hv
  | text s => cases hv

/-- A value of the kind of a number that has no place among the ratios is a NaN. -/
theorem eq_nan_of_number?_eq_none {b : Extended} {v w : Value} (hkind : v.kind = w.kind)
    (hv : v.number? = none) (hw : w.number? = some b) : v = .float .nan := by
  cases v with
  | int i => cases hv
  | float x =>
      rw [number?, Binary.number?_eq_map_rank, Option.map_eq_none_iff,
        Binary.rank?_eq_none_iff] at hv
      rw [hv]
  | bool x =>
      cases w with
      | bool y => cases hw
      | _ => cases hkind
  | text s =>
      cases w with
      | text t => cases hw
      | _ => cases hkind

/-- A number converts to the double that it is rounded to. -/
theorem rounds_of_toDouble {a : Extended} {v : Value} {x : Double} (hv : v.number? = some a)
    (hx : v.toDouble = .ok x) : Binary.Rounds a x := by
  cases v with
  | int i =>
      obtain rfl := Option.some.inj hv
      obtain rfl := Except.ok.inj hx
      exact Binary.rounds_ofInt i.val
  | float y =>
      obtain rfl := Except.ok.inj hx
      exact Binary.rounds_number? hv
  | bool b => cases hv
  | text s => cases hv

/-- A number that converts to an integer is finite, and the integer is the nearest one. -/
theorem isNearestInt_of_toInt {a : Extended} {v : Value} {i : Integer .i64}
    (hv : v.number? = some a) (hi : v.toInt = .ok i) :
    ∃ q : ℚ, a = (q : Extended) ∧ IsNearestInt q i.val := by
  cases v with
  | int j =>
      obtain rfl := Option.some.inj hv
      obtain rfl := Except.ok.inj hi
      exact ⟨j.val, rfl, isNearestInt_cast j.val⟩
  | float x =>
      obtain ⟨q, hq, hnearest⟩ := Binary.toInt?_eq_some_iff.mp (toInt_float_eq_ok_iff.mp hi)
      refine ⟨q, ?_, hnearest⟩
      cases x with
      | nan => cases hq
      | infinity negative => cases hq
      | finite negative units hunits =>
          obtain rfl := Option.some.inj hq
          exact (Option.some.inj hv).symm
  | bool b => cases hv
  | text s => cases hv

end Value

/-- What a numeric field holds of a number does not lie above what it holds of a greater one. -/
theorem StorageType.toValue_atMost
    {s : StorageType} (hs : (∃ t, s = .int t) ∨ s = .single ∨ s = .double) {v w : Value}
    (hle : v.AtMost w) {x y : s.Carrier} (hx : s.ofValue v = .ok x) (hy : s.ofValue w = .ok y) :
    (s.toValue x).AtMost (s.toValue y) := by
  obtain ⟨a, b, ha, hb, hab⟩ := hle
  cases s with
  | int t =>
      obtain ⟨i, hi, hxval⟩ := ofValue_int_eq_ok_iff.mp hx
      obtain ⟨j, hj, hyval⟩ := ofValue_int_eq_ok_iff.mp hy
      obtain ⟨p, rfl, hp⟩ := Value.isNearestInt_of_toInt ha hi
      obtain ⟨q, rfl, hq⟩ := Value.isNearestInt_of_toInt hb hj
      rw [WithBotTop.coe_le_coe] at hab
      have hij : i.val ≤ j.val := hp.mono hq hab
      refine ⟨_, _, rfl, rfl, ?_⟩
      rw [WithBotTop.coe_le_coe, Int.cast_le]
      change x.val ≤ y.val
      omega
  | single =>
      obtain ⟨x', hx', rfl⟩ := ofValue_single_eq_ok_iff.mp hx
      obtain ⟨y', hy', rfl⟩ := ofValue_single_eq_ok_iff.mp hy
      -- An integer is rounded to a double first, and the field is read as a double again.
      have hdouble : x'.AtMost y' :=
        (Value.rounds_of_toDouble ha hx').mono (by decide) (Value.rounds_of_toDouble hb hy') hab
      have hsingle : (Binary.reformat x' : Single).AtMost (Binary.reformat y') :=
        hdouble.reformat (by decide)
      exact hsingle.reformat (by decide)
  | double =>
      have hx' := ofValue_double_eq_ok_iff.mp hx
      have hy' := ofValue_double_eq_ok_iff.mp hy
      exact (Value.rounds_of_toDouble ha hx').mono (by decide) (Value.rounds_of_toDouble hb hy') hab
  | bool => simp at hs
  | text => simp at hs

namespace Comparison

/-- A value stands in a comparison to a number if the two places among the ratios do; a NaN only
differs. -/
theorem holds_iff_of_number?
    {comparison : Comparison} (hcontains : comparison ≠ .contains)
    (hdiffers : comparison ≠ .notEqual) {v w : Value} {b : Extended} (hkind : v.kind = w.kind)
    (hw : w.number? = some b) :
    comparison.holds v w = true ↔
      ∃ a, v.number? = some a ∧ comparison.admits (cmp a b) = true := by
  cases hv : v.number? with
  | some a =>
      rw [holds_of_compare? hcontains (Value.compare?_eq_cmp hkind hv hw)]
      constructor
      · exact fun hadmits => ⟨a, rfl, hadmits⟩
      · rintro ⟨a', ha, hadmits⟩
        rwa [Option.some.inj ha]
  | none =>
      have hnone : v.compare? w = none := by
        rw [Value.compare?_eq_none_iff]
        exact .inr (.inl (Value.eq_nan_of_number?_eq_none hkind hv hw))
      rw [holds_of_compare?_eq_none hcontains hnone]
      constructor
      · intro h
        exact absurd h hdiffers
      · rintro ⟨a, ha, -⟩
        cases ha

/-- Whoever passes one threshold passes another one, if every place among the ratios does. -/
theorem holds_of_admits
    {comparison : Comparison} (hcontains : comparison ≠ .contains)
    (hdiffers : comparison ≠ .notEqual) {v c d : Value} {p q : Extended} (hc : v.kind = c.kind)
    (hd : v.kind = d.kind) (hp : c.number? = some p) (hq : d.number? = some q)
    (hpass : ∀ a, comparison.admits (cmp a p) = true → comparison.admits (cmp a q) = true)
    (h : comparison.holds v c = true) : comparison.holds v d = true := by
  obtain ⟨a, ha, hadmits⟩ := (holds_iff_of_number? hcontains hdiffers hc hp).mp h
  exact (holds_iff_of_number? hcontains hdiffers hd hq).mpr ⟨a, ha, hpass a hadmits⟩

theorem admits_lessThan_iff {a b : Extended} :
    lessThan.admits (cmp a b) = true ↔ a < b := by
  rw [admits, beq_iff_eq, cmp_eq_lt_iff]

theorem admits_lessThanOrEqual_iff {a b : Extended} :
    lessThanOrEqual.admits (cmp a b) = true ↔ a ≤ b := by
  rw [admits, Bool.or_eq_true, beq_iff_eq, beq_iff_eq, cmp_eq_lt_iff, cmp_eq_eq_iff,
    le_iff_lt_or_eq]

theorem admits_greaterThan_iff {a b : Extended} :
    greaterThan.admits (cmp a b) = true ↔ b < a := by
  rw [admits, beq_iff_eq, cmp_eq_gt_iff]

theorem admits_greaterThanOrEqual_iff {a b : Extended} :
    greaterThanOrEqual.admits (cmp a b) = true ↔ b ≤ a := by
  rw [admits, Bool.or_eq_true, beq_iff_eq, beq_iff_eq, cmp_eq_gt_iff, cmp_eq_eq_iff,
    le_iff_lt_or_eq, eq_comm]

/-- A greater threshold is passed from below by at least the same values, and from above by at
most the same. -/
theorem holds_of_atMost {v c d : Value} (hc : v.kind = c.kind) (hd : v.kind = d.kind)
    (hle : c.AtMost d) :
    (lessThan.holds v c = true → lessThan.holds v d = true) ∧
      (lessThanOrEqual.holds v c = true → lessThanOrEqual.holds v d = true) ∧
      (greaterThan.holds v d = true → greaterThan.holds v c = true) ∧
      (greaterThanOrEqual.holds v d = true → greaterThanOrEqual.holds v c = true) := by
  obtain ⟨p, q, hp, hq, hpq⟩ := hle
  refine ⟨?_, ?_, ?_, ?_⟩
  · refine holds_of_admits (by decide) (by decide) hc hd hp hq fun a hpass => ?_
    rw [admits_lessThan_iff] at hpass ⊢
    exact hpass.trans_le hpq
  · refine holds_of_admits (by decide) (by decide) hc hd hp hq fun a hpass => ?_
    rw [admits_lessThanOrEqual_iff] at hpass ⊢
    exact hpass.trans hpq
  · refine holds_of_admits (by decide) (by decide) hd hc hq hp fun a hpass => ?_
    rw [admits_greaterThan_iff] at hpass ⊢
    exact hpq.trans_lt hpass
  · refine holds_of_admits (by decide) (by decide) hd hc hq hp fun a hpass => ?_
    rw [admits_greaterThanOrEqual_iff] at hpass ⊢
    exact hpq.trans hpass

end Comparison

namespace Predicate

open QueryClause (samples sampleSchema)

/-- Thresholds for a numeric field are monotone.  Of two numbers, integers or floats that are no
NaN, which both convert, the greater one admits from below every record that the smaller one
admits, and the smaller one admits from above every record that the greater one admits.  The
numbers are compared as what they are, before they are rounded to what the field can hold. -/
theorem thresholds_are_monotone
    {R : RecordType} {S : Schema R} {name : String} {f : Field R} {v w c d : Value}
    {a b : Extended} (hf : S.resolve name = some f)
    (hnumeric : (∃ t, f.storage = .int t) ∨ f.storage = .single ∨ f.storage = .double)
    (hv : v.number? = some a) (hw : w.number? = some b) (hle : a ≤ b)
    (hc : f.convert v = .ok c) (hd : f.convert w = .ok d) :
    ∃ p q : Comparison → Predicate R,
      (∀ comparison, comparison ≠ .contains →
        compile S (Filter.single name comparison v).criteria = .ok (p comparison) ∧
          compile S (Filter.single name comparison w).criteria = .ok (q comparison)) ∧
      ∀ r : Record R,
        ((p .lessThan).holds r = true → (q .lessThan).holds r = true) ∧
        ((p .lessThanOrEqual).holds r = true → (q .lessThanOrEqual).holds r = true) ∧
        ((q .greaterThan).holds r = true → (p .greaterThan).holds r = true) ∧
        ((q .greaterThanOrEqual).holds r = true → (p .greaterThanOrEqual).holds r = true) := by
  refine ⟨fun comparison => ofTest ⟨f, comparison, c⟩, fun comparison => ofTest ⟨f, comparison, d⟩,
    ?_, ?_⟩
  · intro comparison hcontains
    exact ⟨compile_single hf hc fun h => absurd h hcontains,
      compile_single hf hd fun h => absurd h hcontains⟩
  · intro r
    have hkind : ∀ {u constant : Value}, f.convert u = .ok constant →
        (f.read r).kind = constant.kind := fun hu =>
      (f.storage.kind_toValue _).trans (Field.kind_of_convert hu).symm
    obtain ⟨x, hx, hxval⟩ := Field.convert_eq_ok.mp hc
    obtain ⟨y, hy, hyval⟩ := Field.convert_eq_ok.mp hd
    have hconstants : c.AtMost d := by
      rw [← hxval, ← hyval]
      exact StorageType.toValue_atMost hnumeric ⟨a, b, hv, hw, hle⟩ hx hy
    exact Comparison.holds_of_atMost (hkind hc) (hkind hd) hconstants

/-- The double 16777217.5. -/
def beyondSingles : Double :=
  .finite false (33554435 * 2 ^ 1073) (by decide +kernel)

/-- The integer 16777217 lies below the double 16777217.5.  The first is a tie of two singles and
is rounded down, the second one is rounded up. -/
theorem thresholds_are_monotone_samples :
    ∃ p q : Comparison → Predicate samples,
      (∀ comparison, comparison ≠ .contains →
        compile sampleSchema
          (Filter.single "weight" comparison (.int ⟨16777217, by decide, by decide⟩)).criteria =
            .ok (p comparison) ∧
        compile sampleSchema
          (Filter.single "weight" comparison (.float beyondSingles)).criteria =
            .ok (q comparison)) ∧
      ∀ r : Record samples,
        ((p .lessThan).holds r = true → (q .lessThan).holds r = true) ∧
        ((p .lessThanOrEqual).holds r = true → (q .lessThanOrEqual).holds r = true) ∧
        ((q .greaterThan).holds r = true → (p .greaterThan).holds r = true) ∧
        ((q .greaterThanOrEqual).holds r = true → (p .greaterThanOrEqual).holds r = true) := by
  have hweight : sampleSchema.resolve "weight" = some ⟨"weight", (0 : Fin 3)⟩ := rfl
  have hle : ((16777217 : ℚ) : Extended) ≤
      (((33554435 * 2 ^ 1073 : Nat) : ℚ) / (2 ^ Format.double.scale : Nat) : ℚ) := by
    have hunits : 16777217 * 2 ^ Format.double.scale ≤ 33554435 * 2 ^ 1073 := by decide +kernel
    have hscale : 0 < 2 ^ Format.double.scale := Nat.two_pow_pos _
    generalize 33554435 * 2 ^ 1073 = units at hunits ⊢
    generalize 2 ^ Format.double.scale = scale at hunits hscale ⊢
    rw [WithBotTop.coe_le_coe, le_div_iff₀ (by exact_mod_cast hscale)]
    exact_mod_cast hunits
  exact thresholds_are_monotone hweight (.inr (.inl rfl)) rfl rfl hle rfl rfl

end Predicate

end Criteria
