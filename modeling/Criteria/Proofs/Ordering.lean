import Criteria.Condition
import Mathlib.Logic.ExistsUnique

/-!
# The order of values and their equality

Values are compared in two ways that are defined apart from each other: by an equality, and
by an order that only some pairs have.  This module shows that the two belong together.  Each
kind of values has a rank in a linear order, which a NaN alone lacks, and is ordered by it; so
the order is the reverse of the order of the exchanged values, it is transitive, and it finds
two values equal exactly if they are.  Values of different kinds are never ordered.
-/

namespace Criteria

/-- An order of some pairs agrees with an equality, reverses if the two are exchanged, and is
transitive. -/
structure Consistent
    {α : Type} (equals : α → α → Bool) (compare? : α → α → Option Ordering) : Prop where
  eq_iff : ∀ a b, compare? a b = some .eq ↔ equals a b = true
  swap : ∀ a b, compare? b a = (compare? a b).map Ordering.swap
  lt_trans : ∀ {a b c}, compare? a b = some .lt → compare? b c = some .lt → compare? a c = some .lt

/-- An order by ranks, which some elements may lack, is consistent with the equality that it
agrees with. -/
theorem Consistent.of_rank
    {α β : Type} [Ord β] [Std.TransOrd β]
    {equals : α → α → Bool} {compare? : α → α → Option Ordering} (rank? : α → Option β)
    (heq : ∀ a b, compare? a b = some .eq ↔ equals a b = true)
    (hrank : ∀ a b, compare? a b = (rank? a).bind fun x => (rank? b).map (compare x)) :
    Consistent equals compare? where
  eq_iff := heq
  swap a b := by
    rw [hrank, hrank]
    cases rank? a with
    | none => cases rank? b <;> rfl
    | some x =>
        cases rank? b with
        | none => rfl
        | some y => exact congrArg some Std.OrientedOrd.eq_swap
  lt_trans {a b c} hab hbc := by
    rw [hrank] at hab hbc ⊢
    obtain ⟨x, ha, hab⟩ := Option.bind_eq_some_iff.mp hab
    obtain ⟨y, hb, hxy⟩ := Option.map_eq_some_iff.mp hab
    obtain ⟨y', hb', hbc⟩ := Option.bind_eq_some_iff.mp hbc
    obtain ⟨z, hc, hyz⟩ := Option.map_eq_some_iff.mp hbc
    obtain rfl := Option.some.inj (hb.symm.trans hb')
    rw [ha, hc]
    exact congrArg some (Std.TransCmp.lt_trans hxy hyz)

/-- Where every element has a rank of its own, the order is consistent with identity. -/
theorem Consistent.of_key
    {α β : Type} [DecidableEq α] [Ord β] [Std.TransOrd β] [Std.LawfulEqOrd β]
    (key : α → β) (hkey : ∀ a b, key a = key b → a = b) :
    Consistent (fun a b : α => a == b) fun a b => some (compare (key a) (key b)) := by
  refine .of_rank (fun a => some (key a)) ?_ fun _ _ => rfl
  intro a b
  rw [Option.some.injEq, Std.compare_eq_iff_eq, beq_iff_eq]
  constructor
  · exact hkey a b
  · rintro rfl
    rfl

namespace Binary

variable {F : Format}

/-- The place of a number in the order: the signed count of units, which for an infinity is
one that no finite number reaches. -/
def rank? : Binary F → Option Int
  | .nan => none
  | .infinity negative => some (signed negative (2 ^ F.range))
  | .finite negative units _ => some (signed negative units)

theorem rank?_eq_none_iff {x : Binary F} : x.rank? = none ↔ x = .nan := by
  cases x <;> simp [rank?]

/-- Finite numbers lie strictly between the infinities. -/
theorem signed_lt_of_lt (negative : Bool) {units limit : Nat} (h : units < limit) :
    signed true limit < signed negative units ∧ signed negative units < signed false limit := by
  cases negative <;> simp [signed] <;> omega

theorem compare?_eq_compare_rank (x y : Binary F) :
    x.compare? y = x.rank?.bind fun a => y.rank?.map (compare a) := by
  have hinfinities : signed true (2 ^ F.range) < signed false (2 ^ F.range) := by
    obtain ⟨hbelow, habove⟩ := signed_lt_of_lt false (Nat.two_pow_pos F.range)
    exact Int.lt_trans hbelow habove
  cases x with
  | nan => cases y <;> rfl
  | infinity m =>
      cases y with
      | nan => rfl
      | infinity n =>
          cases m <;> cases n <;> apply congrArg some
          · exact Std.ReflCmp.compare_self.symm
          · exact (Int.compare_eq_gt.mpr hinfinities).symm
          · exact (Int.compare_eq_lt.mpr hinfinities).symm
          · exact Std.ReflCmp.compare_self.symm
      | finite n b hb =>
          obtain ⟨hbelow, habove⟩ := signed_lt_of_lt n hb.2
          cases m <;> apply congrArg some
          · exact (Int.compare_eq_gt.mpr habove).symm
          · exact (Int.compare_eq_lt.mpr hbelow).symm
  | finite m a ha =>
      cases y with
      | nan => rfl
      | infinity n =>
          obtain ⟨hbelow, habove⟩ := signed_lt_of_lt m ha.2
          cases n <;> apply congrArg some
          · exact (Int.compare_eq_lt.mpr habove).symm
          · exact (Int.compare_eq_gt.mpr hbelow).symm
      | finite n b hb => rfl

theorem compare?_eq_some_eq_iff (x y : Binary F) :
    x.compare? y = some .eq ↔ x.equals y = true := by
  cases x with
  | nan => simp [compare?, equals]
  | infinity m =>
      cases y with
      | nan => simp [compare?, equals]
      | infinity n => cases m <;> cases n <;> simp [compare?, equals]
      | finite n b hb => cases m <;> simp [compare?, equals]
  | finite m a ha =>
      cases y with
      | nan => simp [compare?, equals]
      | infinity n => cases n <;> simp [compare?, equals]
      | finite n b hb => simp [compare?, equals]

theorem consistent : Consistent (equals (F := F)) compare? :=
  .of_rank rank? compare?_eq_some_eq_iff compare?_eq_compare_rank

/-- Only a NaN is ordered with nothing. -/
theorem compare?_eq_none_iff {x y : Binary F} :
    x.compare? y = none ↔ x = .nan ∨ y = .nan := by
  rw [compare?_eq_compare_rank, ← rank?_eq_none_iff, ← rank?_eq_none_iff]
  cases x.rank? <;> cases y.rank? <;> simp

end Binary

namespace Value

theorem consistent_bool : Consistent (fun a b : Bool => a == b) fun a b => some (compare a b) :=
  .of_key id fun _ _ h => h

theorem consistent_int :
    Consistent (fun a b : Integer .i64 => a == b) fun a b => some (compare a.val b.val) := by
  refine .of_key Integer.val ?_
  rintro ⟨a, _, _⟩ ⟨b, _, _⟩ rfl
  rfl

theorem consistent_text :
    Consistent (fun a b : String => a == b) fun a b => some (compare a b) :=
  .of_key id fun _ _ h => h

/-- Two values are of the same kind, or neither ordered nor equal. -/
theorem pair_cases
    {motive : Value → Value → Prop}
    (bool : ∀ a b, motive (.bool a) (.bool b))
    (int : ∀ a b, motive (.int a) (.int b))
    (float : ∀ x y, motive (.float x) (.float y))
    (text : ∀ s t, motive (.text s) (.text t))
    (mixed : ∀ v w, v.kind ≠ w.kind → v.compare? w = none → w.compare? v = none →
      v.equals w = false → motive v w) :
    ∀ v w, motive v w := by
  intro v w
  cases v with
  | bool a =>
      cases w with
      | bool b => exact bool a b
      | _ => exact mixed _ _ (by simp [kind]) rfl rfl rfl
  | int a =>
      cases w with
      | int b => exact int a b
      | _ => exact mixed _ _ (by simp [kind]) rfl rfl rfl
  | float x =>
      cases w with
      | float y => exact float x y
      | _ => exact mixed _ _ (by simp [kind]) rfl rfl rfl
  | text s =>
      cases w with
      | text t => exact text s t
      | _ => exact mixed _ _ (by simp [kind]) rfl rfl rfl

theorem kind_eq_of_compare? {v w : Value} {o : Ordering} (h : v.compare? w = some o) :
    v.kind = w.kind := by
  cases v, w using pair_cases with
  | mixed v w _ hnone _ _ =>
      rw [hnone] at h
      cases h
  | _ => rfl

/-- The order of values is consistent with their equality. -/
theorem consistent : Consistent equals compare? where
  eq_iff v w := by
    cases v, w using pair_cases with
    | bool a b => exact consistent_bool.eq_iff a b
    | int a b => exact consistent_int.eq_iff a b
    | float x y => exact Binary.consistent.eq_iff x y
    | text s t => exact consistent_text.eq_iff s t
    | mixed v w _ hnone _ hne => simp [hnone, hne]
  swap v w := by
    cases v, w using pair_cases with
    | bool a b => exact consistent_bool.swap a b
    | int a b => exact consistent_int.swap a b
    | float x y => exact Binary.consistent.swap x y
    | text s t => exact consistent_text.swap s t
    | mixed v w _ hnone hnone' _ => simp [hnone, hnone']
  lt_trans {u v w} huv hvw := by
    have hkind : v.kind = w.kind := kind_eq_of_compare? hvw
    cases u, v using pair_cases with
    | bool a b =>
        cases w with
        | bool c => exact consistent_bool.lt_trans huv hvw
        | _ => cases hkind
    | int a b =>
        cases w with
        | int c => exact consistent_int.lt_trans huv hvw
        | _ => cases hkind
    | float x y =>
        cases w with
        | float z => exact Binary.consistent.lt_trans huv hvw
        | _ => cases hkind
    | text s t =>
        cases w with
        | text u => exact consistent_text.lt_trans huv hvw
        | _ => cases hkind
    | mixed u v _ hnone _ _ =>
        rw [hnone] at huv
        cases huv

/-- Only values of different kinds and a NaN are not ordered. -/
theorem compare?_eq_none_iff {v w : Value} :
    v.compare? w = none ↔ v.kind ≠ w.kind ∨ v = .float .nan ∨ w = .float .nan := by
  cases v, w using pair_cases with
  | float x y =>
      have hnan : x.compare? y = none ↔ x = .nan ∨ y = .nan := Binary.compare?_eq_none_iff
      simpa [kind, compare?] using hnan
  | mixed v w hkind hnone _ _ => simp [hkind, hnone]
  | _ => simp [kind, compare?]

end Value

namespace Comparison

/-- The comparisons of two values that an ordering of the two settles, which are all but the
search for a part. -/
def admits : Comparison → Ordering → Bool
  | .equal, o => o == .eq
  | .notEqual, o => o != .eq
  | .lessThan, o => o == .lt
  | .lessThanOrEqual, o => o == .lt || o == .eq
  | .greaterThan, o => o == .gt
  | .greaterThanOrEqual, o => o == .gt || o == .eq
  | .contains, _ => false

/-- Two values that are ordered stand in the comparisons that the ordering admits. -/
theorem holds_of_compare?
    {comparison : Comparison} (hcontains : comparison ≠ .contains) {v w : Value} {o : Ordering}
    (h : v.compare? w = some o) : comparison.holds v w = comparison.admits o := by
  have hequals : v.equals w = (o == .eq) := by
    rw [Bool.eq_iff_iff, ← Value.consistent.eq_iff, h, beq_iff_eq, Option.some.injEq]
  cases comparison with
  | contains => exact absurd rfl hcontains
  | _ => cases o <;> simp [holds, admits, h, hequals]

/-- Two values that are not ordered differ, and stand in no other comparison. -/
theorem holds_of_compare?_eq_none
    {comparison : Comparison} (hcontains : comparison ≠ .contains) {v w : Value}
    (h : v.compare? w = none) : comparison.holds v w = true ↔ comparison = .notEqual := by
  have hequals : v.equals w = false := by
    rw [← Bool.not_eq_true, ← Value.consistent.eq_iff, h]
    simp
  cases comparison with
  | contains => exact absurd rfl hcontains
  | _ => simp [holds, h, hequals]

theorem holds_lessThanOrEqual_iff (v w : Value) :
    lessThanOrEqual.holds v w = true ↔
      lessThan.holds v w = true ∨ equal.holds v w = true := by
  simp only [holds, Bool.or_eq_true, beq_iff_eq, Value.consistent.eq_iff]

theorem holds_greaterThanOrEqual_iff (v w : Value) :
    greaterThanOrEqual.holds v w = true ↔
      greaterThan.holds v w = true ∨ equal.holds v w = true := by
  simp only [holds, Bool.or_eq_true, beq_iff_eq, Value.consistent.eq_iff]

theorem holds_notEqual_iff (v w : Value) :
    notEqual.holds v w = true ↔ ¬ equal.holds v w = true := by
  simp only [holds, Bool.not_eq_true', Bool.not_eq_true]

/-- Of two values of one kind that are no NaN, the first is less than the second, equal to it
or greater, and only one of these. -/
theorem existsUnique_holds
    {v w : Value} (hkind : v.kind = w.kind) (hv : v ≠ .float .nan) (hw : w ≠ .float .nan) :
    ∃! comparison, comparison ∈ [lessThan, equal, greaterThan] ∧
      comparison.holds v w = true := by
  obtain ⟨o, ho⟩ : ∃ o, v.compare? w = some o := by
    rw [← Option.ne_none_iff_exists', Ne, Value.compare?_eq_none_iff]
    simp [hkind, hv, hw]
  have hholds : ∀ comparison ∈ [lessThan, equal, greaterThan],
      comparison.holds v w = comparison.admits o := by
    intro comparison hmem
    refine holds_of_compare? ?_ ho
    rintro rfl
    simp at hmem
  cases o with
  | lt => exact ⟨lessThan, by simp [hholds, admits], by simp +contextual [hholds, admits]⟩
  | eq => exact ⟨equal, by simp [hholds, admits], by simp +contextual [hholds, admits]⟩
  | gt => exact ⟨greaterThan, by simp [hholds, admits], by simp +contextual [hholds, admits]⟩

/-- The search for a part finds exactly the texts in which the part stands between two
others. -/
theorem holds_contains_iff (text part : String) :
    contains.holds (.text text) (.text part) = true ↔
      ∃ before after, text = before ++ part ++ after := by
  rw [holds, Value.text?, Value.text?]
  simp only
  rw [String.contains_string_iff]
  constructor
  · rintro ⟨before, after, h⟩
    refine ⟨.ofList before, .ofList after, ?_⟩
    apply String.toList_inj.mp
    simp [← h]
  · rintro ⟨before, after, rfl⟩
    exact ⟨before.toList, after.toList, by simp⟩

end Comparison

end Criteria
