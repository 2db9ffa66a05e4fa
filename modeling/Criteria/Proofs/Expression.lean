import Criteria.Proofs.Combination.Assembly

/-!
# Conditions of an expression

An expression can be read through other conditions: replacing each condition keeps the
shape, and the truth and the text of the result are those of the expression read with the
new conditions.  The conditions of an assembled expression come from the criteria that
were assembled.
-/

namespace Criteria

namespace Expression

variable {α β : Type}

/-- The expression of the same shape over other conditions. -/
def map (f : α → β) : Expression α → Expression β
  | .leaf condition => .leaf (f condition)
  | .both left right => .both (left.map f) (right.map f)
  | .either left right => .either (left.map f) (right.map f)

/-- The conditions from left to right. -/
def leaves : Expression α → List α
  | .leaf condition => [condition]
  | .both left right => left.leaves ++ right.leaves
  | .either left right => left.leaves ++ right.leaves

theorem preserves_map (f : α → β) : Combination.Preserves (map f) where
  both _ _ := rfl
  either _ _ := rfl

theorem holds_map (f : α → β) (test : β → Bool) (e : Expression α) :
    (e.map f).holds test = e.holds fun a => test (f a) := by
  induction e with
  | leaf condition => rfl
  | both left right ihleft ihright => simp only [map, holds, ihleft, ihright]
  | either left right ihleft ihright => simp only [map, holds, ihleft, ihright]

theorem render_map (f : α → β) (both either : String) (condition : β → String)
    (e : Expression α) :
    (e.map f).render both either condition = e.render both either fun a => condition (f a) := by
  induction e with
  | leaf condition => rfl
  | both left right ihleft ihright => simp only [map, render, ihleft, ihright]
  | either left right ihleft ihright => simp only [map, render, ihleft, ihright]

theorem holds_congr {test test' : α → Bool} {e : Expression α}
    (h : ∀ a ∈ e.leaves, test a = test' a) :
    e.holds test = e.holds test' := by
  induction e with
  | leaf condition => exact h condition (by simp [leaves])
  | both left right ihleft ihright =>
      have hleft := ihleft fun a ha => h a (by simp [leaves, ha])
      have hright := ihright fun a ha => h a (by simp [leaves, ha])
      simp only [holds, hleft, hright]
  | either left right ihleft ihright =>
      have hleft := ihleft fun a ha => h a (by simp [leaves, ha])
      have hright := ihright fun a ha => h a (by simp [leaves, ha])
      simp only [holds, hleft, hright]

/-- An expression that is true stays true if its true conditions do: it has no negation. -/
theorem holds_mono {test test' : α → Bool} {e : Expression α}
    (h : ∀ a ∈ e.leaves, test a = true → test' a = true) (htrue : e.holds test = true) :
    e.holds test' = true := by
  induction e with
  | leaf condition => exact h condition (by simp [leaves]) htrue
  | both left right ihleft ihright =>
      obtain ⟨hleft, hright⟩ := Bool.and_eq_true_iff.mp htrue
      have hleft' := ihleft (fun a ha => h a (by simp [leaves, ha])) hleft
      have hright' := ihright (fun a ha => h a (by simp [leaves, ha])) hright
      simp only [holds, hleft', hright', Bool.and_self]
  | either left right ihleft ihright =>
      rcases Bool.or_eq_true_iff.mp htrue with hleft | hright
      · have hleft' := ihleft (fun a ha => h a (by simp [leaves, ha])) hleft
        simp only [holds, hleft', Bool.true_or]
      · have hright' := ihright (fun a ha => h a (by simp [leaves, ha])) hright
        simp only [holds, hright', Bool.or_true]

/-- An expression that is true has a true condition: it has no constant. -/
theorem exists_leaf_of_holds {test : α → Bool} {e : Expression α}
    (htrue : e.holds test = true) : ∃ a ∈ e.leaves, test a = true := by
  induction e with
  | leaf condition => exact ⟨condition, by simp [leaves], htrue⟩
  | both left right ihleft _ =>
      obtain ⟨a, ha, htest⟩ := ihleft (Bool.and_eq_true_iff.mp htrue).1
      exact ⟨a, by simp [leaves, ha], htest⟩
  | either left right ihleft ihright =>
      rcases Bool.or_eq_true_iff.mp htrue with hleft | hright
      · obtain ⟨a, ha, htest⟩ := ihleft hleft
        exact ⟨a, by simp [leaves, ha], htest⟩
      · obtain ⟨a, ha, htest⟩ := ihright hright
        exact ⟨a, by simp [leaves, ha], htest⟩

/-- An expression is true if all its conditions are: it has no negation. -/
theorem holds_of_forall_leaves {test : α → Bool} {e : Expression α}
    (h : ∀ a ∈ e.leaves, test a = true) : e.holds test = true := by
  induction e with
  | leaf condition => exact h condition (by simp [leaves])
  | both left right ihleft ihright =>
      have hleft := ihleft fun a ha => h a (by simp [leaves, ha])
      have hright := ihright fun a ha => h a (by simp [leaves, ha])
      simp only [holds, hleft, hright, Bool.and_self]
  | either left right ihleft ihright =>
      have hleft := ihleft fun a ha => h a (by simp [leaves, ha])
      simp only [holds, hleft, Bool.true_or]

end Expression

namespace Combination

variable {α : Type}

theorem mem_leaves_of_joined? {queue : List (Expression α)} {e : Expression α} {a : α}
    (h : joined? queue = some e) (ha : a ∈ e.leaves) :
    ∃ entry ∈ queue, a ∈ entry.leaves := by
  induction queue generalizing e with
  | nil => simp [joined?] at h
  | cons last older ih =>
      cases older with
      | nil =>
          obtain rfl := Option.some.inj h
          exact ⟨last, by simp, ha⟩
      | cons next older =>
          obtain ⟨folded, hfolded, rfl⟩ := Option.map_eq_some_iff.mp h
          rcases List.mem_append.mp ha with ha | ha
          · obtain ⟨entry, hentry, ha⟩ := ih hfolded ha
            exact ⟨entry, by simp [hentry], ha⟩
          · exact ⟨last, by simp, ha⟩

theorem mem_leaves_of_enqueue?
    {combinator : Combinator} {own : Option (Expression α)}
    {queue next : List (Expression α)} {entry : Expression α} {a : α}
    (h : enqueue? combinator own queue = some next) (hentry : entry ∈ next)
    (ha : a ∈ entry.leaves) :
    (∃ e ∈ queue, a ∈ e.leaves) ∨ ∃ e, own = some e ∧ a ∈ e.leaves := by
  cases combinator with
  | and =>
      cases own with
      | none =>
          obtain rfl := Option.some.inj h
          exact .inl ⟨entry, hentry, ha⟩
      | some e =>
          obtain rfl := Option.some.inj h
          rcases List.mem_cons.mp hentry with rfl | hentry
          · exact .inr ⟨entry, rfl, ha⟩
          · exact .inl ⟨entry, hentry, ha⟩
  | or =>
      obtain ⟨folded, hfolded, rfl⟩ := Option.map_eq_some_iff.mp h
      obtain rfl := List.mem_singleton.mp hentry
      rcases List.mem_append.mp ha with ha | ha
      · exact .inl (mem_leaves_of_joined? hfolded ha)
      · cases own with
        | none => exact .inl (mem_leaves_of_joined? hfolded ha)
        | some e => exact .inr ⟨e, rfl, ha⟩

/-- A condition of an assembled expression stood in the queue or belongs to a criterion. -/
theorem Assembles.mem_leaves
    {known : Criterion → Option (Expression α)} {queue : List (Expression α)}
    {cs : List Criterion} {e : Expression α} {a : α}
    (h : Assembles known queue cs e) (ha : a ∈ e.leaves) :
    (∃ entry ∈ queue, a ∈ entry.leaves) ∨
      ∃ c ∈ Criterion.preorder cs, ∃ own, known c = some own ∧ a ∈ own.leaves := by
  induction h with
  | nil hjoined => exact .inl (mem_leaves_of_joined? hjoined ha)
  | @leaf queue next c rest e _ hnext _ ih =>
      rcases ih ha with ⟨entry, hentry, ha⟩ | ⟨d, hd, hown⟩
      · rcases mem_leaves_of_enqueue? hnext hentry ha with hqueue | hown
        · exact .inl hqueue
        · exact .inr ⟨c, by simp, hown⟩
      · exact .inr ⟨d, by simp [hd], hown⟩
  | @group queue older c rest last sub e _ hnext _ _ ihsub ihrest =>
      have hentries : ∀ entry ∈ last :: older, a ∈ entry.leaves →
          (∃ entry ∈ queue, a ∈ entry.leaves) ∨
            ∃ d ∈ Criterion.preorder (c :: rest), ∃ own, known d = some own ∧ a ∈ own.leaves := by
        intro entry hentry ha
        rcases mem_leaves_of_enqueue? hnext hentry ha with hqueue | hown
        · exact .inl hqueue
        · exact .inr ⟨c, by simp, hown⟩
      rcases ihrest ha with ⟨entry, hentry, ha⟩ | ⟨d, hd, hown⟩
      · rcases List.mem_cons.mp hentry with rfl | hentry
        · rcases List.mem_append.mp ha with hlast | hsub
          · exact hentries last (by simp) hlast
          · rcases ihsub hsub with ⟨entry, hentry, _⟩ | ⟨d, hd, hown⟩
            · cases hentry
            · exact .inr ⟨d, by simp [hd], hown⟩
        · exact hentries entry (by simp [hentry]) ha
      · exact .inr ⟨d, by simp [hd], hown⟩

end Combination

end Criteria
