import Criteria.Proofs.Expression

/-!
# Texts that can be read in one way only

An expression is written with every pair in parentheses and the connective between spaces.
If the text of a condition determines the condition and where it ends, as long as it is
followed by a space, by a closing parenthesis or by nothing, then the same is true of the
text of an expression.  No parsing is needed to see it: two expressions of one text are
compared from the left.
-/

namespace Criteria

namespace Text

/-- What comes next is a space, a closing parenthesis or nothing. -/
def Delimited (rest : List Char) : Prop :=
  ∀ c, rest.head? = some c → c = ' ' ∨ c = ')'

theorem delimited_nil : Delimited [] := by
  simp [Delimited]

theorem delimited_space (rest : List Char) : Delimited (' ' :: rest) := by
  simp [Delimited]

theorem delimited_closing (rest : List Char) : Delimited (')' :: rest) := by
  simp [Delimited]

/-- What is valid and begins a text as `a` does is `a`, if a delimiter follows each. -/
def Determines {α : Type} (valid : α → Prop) (text : α → String) (a : α) : Prop :=
  ∀ b, valid b → ∀ rest rest', Delimited rest → Delimited rest' →
    (text a).toList ++ rest = (text b).toList ++ rest' → a = b ∧ rest = rest'

/-- The texts of what is valid determine it, and where they end if a delimiter follows. -/
def Readable {α : Type} (valid : α → Prop) (text : α → String) : Prop :=
  ∀ a, valid a → Determines valid text a

/-- What is readable is determined by its text alone. -/
theorem Readable.eq_of_text_eq
    {α : Type} {valid : α → Prop} {text : α → String} (h : Readable valid text) {a b : α}
    (ha : valid a) (hb : valid b) (htext : text a = text b) : a = b :=
  (h a ha b hb [] [] delimited_nil delimited_nil (by rw [htext])).1

/-- The words for AND and OR are set off by a space before them, and neither of them begins
the other. -/
structure SetApart (both either : String) : Prop where
  both_delimited : ∀ rest, Delimited (both.toList ++ rest)
  either_delimited : ∀ rest, Delimited (either.toList ++ rest)
  ne_append : ∀ rest rest', both.toList ++ rest ≠ either.toList ++ rest'

end Text

namespace Expression

open Text

variable {α : Type} {both either : String} {condition : α → String}

theorem toList_render_both (left right : Expression α) (rest : List Char) :
    ((left.both right).render both either condition).toList ++ rest =
      '(' :: ((left.render both either condition).toList ++ (both.toList ++
        ((right.render both either condition).toList ++ ')' :: rest))) := by
  simp [render, String.toList_append]

theorem toList_render_either (left right : Expression α) (rest : List Char) :
    ((left.either right).render both either condition).toList ++ rest =
      '(' :: ((left.render both either condition).toList ++ (either.toList ++
        ((right.render both either condition).toList ++ ')' :: rest))) := by
  simp [render, String.toList_append]

/-- The text of a condition that begins with no parenthesis is not that of a pair. -/
theorem condition_ne_opening
    {c : α} (hopening : (condition c).toList.head? ≠ some '(') {rest : List Char}
    (hrest : Delimited rest) (tail : List Char) :
    (condition c).toList ++ rest ≠ '(' :: tail := by
  intro h
  cases hcondition : (condition c).toList with
  | nil =>
      rw [hcondition, List.nil_append] at h
      have hdelimiter := hrest '(' (by rw [h]; rfl)
      exact absurd hdelimiter (by decide)
  | cons d text =>
      rw [hcondition] at h hopening
      exact hopening (congrArg some (List.cons.inj h).1)

/-- The left sides of two pairs of one text are the same. -/
theorem left_eq_of_pair
    {valid : Expression α → Prop} {text : Expression α → String} {op op' : String}
    {left left' : Expression α} {tail tail' : List Char}
    (hop : ∀ rest, Delimited (op.toList ++ rest)) (hop' : ∀ rest, Delimited (op'.toList ++ rest))
    (hleft : Determines valid text left) (hleft' : valid left')
    (h : '(' :: ((text left).toList ++ (op.toList ++ tail)) =
      '(' :: ((text left').toList ++ (op'.toList ++ tail'))) :
    left = left' ∧ op.toList ++ tail = op'.toList ++ tail' :=
  hleft left' hleft' _ _ (hop tail) (hop' tail') (List.cons.inj h).2

/-- Two pairs with one connective and one text are the same. -/
theorem pair_inj
    {valid : Expression α → Prop} {text : Expression α → String} {op : String}
    {left left' right right' : Expression α} {rest rest' : List Char}
    (hop : ∀ rest, Delimited (op.toList ++ rest))
    (hleft : Determines valid text left) (hright : Determines valid text right)
    (hleft' : valid left') (hright' : valid right')
    (h : '(' :: ((text left).toList ++ (op.toList ++ ((text right).toList ++ ')' :: rest))) =
      '(' :: ((text left').toList ++ (op.toList ++ ((text right').toList ++ ')' :: rest')))) :
    left = left' ∧ right = right' ∧ rest = rest' := by
  obtain ⟨hsame, htail⟩ := left_eq_of_pair hop hop hleft hleft' h
  obtain ⟨hsame', hclosing⟩ := hright right' hright' _ _ (delimited_closing rest)
    (delimited_closing rest') (List.append_cancel_left htail)
  exact ⟨hsame, hsame', (List.cons.inj hclosing).2⟩

/-- If the conditions are readable, so are the expressions of valid conditions. -/
theorem readable_render
    (hapart : SetApart both either) {valid : α → Prop}
    (hopening : ∀ c, valid c → (condition c).toList.head? ≠ some '(')
    (hcondition : Readable valid condition) :
    Readable (fun e : Expression α => ∀ c ∈ e.leaves, valid c)
      (render both either condition) := by
  intro e
  induction e with
  | leaf c =>
      intro hvalid e' hvalid' rest rest' hrest hrest' h
      have hc : valid c := hvalid c (by simp [leaves])
      have hunopened := condition_ne_opening (hopening c hc) hrest
      cases e' with
      | leaf c' =>
          have hc' : valid c' := hvalid' c' (by simp [leaves])
          obtain ⟨rfl, rfl⟩ := hcondition c hc c' hc' rest rest' hrest hrest' h
          exact ⟨rfl, rfl⟩
      | both left' right' => exact absurd (h.trans (toList_render_both ..)) (hunopened _)
      | either left' right' => exact absurd (h.trans (toList_render_either ..)) (hunopened _)
  | both left right ihleft ihright =>
      intro hvalid e' hvalid' rest rest' hrest hrest' h
      obtain ⟨hleft, hright⟩ := List.forall_mem_append.mp hvalid
      rw [toList_render_both] at h
      cases e' with
      | leaf c' =>
          have hc' : valid c' := hvalid' c' (by simp [leaves])
          exact absurd h.symm (condition_ne_opening (hopening c' hc') hrest' _)
      | both left' right' =>
          obtain ⟨hleft', hright'⟩ := List.forall_mem_append.mp hvalid'
          rw [toList_render_both] at h
          obtain ⟨rfl, rfl, rfl⟩ := pair_inj hapart.both_delimited (ihleft hleft)
            (ihright hright) hleft' hright' h
          exact ⟨rfl, rfl⟩
      | either left' right' =>
          -- The left sides end at the same place, so the connectives stand against each other.
          obtain ⟨hleft', -⟩ := List.forall_mem_append.mp hvalid'
          rw [toList_render_either] at h
          obtain ⟨-, hconnectives⟩ := left_eq_of_pair hapart.both_delimited
            hapart.either_delimited (ihleft hleft) hleft' h
          exact absurd hconnectives (hapart.ne_append _ _)
  | either left right ihleft ihright =>
      intro hvalid e' hvalid' rest rest' hrest hrest' h
      obtain ⟨hleft, hright⟩ := List.forall_mem_append.mp hvalid
      rw [toList_render_either] at h
      cases e' with
      | leaf c' =>
          have hc' : valid c' := hvalid' c' (by simp [leaves])
          exact absurd h.symm (condition_ne_opening (hopening c' hc') hrest' _)
      | both left' right' =>
          obtain ⟨hleft', -⟩ := List.forall_mem_append.mp hvalid'
          rw [toList_render_both] at h
          obtain ⟨-, hconnectives⟩ := left_eq_of_pair hapart.either_delimited
            hapart.both_delimited (ihleft hleft) hleft' h
          exact absurd hconnectives.symm (hapart.ne_append _ _)
      | either left' right' =>
          obtain ⟨hleft', hright'⟩ := List.forall_mem_append.mp hvalid'
          rw [toList_render_either] at h
          obtain ⟨rfl, rfl, rfl⟩ := pair_inj hapart.either_delimited (ihleft hleft)
            (ihright hright) hleft' hright' h
          exact ⟨rfl, rfl⟩

end Expression

end Criteria
