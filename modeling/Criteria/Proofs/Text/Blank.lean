import Criteria.Proofs.Text.Run
import Criteria.Text.Blank
import Mathlib.Data.List.TakeWhile

/-!
# Texts without the blanks around them

A text can be divided in only one way into blanks, a middle that neither begins nor ends with a
blank, and blanks again.  Trimming finds the middle, so it does not notice further blanks around
a text.
-/

namespace Criteria.Text

/-- Every character of the text is a blank. -/
def Blank (s : List Char) : Prop :=
  ∀ c ∈ s, isBlank c = true

/-- The text neither begins nor ends with a blank. -/
structure Bare (s : List Char) : Prop where
  stops : Stops isBlank s
  stops_reverse : Stops isBlank s.reverse

/-- The second text is the first one without the blanks at its start and at its end. -/
def Trims (s body : List Char) : Prop :=
  ∃ before after, Blank before ∧ Bare body ∧ Blank after ∧ s = before ++ body ++ after

variable {s body before after : List Char}

theorem Blank.append (hbefore : Blank before) (hafter : Blank after) :
    Blank (before ++ after) := by
  intro c hc
  rcases List.mem_append.mp hc with hc | hc
  · exact hbefore c hc
  · exact hafter c hc

theorem Blank.reverse (h : Blank s) : Blank s.reverse := by
  intro c hc
  exact h c (List.mem_reverse.mp hc)

theorem bare_of_forall (h : ∀ c ∈ s, isBlank c = false) : Bare s where
  stops c hc := h c (List.mem_of_mem_head? hc)
  stops_reverse c hc := h c (List.mem_reverse.mp (List.mem_of_mem_head? hc))

theorem Stops.append {sort : Char → Bool} (h : Stops sort s) (hne : s ≠ []) (rest : List Char) :
    Stops sort (s ++ rest) := by
  obtain ⟨c, tail, rfl⟩ := List.exists_cons_of_ne_nil hne
  exact h

theorem stops_dropWhile (sort : Char → Bool) (s : List Char) : Stops sort (s.dropWhile sort) := by
  intro c hc
  have hhead := List.head?_dropWhile_not sort s
  rw [hc] at hhead
  simpa using hhead

theorem dropWhile_blank (h : Blank s) : s.dropWhile isBlank = [] := by
  rw [List.dropWhile_eq_nil_iff]
  exact h

/-- The middle of a text is what trimming leaves. -/
theorem trim_surrounded (hbefore : Blank before) (hbody : Bare body) (hafter : Blank after) :
    trim (before ++ body ++ after) = body := by
  by_cases hne : body = []
  · have hdrop : (before ++ after).dropWhile isBlank = [] :=
      dropWhile_blank (hbefore.append hafter)
    rw [hne, List.append_nil, trim, hdrop]
    rfl
  · have hstart : (before ++ (body ++ after)).dropWhile isBlank = body ++ after :=
      dropWhile_run hbefore (hbody.stops.append hne after)
    have hend : (after.reverse ++ body.reverse).dropWhile isBlank = body.reverse :=
      dropWhile_run hafter.reverse hbody.stops_reverse
    rw [trim, List.append_assoc, hstart, List.reverse_append, hend, List.reverse_reverse]

theorem trims_trim (s : List Char) : Trims s (trim s) := by
  let rest := s.dropWhile isBlank
  let tail := (rest.reverse.takeWhile isBlank).reverse
  have hrest : trim s ++ tail = rest := by
    rw [trim, ← List.reverse_append, List.takeWhile_append_dropWhile, List.reverse_reverse]
  have hbare : Bare (trim s) := by
    constructor
    · -- A middle that has a first character begins as the text does after its first blanks.
      intro c hc
      have hhead : rest.head? = some c := by
        rw [← hrest, List.head?_append, hc]
        rfl
      exact stops_dropWhile isBlank s c hhead
    · rw [trim, List.reverse_reverse]
      exact stops_dropWhile isBlank _
  have htail : Blank tail := by
    apply Blank.reverse
    intro c hc
    exact List.mem_takeWhile_imp hc
  refine ⟨s.takeWhile isBlank, tail, fun c hc => List.mem_takeWhile_imp hc, hbare, htail, ?_⟩
  rw [List.append_assoc, hrest, List.takeWhile_append_dropWhile]

/-- Trimming finds the one middle that the text has. -/
theorem trims_iff : Trims s body ↔ trim s = body := by
  constructor
  · rintro ⟨before, after, hbefore, hbody, hafter, rfl⟩
    exact trim_surrounded hbefore hbody hafter
  · rintro rfl
    exact trims_trim s

/-- Blanks around a text are not noticed. -/
theorem trim_append_blank (hbefore : Blank before) (hafter : Blank after) (s : List Char) :
    trim (before ++ s ++ after) = trim s := by
  obtain ⟨first, last, hfirst, hbare, hlast, hs⟩ := trims_trim s
  have hsplit : before ++ s ++ after = (before ++ first) ++ trim s ++ (last ++ after) := by
    calc
      before ++ s ++ after = before ++ (first ++ trim s ++ last) ++ after := by rw [← hs]
      _ = (before ++ first) ++ trim s ++ (last ++ after) := by simp
  rw [hsplit, trim_surrounded (hbefore.append hfirst) hbare (hlast.append hafter)]

theorem trim_of_bare (h : Bare s) : trim s = s := by
  refine trims_iff.mp ⟨[], [], ?_, h, ?_, (List.append_nil s).symm⟩
  · intro c hc
    cases hc
  · intro c hc
    cases hc

end Criteria.Text
