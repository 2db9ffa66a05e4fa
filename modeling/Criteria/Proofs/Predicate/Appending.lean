import Criteria.Proofs.Predicate.Meaning

/-!
# Appending a criterion

One more criterion at the end of a filter should change the meaning in one direction: joined
by OR it can only widen the predicate, and joined by AND it can only narrow it, because the
group below a criterion is meant for that criterion alone.  This is so as long as the criterion
itself is queued: the group below it then widens the entry of that criterion only.  It goes
wrong in one case.  Where the schema lacks the field of a criterion joined by AND, nothing is
queued for it, but the group below it is joined all the same, to the entry of the criterion
before it, and lets in records that this criterion keeps out.
-/

namespace Criteria

variable {R : RecordType}

namespace Tally

variable {truth : Criterion → Option Bool}

theorem after_append (xs ys : List Criterion) :
    ∀ t : Option Tally, after truth t (xs ++ ys) = after truth (after truth t xs) ys := by
  induction xs with
  | nil =>
      intro t
      simp only [List.nil_append, after]
  | cons c rest ih =>
      intro t
      rw [List.cons_append, after_cons, after_cons, ih]

/-- The tally of a group after one more criterion at its end. -/
theorem after_append_singleton (cs : List Criterion) (c : Criterion) :
    after truth none (cs ++ [c]) =
      (step c.combinator (truth c) (after truth none cs)).map
        (widen (evaluate truth c.children)) := by
  rw [after_append, after_cons]
  simp only [after]

/-- A group below a criterion never takes away what was true without it. -/
theorem value_widen_of_value (sub : Option Bool) {t : Tally} (h : t.value = true) :
    (widen sub t).value = true := by
  have hboth : t.older = true ∧ t.last = true := by simpa [value] using h
  simp [widen, value, hboth]

/-- Once a criterion joined by AND is queued, the group below it cannot restore what was
false before it. -/
theorem value_of_value_widen_step_and
    {x : Bool} {sub : Option Bool} {t t' : Tally}
    (hstep : step .and (some x) (some t) = some t') (h : (widen sub t').value = true) :
    t.value = true := by
  obtain rfl := Option.some.inj hstep
  have hboth : t.value = true ∧ (x || sub.getD false) = true := by
    rw [widen, value, Bool.and_eq_true] at h
    exact h
  exact hboth.1

theorem value_step_or
    {x : Option Bool} {t t' : Tally}
    (hstep : step .or x (some t) = some t') (h : t.value = true) : t'.value = true := by
  cases x with
  | none =>
      obtain rfl := Option.some.inj hstep
      simpa [value] using h
  | some x =>
      obtain rfl := Option.some.inj hstep
      have hor : (t.value || x) = true := by rw [h, Bool.true_or]
      simpa [value] using hor

end Tally

namespace Predicate

open Combination Criterion

/-- The tally of a filter that compiles has the value of its predicate. -/
theorem exists_tally_of_compile
    {S : Schema R} {cs : List Criterion} {p : Predicate R}
    (h : compile S cs = .ok p) (r : Record R) :
    ∃ t, Tally.after (truth? S r) none cs = some t ∧ t.value = p.holds r := by
  have hassembles := assembles_of_compile h
  have hvalue := Tally.after_of_assembles (fun t : Test R => t.holds r) hassembles
  rw [map_known] at hvalue
  exact Option.map_eq_some_iff.mp hvalue

/-- Before and after one more criterion, the tally of a filter has the value of its
predicate, and the criterion takes one tally to the other. -/
theorem exists_tally_of_compile_append
    {S : Schema R} {cs : List Criterion} {c : Criterion} {p q : Predicate R}
    (hp : compile S cs = .ok p) (hq : compile S (cs ++ [c]) = .ok q) (r : Record R) :
    ∃ t t', t.value = p.holds r ∧
      Tally.step c.combinator (truth? S r c) (some t) = some t' ∧
      (Tally.widen (Tally.evaluate (truth? S r) c.children) t').value = q.holds r := by
  obtain ⟨t, ht, hpvalue⟩ := exists_tally_of_compile hp r
  obtain ⟨u, hu, hqvalue⟩ := exists_tally_of_compile hq r
  rw [Tally.after_append_singleton, ht] at hu
  obtain ⟨t', ht', rfl⟩ := Option.map_eq_some_iff.mp hu
  exact ⟨t, t', hpvalue, ht', hqvalue⟩

theorem truth?_eq_none_iff {S : Schema R} {r : Record R} {c : Criterion} :
    truth? S r c = none ↔ c.resolves S = false := by
  rw [truth?, resolves]
  cases S.resolve c.field <;> simp

/-- A criterion at the end that is joined by AND narrows a predicate if the schema has its
field or it has no children.  Otherwise it fails to: its children widen what stands before it.
One joined by OR widens the predicate. -/
theorem holds_of_compile_append
    {S : Schema R} {cs : List Criterion} {c : Criterion} {p q : Predicate R}
    (hp : compile S cs = .ok p) (hq : compile S (cs ++ [c]) = .ok q) (r : Record R) :
    (c.combinator = .and → (c.resolves S = true ∨ c.children = []) →
        q.holds r = true → p.holds r = true) ∧
      (c.combinator = .and → c.resolves S = false → c.children ≠ [] →
        p.holds r = true → q.holds r = true) ∧
      (c.combinator = .or → p.holds r = true → q.holds r = true) := by
  obtain ⟨t, t', hpvalue, hstep, hqvalue⟩ := exists_tally_of_compile_append hp hq r
  rw [← hpvalue, ← hqvalue]
  refine ⟨?_, ?_, ?_⟩
  · intro hand hqueued hwidened
    rw [hand] at hstep
    cases htruth : truth? S r c with
    | some x =>
        rw [htruth] at hstep
        exact Tally.value_of_value_widen_step_and hstep hwidened
    | none =>
        -- Nothing is queued and nothing stands below, so the tally is as it was.
        have hchildren : c.children = [] := by
          refine hqueued.resolve_left ?_
          rw [truth?_eq_none_iff.mp htruth]
          decide
        rw [htruth] at hstep
        obtain rfl := Option.some.inj hstep
        rw [hchildren, Tally.evaluate_nil] at hwidened
        simpa [Tally.widen, Tally.value] using hwidened
  · intro hand hresolves _ hvalue
    rw [hand, truth?_eq_none_iff.mpr hresolves] at hstep
    obtain rfl := Option.some.inj hstep
    exact Tally.value_widen_of_value _ hvalue
  · intro hor hvalue
    rw [hor] at hstep
    exact Tally.value_widen_of_value _ (Tally.value_step_or hstep hvalue)

/-- Parcels above number 3. -/
def highParcels : List Criterion :=
  [⟨.and, "number", .greaterThan, .text " 3 ", []⟩]

/-- Parcels of a colour, which parcels do not have, or with number 2. -/
def redOrSecond : Criterion :=
  ⟨.and, "colour", .equal, .text "red", [⟨.and, "number", .equal, .text "2", []⟩]⟩

/-- Parcels with a note on glass, or of a high number. -/
def glassOrHigh : Criterion :=
  ⟨.and, "note", .contains, .text "glass", highParcels⟩

theorem holds_of_compile_append_highParcels :
    ∃ p q₁ q₂ q₃, compile parcelSchema highParcels = .ok p ∧
      compile parcelSchema (highParcels ++ [glassOrHigh]) = .ok q₁ ∧
      compile parcelSchema (highParcels ++ [redOrSecond]) = .ok q₂ ∧
      compile parcelSchema (highParcels ++ [{ redOrSecond with combinator := .or }]) = .ok q₃ ∧
      ∀ r, (q₁.holds r = true → p.holds r = true) ∧
        (p.holds r = true → q₂.holds r = true) ∧ (p.holds r = true → q₃.holds r = true) := by
  obtain ⟨p, hp⟩ : ∃ p, compile parcelSchema highParcels = .ok p := ⟨_, rfl⟩
  obtain ⟨q₁, hq₁⟩ : ∃ q, compile parcelSchema (highParcels ++ [glassOrHigh]) = .ok q :=
    ⟨_, rfl⟩
  obtain ⟨q₂, hq₂⟩ : ∃ q, compile parcelSchema (highParcels ++ [redOrSecond]) = .ok q :=
    ⟨_, rfl⟩
  obtain ⟨q₃, hq₃⟩ :
      ∃ q, compile parcelSchema (highParcels ++ [{ redOrSecond with combinator := .or }]) =
        .ok q :=
    ⟨_, rfl⟩
  refine ⟨p, q₁, q₂, q₃, hp, hq₁, hq₂, hq₃, ?_⟩
  intro r
  obtain ⟨hnarrows, -, -⟩ := holds_of_compile_append hp hq₁ r
  obtain ⟨-, hwidens, -⟩ := holds_of_compile_append hp hq₂ r
  obtain ⟨-, -, hor⟩ := holds_of_compile_append hp hq₃ r
  exact ⟨hnarrows rfl (.inl rfl), hwidens rfl rfl (List.cons_ne_nil _ _), hor rfl⟩

/-- A criterion joined by AND can let records in that it should not: the number 2 below a
colour that parcels do not have is joined by OR to what stands before. -/
theorem holds_append_and_not_narrowing :
    ∃ p q, ∃ r : Record parcels, compile parcelSchema highParcels = .ok p ∧
      compile parcelSchema (highParcels ++ [redOrSecond]) = .ok q ∧
      redOrSecond.combinator = .and ∧ q.holds r = true ∧ p.holds r = false := by
  let second : Integer .u8 := ⟨2, by decide, by decide⟩
  refine ⟨_, _, (Record.initial parcels).set (0 : Fin 2) second, rfl, rfl, rfl, ?_, ?_⟩
  · rfl
  · rfl

end Predicate

end Criteria
