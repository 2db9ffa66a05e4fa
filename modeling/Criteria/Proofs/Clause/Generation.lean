import Criteria.Proofs.Clause.Binding
import Criteria.Proofs.Combination.Schedule

/-!
# Which filters give a query clause

Every criterion of a query clause has a condition, so a queue is empty only before the
first criterion of its group.  The schedule of the combination can therefore be read off
the places of the criteria: each is asked in preorder, and one that opens its group must
not be joined by OR.  A filter that is not empty fails with the fault of its first place at
fault, and the faults of one place are found in a fixed order.
-/

namespace Criteria

variable {R : RecordType}

namespace Place

open Combination

/-- The fault of a criterion at its place, given the fields named before it. -/
def fault? (S : Schema R) (earlier : List String) (p : Place) : Option FilterError :=
  match p.criterion.refusal? S earlier with
  | some e => some e
  | none =>
    if p.opens = true ∧ p.criterion.combinator = .or then some (.emptyCombination p.group)
    else none

/-- The fault of the first place at fault, given the fields named before the places. -/
def firstFault? (S : Schema R) (earlier : List String) : List Place → Option FilterError
  | [] => none
  | p :: rest =>
    match p.fault? S earlier with
    | some e => some e
    | none => firstFault? S (earlier ++ [p.criterion.field]) rest

/-- The steps of a combination for a criterion at its place, if every criterion has an
element. -/
def events (p : Place) : List Event :=
  .ask p.criterion :: lacking (p.opens && p.criterion.combinator == .or) p.group

theorem schedule_eq_flatMap_events (cs : List Criterion) :
    ∀ (group : Group) (opens : Bool), (opens = true → cs ≠ []) →
      schedule (fun _ => true) group opens cs = (ofList group opens cs).flatMap events := by
  induction cs using Criterion.preorder_induction with
  | nil =>
      intro group opens hne
      cases opens with
      | false => rfl
      | true => exact absurd rfl (hne rfl)
  | cons c rest hchildren hrest =>
      intro group opens _
      have hbelow : scheduleBelow (fun _ => true) group false c =
          (ofList (.children c.field) true c.children).flatMap events := by
        rw [scheduleBelow]
        split
        next hempty => simp [List.isEmpty_iff.mp hempty]
        next hsome =>
          rw [hchildren _ true fun _ => by simpa using hsome]
          simp [lacking]
      rw [schedule_cons, ofList_cons, Bool.not_true, Bool.and_false, hbelow,
        hrest group false (by simp)]
      simp [events]

theorem firstFault?_eq_none_iff {S : Schema R} (ps : List Place) :
    ∀ earlier : List String,
      firstFault? S earlier ps = none ↔
        (∀ p ∈ ps, p.criterion.resolves S = true ∧ p.criterion.Fits S ∧
          ¬ (p.opens = true ∧ p.criterion.combinator = .or)) ∧
        (∀ p ∈ ps, p.criterion.field ∉ earlier) ∧
        (ps.map fun p => p.criterion.field).Nodup := by
  induction ps with
  | nil => simp [firstFault?]
  | cons p rest ih =>
      intro earlier
      have hfault : p.fault? S earlier = none ↔
          (p.criterion.resolves S = true ∧ p.criterion.field ∉ earlier ∧ p.criterion.Fits S) ∧
            ¬ (p.opens = true ∧ p.criterion.combinator = .or) := by
        rw [← Criterion.refusal?_eq_none_iff, fault?]
        cases p.criterion.refusal? S earlier <;> simp
      have hstep : firstFault? S earlier (p :: rest) = none ↔
          p.fault? S earlier = none ∧
            firstFault? S (earlier ++ [p.criterion.field]) rest = none := by
        rw [firstFault?]
        cases p.fault? S earlier <;> simp
      have hearlier :
          (∀ q ∈ rest, q.criterion.field ∉ earlier ++ [p.criterion.field]) ↔
            (∀ q ∈ rest, q.criterion.field ∉ earlier) ∧
              p.criterion.field ∉ rest.map fun q => q.criterion.field := by
        constructor
        · intro h
          refine ⟨fun q hq hmem => h q hq (List.mem_append_left _ hmem), ?_⟩
          intro hmem
          obtain ⟨q, hq, hname⟩ := List.mem_map.mp hmem
          exact h q hq (by simp [hname])
        · rintro ⟨hearlier, hfresh⟩ q hq hmem
          rcases List.mem_append.mp hmem with hmem | hmem
          · exact hearlier q hq hmem
          · exact hfresh (List.mem_map.mpr ⟨q, hq, List.mem_singleton.mp hmem⟩)
      rw [hstep, hfault, ih, hearlier, List.map_cons, List.nodup_cons]
      simp only [List.forall_mem_cons]
      constructor
      · rintro ⟨⟨⟨hresolves, hnew, hfits⟩, hleading⟩, hall, ⟨hothers, hfresh⟩, hnodup⟩
        exact ⟨⟨⟨hresolves, hfits, hleading⟩, hall⟩, ⟨hnew, hothers⟩, hfresh, hnodup⟩
      · rintro ⟨⟨⟨hresolves, hfits, hleading⟩, hall⟩, ⟨hnew, hothers⟩, hfresh, hnodup⟩
        exact ⟨⟨⟨hresolves, hnew, hfits⟩, hleading⟩, hall, ⟨hothers, hfresh⟩, hnodup⟩

theorem opens_and_or_iff (cs : List Criterion) :
    ∀ (group : Group) (opens : Bool),
      (∀ p ∈ ofList group opens cs, ¬ (p.opens = true ∧ p.criterion.combinator = .or)) ↔
        (opens = true → ∀ c, cs.head? = some c → c.combinator ≠ .or) ∧
          ∀ c ∈ Criterion.preorder cs, ∀ d, c.children.head? = some d → d.combinator ≠ .or := by
  induction cs using Criterion.preorder_induction with
  | nil => simp
  | cons c rest hchildren hrest =>
      intro group opens
      rw [ofList_cons, Criterion.preorder_cons, List.forall_mem_cons, List.forall_mem_append,
        hchildren, hrest, List.forall_mem_cons, List.forall_mem_append]
      simp only [List.head?_cons, Option.some.injEq, forall_eq', not_and, forall_const,
        Bool.false_eq_true, false_implies, true_and, and_assoc]

end Place

namespace QueryClause

open Combination Criterion

/-- A run over places stops at the first fault.  Without one it binds every criterion. -/
theorem run_events (S : Schema R) (ps : List Place) :
    ∀ b : Bindings R,
      (∀ e, Place.firstFault? S b.parameters ps = some e →
        ∃ b', forM (ps.flatMap Place.events) (Event.step (element S)) b = .error e b') ∧
      (Place.firstFault? S b.parameters ps = none →
        ∃ b', forM (ps.flatMap Place.events) (Event.step (element S)) b = .ok () b' ∧
          Bindings.Filled S b b' (ps.map Place.criterion)) := by
  induction ps with
  | nil =>
      intro b
      refine ⟨by simp [Place.firstFault?], fun _ => ⟨b, rfl, Bindings.Filled.nil S b⟩⟩
  | cons p rest ih =>
      intro b
      rw [List.flatMap_cons, Place.events, List.cons_append, List.forM_cons,
        Walk.bind_apply, Event.step, Walk.effect_apply, Place.firstFault?, Place.fault?]
      cases hrefusal : p.criterion.refusal? S b.parameters with
      | some e =>
          rw [element_apply_of_refused hrefusal]
          refine ⟨?_, by simp⟩
          intro e' he
          obtain rfl := Option.some.inj he
          exact ⟨b, rfl⟩
      | none =>
          obtain ⟨b₁, helement, hfilled⟩ := element_apply_of_not_refused hrefusal
          rw [helement]
          by_cases hleading : p.opens = true ∧ p.criterion.combinator = .or
          · have hlack : lacking (p.opens && p.criterion.combinator == .or) p.group =
                [.lack p.group] := by
              simp [lacking, hleading]
            simp only [if_pos hleading, hlack]
            refine ⟨?_, by simp⟩
            intro e he
            obtain rfl := Option.some.inj he
            exact ⟨b₁, rfl⟩
          · have hlack : lacking (p.opens && p.criterion.combinator == .or) p.group = [] := by
              simpa [lacking] using hleading
            have hparameters : b.parameters ++ [p.criterion.field] = b₁.parameters := by
              rw [hfilled.parameters]
              rfl
            simp only [if_neg hleading, hlack, List.nil_append, hparameters]
            obtain ⟨herror, hok⟩ := ih b₁
            refine ⟨herror, ?_⟩
            intro hnone
            obtain ⟨b₂, hrun, hrest⟩ := hok hnone
            exact ⟨b₂, hrun, hfilled.cons hrest⟩

/-- The places of a filter. -/
def places (cs : List Criterion) : List Place :=
  Place.ofList .topLevel true cs

theorem eq_of_element
    {S : Schema R} {c : Criterion} {b b' : Bindings R} {own : Option (Expression Condition)}
    (h : element S c b = .ok own b') : own = some (.leaf ⟨c.field, c.comparison⟩) := by
  cases hrefusal : c.refusal? S b.parameters with
  | some e => simp [element_apply_of_refused hrefusal] at h
  | none =>
      obtain ⟨_, helement, _⟩ := element_apply_of_not_refused hrefusal
      rw [helement] at h
      cases h
      rfl

theorem isSome_of_element (S : Schema R) :
    ∀ c b own b', element S c b = .ok own b' → own.isSome = true := by
  intro c b own b' hown
  rw [eq_of_element hown, Option.isSome_some]

theorem effect_combine (S : Schema R) {cs : List Criterion} (hne : cs ≠ []) :
    (combine (element S) cs).effect =
      forM ((places cs).flatMap Place.events) (Event.step (element S)) := by
  rw [places, ← Place.schedule_eq_flatMap_events cs .topLevel true fun _ => hne]
  exact effect_combineOnto (isSome_of_element S) cs .topLevel []

theorem generate_nil (options : ClauseOptions) (S : Schema R) :
    generate options S [] = .error (.emptyCombination .topLevel) := by
  rfl

/-- A filter that is not empty gives a query clause unless a place is at fault, and then
fails with the first fault. -/
theorem generate_of_firstFault?
    (options : ClauseOptions) (S : Schema R) {cs : List Criterion} (hne : cs ≠ []) :
    (∀ e, Place.firstFault? S [] (places cs) = some e → generate options S cs = .error e) ∧
      (Place.firstFault? S [] (places cs) = none →
        ∃ q, generate options S cs = .ok q ∧
          Bindings.Filled S (.initial R) q.bindings (preorder cs)) := by
  obtain ⟨herror, hok⟩ := run_events S (places cs) (.initial R)
  rw [← effect_combine S hne] at herror hok
  constructor
  · intro e he
    obtain ⟨b, hwalk⟩ := herror e he
    exact Walk.map_outcome_eq_error.mpr ⟨b, Walk.effect_eq_error.mp hwalk⟩
  · intro hnone
    obtain ⟨b, hwalk, hfilled⟩ := hok hnone
    obtain ⟨expression, hwalk⟩ := Walk.effect_eq_ok.mp hwalk
    refine ⟨⟨options, expression, b⟩, ?_, ?_⟩
    · exact Walk.map_outcome_eq_ok.mpr ⟨expression, b, hwalk, rfl⟩
    · rwa [places, Place.map_criterion_ofList] at hfilled

theorem forall_places_iff {cs : List Criterion} {property : Criterion → Prop} :
    (∀ p ∈ places cs, property p.criterion) ↔ ∀ c ∈ preorder cs, property c := by
  rw [← Place.map_criterion_ofList .topLevel true cs, List.forall_mem_map]
  rfl

theorem exists_generate_iff {options : ClauseOptions} {S : Schema R} {cs : List Criterion} :
    (∃ q, generate options S cs = .ok q) ↔
      cs ≠ [] ∧ (∀ g ∈ groups cs, ∀ c, g.head? = some c → c.combinator ≠ .or) ∧
        (∀ c ∈ preorder cs, c.resolves S = true) ∧
        ((preorder cs).map Criterion.field).Nodup ∧
        ∀ c ∈ preorder cs, c.Fits S := by
  by_cases hne : cs = []
  · subst hne
    simp [generate_nil]
  · obtain ⟨herror, hok⟩ := generate_of_firstFault? options S hne
    have hfault : (∃ q, generate options S cs = .ok q) ↔
        Place.firstFault? S [] (places cs) = none := by
      cases hfirst : Place.firstFault? S [] (places cs) with
      | none =>
          obtain ⟨q, hq, -⟩ := hok hfirst
          simp [hq]
      | some e => simp [herror e hfirst]
    have hnames : ((places cs).map fun p => p.criterion.field) =
        (preorder cs).map Criterion.field := by
      rw [← Place.map_criterion_ofList .topLevel true cs, List.map_map]
      rfl
    have hopening :
        (∀ g ∈ groups cs, ∀ c, g.head? = some c → c.combinator ≠ .or) ↔
          ∀ p ∈ places cs, ¬ (p.opens = true ∧ p.criterion.combinator = .or) := by
      rw [places, Place.opens_and_or_iff, forall_groups_iff]
      constructor
      · rintro ⟨htop, hbelow⟩
        refine ⟨fun _ => htop, ?_⟩
        intro c hc d hd
        refine hbelow c hc ?_ d hd
        intro hnil
        simp [hnil] at hd
      · rintro ⟨htop, hbelow⟩
        exact ⟨htop rfl, fun c hc _ => hbelow c hc⟩
    rw [hfault, Place.firstFault?_eq_none_iff, hnames, hopening, ← forall_places_iff,
      ← forall_places_iff]
    constructor
    · rintro ⟨hall, -, hnodup⟩
      exact ⟨hne, fun p hp => (hall p hp).2.2, fun p hp => (hall p hp).1, hnodup,
        fun p hp => (hall p hp).2.1⟩
    · rintro ⟨-, hleading, hresolves, hnodup, hfits⟩
      exact ⟨fun p hp => ⟨hresolves p hp, hfits p hp, hleading p hp⟩, by simp, hnodup⟩

/-- A query clause is generated exactly if the filter is not empty, no group begins with a
criterion joined by OR, every field exists and is named once, and every criterion fits.
Otherwise the empty filter has nothing to combine, and any other one fails with the fault
of its first place at fault in preorder. -/
theorem generate_succeeds_iff_and_errors
    (options : ClauseOptions) (S : Schema R) (cs : List Criterion) :
    ((∃ q, generate options S cs = .ok q) ↔
        cs ≠ [] ∧ (∀ g ∈ groups cs, ∀ c, g.head? = some c → c.combinator ≠ .or) ∧
          (∀ c ∈ preorder cs, c.resolves S = true) ∧
          ((preorder cs).map Criterion.field).Nodup ∧
          ∀ c ∈ preorder cs, c.Fits S) ∧
      (cs = [] → generate options S cs = .error (.emptyCombination .topLevel)) ∧
      (cs ≠ [] → ∀ e, generate options S cs = .error e ↔
        Place.firstFault? S [] (places cs) = some e) := by
  refine ⟨exists_generate_iff, ?_, ?_⟩
  · rintro rfl
    exact generate_nil options S
  · intro hne e
    obtain ⟨herror, hok⟩ := generate_of_firstFault? options S hne
    constructor
    · intro he
      cases hfirst : Place.firstFault? S [] (places cs) with
      | none =>
          obtain ⟨q, hq, -⟩ := hok hfirst
          rw [hq] at he
          cases he
      | some e' =>
          obtain rfl := Except.error.inj ((herror e' hfirst).symm.trans he)
          rfl
    · exact herror e

end QueryClause

end Criteria
