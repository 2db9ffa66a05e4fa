import Criteria.Clause
import Criteria.Proofs.Combination.Lockstep
import Criteria.Proofs.Expression
import Criteria.Proofs.Fitting

/-!
# The calls of a walk

A walk over a filter asks for the elements of its criteria by calls of a function that may keep
a state and may fail.  This module says which calls are made: those that are made when the
criteria are asked one after another in preorder, up to the first failure or up to the place
where the walk finds nothing to combine.  The answers are all that the walk learns from its
calls, so it ends alike when they are played back to it, and it commutes with every map
that keeps the connectives.
-/

namespace Criteria

namespace Walk

variable {σ α : Type}

/-- A run that ends with a log beside its state. -/
def withLog {l : Type} (log : l) :
    EStateM.Result FilterError σ α → EStateM.Result FilterError (l × σ) α
  | .ok a s => .ok a (log, s)
  | .error e s => .error e (log, s)

end Walk

namespace Combination

open Walk

variable {σ ε : Type}

/-- A criterion that was asked for its element, and the answer. -/
structure Call (ε : Type) where
  criterion : Criterion
  answer : Except FilterError (Option ε)

/-- The call was answered and did not fail. -/
def Call.Answered (call : Call ε) : Prop :=
  ∃ own, call.answer = .ok own

/-- The function that also writes down its calls, the last one at the end. -/
def logged (element : Criterion → Walk σ (Option ε)) (c : Criterion) :
    Walk (List (Call ε) × σ) (Option ε) := fun (calls, s) =>
  match element c s with
  | .ok own s => .ok own (calls ++ [⟨c, .ok own⟩], s)
  | .error e s => .error e (calls ++ [⟨c, .error e⟩], s)

/-- The calls made when criteria are asked one after another up to the first failure, and the
state after them. -/
def record (element : Criterion → Walk σ (Option ε)) : List Criterion → σ → List (Call ε) × σ
  | [], s => ([], s)
  | c :: rest, s =>
    match element c s with
    | .ok own s => (record element rest s).map (List.cons ⟨c, .ok own⟩) id
    | .error e s => ([⟨c, .error e⟩], s)

/-- Gives recorded answers one after another, whichever criterion is asked. -/
def playback (_ : Criterion) : Walk (List (Except FilterError (Option ε))) (Option ε)
  | [] => .ok none []
  | .ok own :: later => .ok own later
  | .error e :: later => .error e later

variable {element : Criterion → Walk σ (Option ε)} {all : List Criterion} {start : σ}

/-! ## What the calls have in common with a record -/

/-- After these calls a walk has asked all criteria but those that are still to do, none of
which failed, and it goes on as the record of all criteria does. -/
structure Asked
    (element : Criterion → Walk σ (Option ε)) (all : List Criterion) (start : σ)
    (calls : List (Call ε)) (todo : List Criterion) (s : σ) : Prop where
  criteria : calls.map Call.criterion ++ todo = all
  recorded : record element all start = (record element todo s).map (calls ++ ·) id
  answered : ∀ call ∈ calls, call.Answered

/-- A walk that fails after these calls has asked the first ones of all criteria, as the record
has.  Either no call failed and there was nothing to combine, or the last call failed. -/
structure Halted
    (element : Criterion → Walk σ (Option ε)) (all : List Criterion) (start : σ)
    (calls : List (Call ε)) (e : FilterError) : Prop where
  criteria : calls.map Call.criterion <+: all
  recorded : calls <+: (record element all start).1
  cause : (∀ call ∈ calls, call.Answered) ∧ (∃ group, e = .emptyCombination group) ∨
    ∃ earlier c, calls = earlier ++ [⟨c, .error e⟩] ∧ ∀ call ∈ earlier, call.Answered

theorem Asked.nil
    (element : Criterion → Walk σ (Option ε)) (all : List Criterion) (start : σ) :
    Asked element all start [] all start where
  criteria := rfl
  recorded := rfl
  answered := by simp

theorem Asked.answer
    {calls : List (Call ε)} {c : Criterion} {todo : List Criterion} {own : Option ε} {s s' : σ}
    (h : Asked element all start calls (c :: todo) s) (hown : element c s = .ok own s') :
    Asked element all start (calls ++ [⟨c, .ok own⟩]) todo s' where
  criteria := by simpa using h.criteria
  recorded := by
    rw [h.recorded, record, hown]
    simp [Prod.map]
  answered := by
    intro call hcall
    rcases List.mem_append.mp hcall with hcall | hcall
    · exact h.answered call hcall
    · exact ⟨own, by rw [List.mem_singleton.mp hcall]⟩

theorem Asked.fail
    {calls : List (Call ε)} {c : Criterion} {todo : List Criterion} {e : FilterError} {s s' : σ}
    (h : Asked element all start calls (c :: todo) s) (hfail : element c s = .error e s') :
    Halted element all start (calls ++ [⟨c, .error e⟩]) e where
  criteria := ⟨todo, by simpa using h.criteria⟩
  recorded := by
    rw [h.recorded, record, hfail]
    exact List.prefix_rfl
  cause := .inr ⟨calls, c, rfl, h.answered⟩

theorem Asked.lack
    {calls : List (Call ε)} {todo : List Criterion} {s : σ}
    (h : Asked element all start calls todo s) (group : Group) :
    Halted element all start calls (.emptyCombination group) where
  criteria := ⟨todo, h.criteria⟩
  recorded := by
    rw [h.recorded]
    exact List.prefix_append _ _
  cause := .inl ⟨h.answered, group, rfl⟩

/-- Where nothing is left to do, the calls are those of the record. -/
theorem Asked.eq_record
    {calls : List (Call ε)} {s : σ} (h : Asked element all start calls [] s) :
    calls.map Call.criterion = all ∧ record element all start = (calls, s) := by
  constructor
  · simpa using h.criteria
  · simpa [record] using h.recorded

/-! ## Walks that are in lockstep -/

theorem lockstep_logged
    (element : Criterion → Walk σ (Option ε)) (all : List Criterion) (start : σ) :
    Lockstep id (fun todo s t => s = t.2 ∧ Asked element all start t.1 todo s)
      (fun e s t => s = t.2 ∧ Halted element all start t.1 e) element (logged element) where
  ask := by
    rintro c todo s ⟨calls, _⟩ ⟨rfl, hasked⟩
    rw [logged]
    cases hown : element c s with
    | ok own s' => exact .ok ⟨by simp, rfl, hasked.answer hown⟩
    | error e s' => exact .error ⟨rfl, hasked.fail hown⟩
  lack := by
    rintro group todo s ⟨calls, _⟩ ⟨rfl, hasked⟩
    exact ⟨rfl, hasked.lack group⟩

theorem lockstep_playback (element : Criterion → Walk σ (Option ε)) :
    Lockstep id (fun todo s answers => answers = (record element todo s).1.map Call.answer)
      (fun _ _ _ => True) element playback where
  ask := by
    rintro c todo s _ rfl
    rw [record]
    cases element c s with
    | ok own s' => exact .ok ⟨by simp, rfl⟩
    | error e s' => exact .error trivial
  lack := by simp

theorem lockstep_map {δ : Type} (f : ε → δ) (element : Criterion → Walk σ (Option ε)) :
    Lockstep f (fun _ s t => s = t) (fun _ s t => s = t) element
      (fun c => Option.map f <$> element c) where
  ask := by
    rintro c todo s _ rfl
    rw [map_eq_pure_bind, bind_apply]
    cases element c s with
    | ok own s' => exact .ok ⟨rfl, rfl⟩
    | error e s' => exact .error rfl
  lack := by
    rintro group todo s _ rfl
    rfl

variable [Connectives ε]

/-- A walk over a group can be watched without being disturbed, and its calls are the beginning
of what is recorded in preorder. -/
theorem exists_calls
    (element : Criterion → Walk σ (Option ε)) (group : Group) (cs : List Criterion) (s : σ) :
    ∃ calls,
      combineOnto (logged element) group [] cs ([], s) =
        withLog calls (combineOnto element group [] cs s) ∧
      (∀ e s', combineOnto element group [] cs s = .ok e s' →
        Asked element (Criterion.preorder cs) s calls [] s') ∧
      ∀ e s', combineOnto element group [] cs s = .error e s' →
        Halted element (Criterion.preorder cs) s calls e := by
  have hrun := (lockstep_logged element (Criterion.preorder cs) s).group preserves_id group cs
    s ([], s) ⟨rfl, Asked.nil element (Criterion.preorder cs) s⟩
  cases hwalk : combineOnto element group [] cs s with
  | ok e s' =>
      rw [hwalk] at hrun
      obtain ⟨_, ⟨calls, _⟩, hlogged, rfl, rfl, hasked⟩ := hrun.exists_of_ok
      refine ⟨calls, hlogged, ?_, by simp⟩
      rintro _ _ ⟨⟩
      exact hasked
  | error e s' =>
      rw [hwalk] at hrun
      obtain ⟨⟨calls, _⟩, hlogged, rfl, hhalted⟩ := hrun.exists_of_error
      refine ⟨calls, hlogged, by simp, ?_⟩
      rintro _ _ ⟨⟩
      exact hhalted

/-- The answers to its calls are all that a walk learns. -/
theorem outcome_playback
    (element : Criterion → Walk σ (Option ε)) (group : Group) (cs : List Criterion) (s : σ) :
    ((combineOnto playback group [] cs).outcome
        ((record element (Criterion.preorder cs) s).1.map Call.answer)).map Prod.fst =
      ((combineOnto element group [] cs).outcome s).map Prod.fst := by
  have hrun := (lockstep_playback element).group preserves_id group cs s _ rfl
  rw [outcome, outcome]
  cases hwalk : combineOnto element group [] cs s with
  | ok e s' =>
      rw [hwalk] at hrun
      obtain ⟨_, _, hplayed, rfl, -⟩ := hrun.exists_of_ok
      rw [hplayed]
      rfl
  | error e s' =>
      rw [hwalk] at hrun
      obtain ⟨_, hplayed, -⟩ := hrun.exists_of_error
      rw [hplayed]
      rfl

/-- A map that keeps the connectives can be applied to the elements or to the result. -/
theorem combineOnto_map
    {δ : Type} [Connectives δ] {f : ε → δ} (hf : Preserves f)
    (element : Criterion → Walk σ (Option ε)) (group : Group) (cs : List Criterion) :
    combineOnto (fun c => Option.map f <$> element c) group [] cs =
      f <$> combineOnto element group [] cs := by
  funext s
  have hrun := (lockstep_map f element).group hf group cs s s rfl
  rw [map_eq_pure_bind, bind_apply]
  cases hwalk : combineOnto element group [] cs s with
  | ok e s' =>
      rw [hwalk] at hrun
      obtain ⟨_, _, hmapped, rfl, rfl⟩ := hrun.exists_of_ok
      exact hmapped
  | error e s' =>
      rw [hwalk] at hrun
      obtain ⟨_, hmapped, rfl⟩ := hrun.exists_of_error
      exact hmapped

/-- A walk over a group calls the function for the criteria in preorder, from the first one on
and each of them once, with the answers that are recorded when the criteria are asked one after
another.  If it succeeds, it has asked all of them and leaves the state of the record; if it
fails, a call that failed was its last one and gave the error, or none failed and there was
nothing to combine.  With the recorded answers alone it ends with the same result or the same
error, and a map that keeps the connectives can be applied to the elements or to the result. -/
theorem combination_walks_preorder_uniformly
    (element : Criterion → Walk σ (Option ε)) (group : Group) (cs : List Criterion) :
    (∀ s, ∃ calls,
      combineOnto (logged element) group [] cs ([], s) =
        withLog calls (combineOnto element group [] cs s) ∧
      calls.map Call.criterion <+: Criterion.preorder cs ∧
      calls <+: (record element (Criterion.preorder cs) s).1 ∧
      (∀ e s', combineOnto element group [] cs s = .ok e s' →
        calls.map Call.criterion = Criterion.preorder cs ∧ (∀ call ∈ calls, call.Answered) ∧
          record element (Criterion.preorder cs) s = (calls, s')) ∧
      ∀ e s', combineOnto element group [] cs s = .error e s' →
        (∀ call ∈ calls, call.Answered) ∧ (∃ group, e = .emptyCombination group) ∨
          ∃ earlier c, calls = earlier ++ [⟨c, .error e⟩] ∧ ∀ call ∈ earlier, call.Answered) ∧
    (∀ s, ((combineOnto playback group [] cs).outcome
          ((record element (Criterion.preorder cs) s).1.map Call.answer)).map Prod.fst =
        ((combineOnto element group [] cs).outcome s).map Prod.fst) ∧
    ∀ (δ : Type) [Connectives δ] (f : ε → δ), Preserves f →
      combineOnto (fun c => Option.map f <$> element c) group [] cs =
      f <$> combineOnto element group [] cs := by
  refine ⟨?_, outcome_playback element group cs, ?_⟩
  · intro s
    obtain ⟨calls, hlogged, hok, herror⟩ := exists_calls element group cs s
    refine ⟨calls, hlogged, ?_⟩
    cases hwalk : combineOnto element group [] cs s with
    | ok e s' =>
        have hasked := hok e s' hwalk
        obtain ⟨hcriteria, hrecord⟩ := hasked.eq_record
        refine ⟨by simp [hcriteria], by simp [hrecord], ?_, by simp⟩
        rintro _ _ ⟨⟩
        exact ⟨hcriteria, hasked.answered, hrecord⟩
    | error e s' =>
        have hhalted := herror e s' hwalk
        refine ⟨hhalted.criteria, hhalted.recorded, by simp, ?_⟩
        rintro _ _ ⟨⟩
        exact hhalted.cause
  · intro δ _ f hf
    exact combineOnto_map hf element group cs

/-- Parcels with a note on glass, or of the number that the text spells. -/
def glassOrNumbered (number : String) : List Criterion :=
  [⟨.and, "note", .contains, .text "glass", [⟨.and, "number", .equal, .text number, []⟩]⟩]

theorem combination_walks_preorder_uniformly_glassOrNumbered :
    let element := QueryClause.element parcelSchema
    (∃ e b calls, combine element (glassOrNumbered " 7 ") (.initial parcels) = .ok e b ∧
      calls.map Call.criterion = Criterion.preorder (glassOrNumbered " 7 ") ∧
      (∀ call ∈ calls, call.Answered) ∧
      record element (Criterion.preorder (glassOrNumbered " 7 ")) (.initial parcels) =
        (calls, b)) ∧
    (∃ e b calls, combine element (glassOrNumbered "300") (.initial parcels) = .error e b ∧
      combine (logged element) (glassOrNumbered "300") ([], .initial parcels) =
        .error e (calls, b) ∧
      ((∀ call ∈ calls, call.Answered) ∧ (∃ group, e = .emptyCombination group) ∨
        ∃ earlier c, calls = earlier ++ [⟨c, .error e⟩] ∧ ∀ call ∈ earlier, call.Answered)) ∧
    Preserves (Expression.map Condition.comparison) ∧
      combine (fun c => Option.map (Expression.map Condition.comparison) <$> element c)
          (glassOrNumbered " 7 ") =
        Expression.map Condition.comparison <$> combine element (glassOrNumbered " 7 ") := by
  intro element
  obtain ⟨hcalls, -, hmap⟩ :=
    combination_walks_preorder_uniformly element .topLevel (glassOrNumbered " 7 ")
  obtain ⟨hcalls', -, -⟩ :=
    combination_walks_preorder_uniformly element .topLevel (glassOrNumbered "300")
  obtain ⟨e, b, hrun⟩ :
      ∃ e b, combine element (glassOrNumbered " 7 ") (.initial parcels) = .ok e b := ⟨_, _, rfl⟩
  obtain ⟨e', b', hrun'⟩ :
      ∃ e b, combine element (glassOrNumbered "300") (.initial parcels) = .error e b :=
    ⟨_, _, rfl⟩
  obtain ⟨calls, -, -, -, hok, -⟩ := hcalls (.initial parcels)
  obtain ⟨calls', hlogged', -, -, -, herror⟩ := hcalls' (.initial parcels)
  rw [← combine, ← combine, hrun'] at hlogged'
  have hpreserves : Preserves (Expression.map Condition.comparison) := Expression.preserves_map _
  exact ⟨⟨e, b, calls, hrun, hok e b hrun⟩, ⟨e', b', calls', hrun', hlogged', herror e' b' hrun'⟩,
    hpreserves, hmap _ _ hpreserves⟩

end Combination

end Criteria
