import Criteria.Filter.Builder

/-!
# Filters that are built step by step

Appending a criterion adds it behind the others of its group and leaves all else where it was:
the new criterion stands under the handle that is given back, and what stood under another
handle before still does.  Appending below a criterion that was appended itself has the same
effect as appending it with one more child.  So a filter that is written down criterion by
criterion, each by the call for its combinator and below the handle of its parent, is the
filter that was to be written.
-/

namespace Criteria

namespace Criterion

/-! ## One append -/

theorem appendAt?_nil_eq_some {c : Criterion} {own : Handle} {cs cs' : List Criterion} :
    c.appendAt? [] cs = some (cs', own) ↔ cs ++ [c] = cs' ∧ [cs.length] = own := by
  simp [appendAt?]

theorem appendAt?_cons_eq_some
    {c : Criterion} {place : Nat} {path own : Handle} {cs cs' : List Criterion} :
    c.appendAt? (place :: path) cs = some (cs', own) ↔
      ∃ parent children below, cs[place]? = some parent ∧
        c.appendAt? path parent.children = some (children, below) ∧
        cs.set place { parent with children := children } = cs' ∧ place :: below = own := by
  rw [appendAt?]
  cases cs[place]? <;> simp

theorem ne_nil_of_find? {handle : Handle} {cs : List Criterion} {d : Criterion}
    (h : find? handle cs = some d) : handle ≠ [] := by
  rintro rfl
  simp [find?] at h

theorem find?_cons (place : Nat) {path : Handle} (hpath : path ≠ []) (cs : List Criterion) :
    find? (place :: path) cs = cs[place]?.bind fun c => find? path c.children := by
  cases path with
  | nil => exact absurd rfl hpath
  | cons => rfl

theorem find?_cons_congr {place : Nat} {cs cs' : List Criterion} (path : Handle)
    (h : cs'[place]? = cs[place]?) : find? (place :: path) cs' = find? (place :: path) cs := by
  cases path with
  | nil => exact h
  | cons => rw [find?_cons place (by simp), find?_cons place (by simp), h]

theorem lt_length_of_find? {place : Nat} {path : Handle} {cs : List Criterion} {d : Criterion}
    (h : find? (place :: path) cs = some d) : place < cs.length := by
  apply Nat.lt_of_not_le
  intro hlength
  have hnone : cs[place]? = [][place]? := List.getElem?_eq_none hlength
  rw [find?_cons_congr path hnone] at h
  cases path <;> simp [find?] at h

/-- Whether a group is found, and the handle that is given back, do not depend on the criterion. -/
theorem map_snd_appendAt? (c d : Criterion) (path : Handle) :
    ∀ cs, (c.appendAt? path cs).map Prod.snd = (d.appendAt? path cs).map Prod.snd := by
  induction path with
  | nil =>
      intro cs
      rfl
  | cons place path ih =>
      intro cs
      rw [appendAt?, appendAt?]
      cases cs[place]? with
      | none => rfl
      | some parent =>
          have hbelow := congrArg (Option.map (List.cons place)) (ih parent.children)
          simpa [Function.comp_def] using hbelow

/-- The new criterion stands under its own handle, which leads through its group. -/
theorem find?_own_of_appendAt? {c : Criterion} (path : Handle) :
    ∀ {cs cs' : List Criterion} {own : Handle}, c.appendAt? path cs = some (cs', own) →
      (∃ last, own = path ++ [last]) ∧ find? own cs' = some c := by
  induction path with
  | nil =>
      intro cs cs' own h
      obtain ⟨rfl, rfl⟩ := appendAt?_nil_eq_some.mp h
      exact ⟨⟨cs.length, rfl⟩, by simp [find?]⟩
  | cons place path ih =>
      intro cs cs' own h
      obtain ⟨parent, children, below, hparent, hbelow, rfl, rfl⟩ :=
        appendAt?_cons_eq_some.mp h
      obtain ⟨⟨last, rfl⟩, hfound⟩ := ih hbelow
      obtain ⟨hplace, -⟩ := List.getElem?_eq_some_iff.mp hparent
      refine ⟨⟨last, rfl⟩, ?_⟩
      rw [find?_cons place (by simp), List.getElem?_set_self hplace]
      exact hfound

/-- A criterion that stood in the filter stands there still.  It is the same criterion as before,
or the new one stands below it, and then it differs in its children only. -/
theorem find?_other_of_appendAt? {c : Criterion} (path : Handle) :
    ∀ {cs cs' : List Criterion} {own : Handle}, c.appendAt? path cs = some (cs', own) →
      ∀ {handle : Handle} {d : Criterion}, find? handle cs = some d →
        ∃ d', find? handle cs' = some d' ∧
          (d' = d ∨ handle <+: path ∧ d' = { d with children := d'.children }) := by
  induction path with
  | nil =>
      intro cs cs' own h handle d hd
      obtain ⟨rfl, rfl⟩ := appendAt?_nil_eq_some.mp h
      obtain ⟨q, rest, rfl⟩ := List.exists_cons_of_ne_nil (ne_nil_of_find? hd)
      refine ⟨d, ?_, .inl rfl⟩
      rw [find?_cons_congr rest (List.getElem?_append_left (lt_length_of_find? hd))]
      exact hd
  | cons place path ih =>
      intro cs cs' own h handle d hd
      obtain ⟨parent, children, below, hparent, hbelow, rfl, rfl⟩ :=
        appendAt?_cons_eq_some.mp h
      obtain ⟨q, rest, rfl⟩ := List.exists_cons_of_ne_nil (ne_nil_of_find? hd)
      by_cases hq : q = place
      · subst hq
        have hset := List.getElem?_set_self (a := { parent with children := children })
          (lt_length_of_find? hd)
        by_cases hrest : rest = []
        · subst hrest
          obtain rfl := Option.some.inj (hparent.symm.trans hd)
          exact ⟨_, hset, .inr ⟨List.prefix_append [q] path, rfl⟩⟩
        · rw [find?_cons q hrest, hparent] at hd
          obtain ⟨d', hfound, hkept⟩ := ih hbelow hd
          refine ⟨d', ?_, ?_⟩
          · rw [find?_cons q hrest, hset]
            exact hfound
          · rw [List.cons_prefix_cons]
            simpa using hkept
      · refine ⟨d, ?_, .inl rfl⟩
        rw [find?_cons_congr rest (List.getElem?_set_ne (Ne.symm hq))]
        exact hd

/-- Appending below a criterion that was just appended has the effect of appending it with one
more child. -/
theorem appendAt?_own {c : Criterion} (d : Criterion) (path : Handle) :
    ∀ {cs cs' : List Criterion} {own : Handle}, c.appendAt? path cs = some (cs', own) →
      ∃ cs'' below,
        d.appendAt? own cs' = some (cs'', below) ∧
        appendAt? { c with children := c.children ++ [d] } path cs = some (cs'', own) := by
  induction path with
  | nil =>
      intro cs cs' own h
      obtain ⟨rfl, rfl⟩ := appendAt?_nil_eq_some.mp h
      refine ⟨cs ++ [{ c with children := c.children ++ [d] }], [cs.length, c.children.length],
        ?_, rfl⟩
      apply appendAt?_cons_eq_some.mpr
      refine ⟨c, c.children ++ [d], [c.children.length], by simp, rfl, by simp, rfl⟩
  | cons place path ih =>
      intro cs cs' own h
      obtain ⟨parent, children, below, hparent, hbelow, rfl, rfl⟩ :=
        appendAt?_cons_eq_some.mp h
      obtain ⟨children', lower, hlower, hmore⟩ := ih hbelow
      obtain ⟨hplace, -⟩ := List.getElem?_eq_some_iff.mp hparent
      refine ⟨cs.set place { parent with children := children' }, place :: lower, ?_, ?_⟩
      · apply appendAt?_cons_eq_some.mpr
        exact ⟨_, children', lower, List.getElem?_set_self hplace, hlower, by simp, rfl⟩
      · apply appendAt?_cons_eq_some.mpr
        exact ⟨parent, children', below, hparent, hmore, rfl, rfl⟩

end Criterion

namespace Filter

theorem append?_eq_some_iff {F F' : Filter} {group own : Handle} {c : Criterion} :
    F.append? group c = some (F', own) ↔
      c.appendAt? group F.criteria = some (F'.criteria, own) := by
  obtain ⟨criteria⟩ := F'
  simp [append?, Filter.mk.injEq]

/-- Whether a criterion can be appended depends on the handle of its group only. -/
theorem append?_eq_none_of_append?
    {F : Filter} {group : Handle} {c : Criterion} (d : Criterion)
    (h : F.append? group c = none) : F.append? group d = none := by
  rw [append?, Option.map_eq_none_iff] at h ⊢
  have hsame := Criterion.map_snd_appendAt? c d group F.criteria
  rw [h, Option.map_none] at hsame
  exact Option.map_eq_none_iff.mp hsame.symm

theorem append?_own
    {F F' : Filter} {group own : Handle} {c : Criterion} (d : Criterion)
    (h : F.append? group c = some (F', own)) :
    ∃ F'' below, F'.append? own d = some (F'', below) ∧
      F.append? group { c with children := c.children ++ [d] } = some (F'', own) := by
  simp only [append?_eq_some_iff] at h ⊢
  obtain ⟨criteria, below, hbelow, hmore⟩ := Criterion.appendAt?_own d group h
  exact ⟨⟨criteria⟩, below, hbelow, hmore⟩

/-! ## Step by step -/

mutual

/-- Calls `add?` or `or?` for a criterion, as its combinator demands, and then replays its
children one after another below the handle that the call gives back. -/
def replay? (F : Filter) (group : Handle) : Criterion → Option Filter
  | ⟨.and, field, comparison, value, children⟩ =>
    (F.add? group field comparison value).bind fun appended =>
      replayAll? appended.1 appended.2 children
  | ⟨.or, field, comparison, value, children⟩ =>
    (F.or? group field comparison value).bind fun appended =>
      replayAll? appended.1 appended.2 children
termination_by structural c => c

/-- Replays criteria in a group one after another. -/
def replayAll? (F : Filter) (group : Handle) : List Criterion → Option Filter
  | [] => some F
  | c :: rest => (replay? F group c).bind fun F => replayAll? F group rest
termination_by structural cs => cs

end

/-- The call for a combinator appends a criterion with that combinator. -/
theorem replay?_mk (F : Filter) (group : Handle) (combinator : Combinator) (field : String)
    (comparison : Comparison) (value : Value) (children : List Criterion) :
    F.replay? group ⟨combinator, field, comparison, value, children⟩ =
      (F.append? group (.single combinator field comparison value)).bind fun appended =>
        replayAll? appended.1 appended.2 children := by
  cases combinator with
  | and => rw [replay?, add?]
  | or => rw [replay?, or?]

/-- Replaying criteria below one that was just appended has the effect of appending it with
these children behind its own. -/
theorem replayAll?_own (cs : List Criterion) :
    ∀ {F F' : Filter} {group own : Handle} {c : Criterion},
      F.append? group c = some (F', own) →
        F'.replayAll? own cs =
          (F.append? group { c with children := c.children ++ cs }).map Prod.fst := by
  induction cs using Criterion.list_induction with
  | nil =>
      intro F F' group own c h
      obtain ⟨_, _, _, _, children⟩ := c
      simp only [List.append_nil, h]
      rfl
  | cons combinator field comparison value children rest hchildren hrest =>
      intro F F' group own c h
      obtain ⟨F₁, below, hsingle, -⟩ :=
        append?_own (.single combinator field comparison value) h
      obtain ⟨F₂, below', hwhole, hmore⟩ :=
        append?_own ⟨combinator, field, comparison, value, children⟩ h
      -- The criterion is appended without its children, and those are replayed below it.
      have hstep : F'.replay? own ⟨combinator, field, comparison, value, children⟩ = some F₂ := by
        rw [replay?_mk, hsingle, Option.bind_some, hchildren hsingle]
        exact congrArg (Option.map Prod.fst) hwhole
      rw [replayAll?, hstep, Option.bind_some, hrest hmore, List.append_assoc]
      rfl

/-- Replaying a criterion has the effect of appending it together with its children. -/
theorem replay?_eq (F : Filter) (group : Handle) (c : Criterion) :
    F.replay? group c = (F.append? group c).map Prod.fst := by
  obtain ⟨combinator, field, comparison, value, children⟩ := c
  rw [replay?_mk]
  cases hsingle : F.append? group (.single combinator field comparison value) with
  | none => rw [append?_eq_none_of_append? _ hsingle, Option.bind_none, Option.map_none]
  | some appended => exact replayAll?_own children hsingle

theorem replayAll?_topLevel (cs : List Criterion) :
    ∀ F : Filter, F.replayAll? [] cs = some ⟨F.criteria ++ cs⟩ := by
  induction cs with
  | nil =>
      intro F
      rw [replayAll?, List.append_nil]
  | cons c rest ih =>
      intro F
      rw [replayAll?, replay?_eq]
      change replayAll? ⟨F.criteria ++ [c]⟩ [] rest = _
      rw [ih, List.append_assoc]
      rfl

/-- Calling `add?` or `or?` for a criterion of the top level, and in the same way for all that
stands below it, appends it as it is behind the criteria that are there, and the same calls in
any other group do the same there.  A call gives back a handle that leads through the group to
the new criterion.  Whatever stood in the filter stands there still under the same handle, and
at most the children of criteria on the way to the group differ.  So the calls for all criteria
of a filter, made on the empty one, give the filter. -/
theorem replays_append_and_rebuild (F : Filter) :
    (∀ c, F.replay? [] c = some ⟨F.criteria ++ [c]⟩) ∧
    (∀ group c, F.replay? group c = (F.append? group c).map Prod.fst) ∧
    (∀ group c F' own, F.append? group c = some (F', own) →
      (∃ last, own = group ++ [last]) ∧ F'.at? own = some c ∧
        ∀ handle d, F.at? handle = some d → ∃ d', F'.at? handle = some d' ∧
          (d' = d ∨ handle <+: group ∧ d' = { d with children := d'.children })) ∧
    ∀ G : Filter, empty.replayAll? [] G.criteria = some G := by
  refine ⟨fun c => F.replay?_eq [] c, F.replay?_eq, ?_, ?_⟩
  · intro group c F' own h
    rw [append?_eq_some_iff] at h
    obtain ⟨hown, hfound⟩ := Criterion.find?_own_of_appendAt? group h
    refine ⟨hown, hfound, ?_⟩
    intro handle d hd
    exact Criterion.find?_other_of_appendAt? group h hd
  · intro G
    exact replayAll?_topLevel G.criteria empty

/-- Things of which the number is 1, or which have a note on glass or on lead. -/
def firstOrNoted : Filter :=
  ⟨[⟨.and, "number", .equal, .bool true,
      [⟨.and, "note", .contains, .text "glass", []⟩, ⟨.or, "note", .contains, .text "lead", []⟩]⟩]⟩

theorem replays_append_and_rebuild_firstOrNoted :
    let c : Criterion := .single .or "fragile" .equal (.bool true)
    (∃ F' own, firstOrNoted.or? [0, 1] "fragile" .equal (.bool true) = some (F', own) ∧
      (∃ last, own = [0, 1] ++ [last]) ∧ F'.at? own = some c ∧
      ∃ d d', firstOrNoted.at? [0, 0] = some d ∧ F'.at? [0, 0] = some d' ∧
        (d' = d ∨ [0, 0] <+: [0, 1] ∧ d' = { d with children := d'.children })) ∧
    empty.replayAll? [] firstOrNoted.criteria = some firstOrNoted := by
  intro c
  obtain ⟨-, -, hundisturbed, hrebuild⟩ := replays_append_and_rebuild firstOrNoted
  obtain ⟨F', own, happend⟩ :
      ∃ F' own, firstOrNoted.or? [0, 1] "fragile" .equal (.bool true) = some (F', own) :=
    ⟨_, _, rfl⟩
  obtain ⟨d, hd⟩ : ∃ d, firstOrNoted.at? [0, 0] = some d := ⟨_, rfl⟩
  obtain ⟨hown, hfound, hothers⟩ := hundisturbed [0, 1] c F' own happend
  obtain ⟨d', hd', hkept⟩ := hothers [0, 0] d hd
  exact ⟨⟨F', own, happend, hown, hfound, d, d', hd, hd', hkept⟩, hrebuild firstOrNoted⟩

end Filter

end Criteria
