import Criteria.Proofs.Fitting
import Criteria.Schema.Positions
import Mathlib.Data.Finset.Card

/-!
# Registering fields

A schema is built by registering fields one after another, and a name may be registered any
number of times: each time the earlier field of that name is taken out, wherever it stands,
and the new one comes last.  So the schema consists of the registrations whose name is not
registered again, in the order in which they were made.  A field can then be looked up
through a table from names to positions, because no name stands at two of them.
-/

namespace Criteria

variable {R : RecordType}

/-- The name is registered at the position, and not again after it. -/
def LastAt (registered : List String) (name : String) (i : Nat) : Prop :=
  registered[i]? = some name ∧ name ∉ registered.drop (i + 1)

/-- The last registration of the first name comes before that of the second one. -/
def LastBefore (registered : List String) (first second : String) : Prop :=
  ∀ i j, LastAt registered first i → LastAt registered second j → i < j

section Positions

variable {first name : String} {rest : List String} {i : Nat}

theorem lastAt_cons_zero_iff : LastAt (first :: rest) name 0 ↔ first = name ∧ name ∉ rest := by
  simp [LastAt]

theorem lastAt_cons_succ_iff : LastAt (first :: rest) name (i + 1) ↔ LastAt rest name i := by
  simp [LastAt]

theorem LastAt.mem (h : LastAt rest name i) : name ∈ rest :=
  List.mem_of_getElem? h.1

/-- A name that is registered again is last registered there. -/
theorem LastAt.exists_of_mem (h : LastAt (first :: rest) name i) (hmem : name ∈ rest) :
    ∃ j, i = j + 1 ∧ LastAt rest name j := by
  cases i with
  | zero => exact absurd hmem (lastAt_cons_zero_iff.mp h).2
  | succ j => exact ⟨j, rfl, lastAt_cons_succ_iff.mp h⟩

theorem LastBefore.cons {second : String}
    (h : LastBefore rest name second) (hname : name ∈ rest) (hsecond : second ∈ rest) :
    LastBefore (first :: rest) name second := by
  intro i j hi hj
  obtain ⟨i, rfl, hi⟩ := hi.exists_of_mem hname
  obtain ⟨j, rfl, hj⟩ := hj.exists_of_mem hsecond
  exact Nat.succ_lt_succ (h i j hi hj)

theorem lastBefore_cons_self
    (hfirst : first ∉ rest) (hname : name ∈ rest) : LastBefore (first :: rest) first name := by
  intro i j hi hj
  obtain ⟨j, rfl, -⟩ := hj.exists_of_mem hname
  cases i with
  | zero => exact Nat.succ_pos j
  | succ i => exact absurd (lastAt_cons_succ_iff.mp hi).mem hfirst

end Positions

namespace Schema

/-! ## The registrations that stand -/

/-- The registrations whose name is not registered again. -/
def standing : List (Field R) → List (Field R)
  | [] => []
  | f :: rest => if f.name ∈ rest.map Field.name then standing rest else f :: standing rest

theorem standing_cons_of_mem
    {f : Field R} {rest : List (Field R)} (h : f.name ∈ rest.map Field.name) :
    standing (f :: rest) = standing rest := by
  rw [standing, if_pos h]

theorem standing_cons_of_not_mem
    {f : Field R} {rest : List (Field R)} (h : f.name ∉ rest.map Field.name) :
    standing (f :: rest) = f :: standing rest := by
  rw [standing, if_neg h]

/-- Of the fields of a schema, those stay whose name is not among the registered ones, and
the registrations that stand come after them. -/
theorem fields_foldl_register (fs : List (Field R)) :
    ∀ S : Schema R,
      (fs.foldl register S).fields =
        S.fields.filter (fun g => g.name ∉ fs.map Field.name) ++ standing fs := by
  induction fs with
  | nil =>
      intro S
      simp [standing]
  | cons f rest ih =>
      intro S
      have hfilter :
          (S.fields.filter fun g => g.name != f.name).filter
              (fun g => g.name ∉ rest.map Field.name) =
            S.fields.filter fun g => g.name ∉ (f :: rest).map Field.name := by
        rw [List.filter_filter]
        congr 1
        funext g
        by_cases hname : g.name = f.name <;> simp [hname]
      rw [List.foldl_cons, ih, register, List.filter_append, hfilter, List.append_assoc,
        List.filter_singleton]
      congr 1
      by_cases hagain : f.name ∈ rest.map Field.name
      · rw [standing_cons_of_mem hagain, decide_eq_false (not_not_intro hagain)]
        rfl
      · rw [standing_cons_of_not_mem hagain, decide_eq_true hagain]
        rfl

theorem fields_ofList (fs : List (Field R)) : (ofList fs).fields = standing fs :=
  fields_foldl_register fs (empty R)

theorem mem_map_name_standing_iff (fs : List (Field R)) {name : String} :
    name ∈ (standing fs).map Field.name ↔ name ∈ fs.map Field.name := by
  induction fs with
  | nil => simp [standing]
  | cons f rest ih =>
      by_cases hagain : f.name ∈ rest.map Field.name
      · rw [standing_cons_of_mem hagain, ih, List.map_cons, List.mem_cons]
        constructor
        · exact .inr
        · rintro (rfl | hrest)
          · exact hagain
          · exact hrest
      · rw [standing_cons_of_not_mem hagain, List.map_cons, List.map_cons, List.mem_cons,
          List.mem_cons, ih]

/-- The registrations that stand are in the order in which they were made. -/
theorem pairwise_lastBefore_standing (fs : List (Field R)) :
    ((standing fs).map Field.name).Pairwise (LastBefore (fs.map Field.name)) := by
  induction fs with
  | nil => simp [standing]
  | cons f rest ih =>
      have hrest :
          ((standing rest).map Field.name).Pairwise
            (LastBefore (f.name :: rest.map Field.name)) := by
        refine ih.imp_of_mem ?_
        intro first second hfirst hsecond h
        rw [mem_map_name_standing_iff] at hfirst hsecond
        exact h.cons hfirst hsecond
      by_cases hagain : f.name ∈ rest.map Field.name
      · rw [standing_cons_of_mem hagain]
        exact hrest
      · rw [standing_cons_of_not_mem hagain]
        refine List.pairwise_cons.mpr ⟨?_, hrest⟩
        intro name hname
        rw [mem_map_name_standing_iff] at hname
        exact lastBefore_cons_self hagain hname

theorem mem_standing_iff (fs : List (Field R)) {f : Field R} :
    f ∈ standing fs ↔ ∃ i, fs[i]? = some f ∧ LastAt (fs.map Field.name) f.name i := by
  induction fs with
  | nil => simp [standing]
  | cons g rest ih =>
      constructor
      · intro h
        by_cases hagain : g.name ∈ rest.map Field.name
        · rw [standing_cons_of_mem hagain, ih] at h
          obtain ⟨i, hi, hlast⟩ := h
          exact ⟨i + 1, hi, lastAt_cons_succ_iff.mpr hlast⟩
        · rw [standing_cons_of_not_mem hagain, List.mem_cons, ih] at h
          rcases h with rfl | ⟨i, hi, hlast⟩
          · exact ⟨0, rfl, lastAt_cons_zero_iff.mpr ⟨rfl, hagain⟩⟩
          · exact ⟨i + 1, hi, lastAt_cons_succ_iff.mpr hlast⟩
      · rintro ⟨i, hi, hlast⟩
        cases i with
        | zero =>
            obtain rfl : g = f := Option.some.inj hi
            rw [standing_cons_of_not_mem (lastAt_cons_zero_iff.mp hlast).2]
            exact List.mem_cons_self
        | succ i =>
            have hrest : f ∈ standing rest := ih.mpr ⟨i, hi, lastAt_cons_succ_iff.mp hlast⟩
            by_cases hagain : g.name ∈ rest.map Field.name
            · rwa [standing_cons_of_mem hagain]
            · rw [standing_cons_of_not_mem hagain]
              exact List.mem_cons_of_mem g hrest

/-! ## Looking up names -/

theorem resolve_eq_some_iff {S : Schema R} {name : String} {f : Field R} :
    S.resolve name = some f ↔ f ∈ S.fields ∧ f.name = name := by
  constructor
  · intro h
    exact ⟨mem_of_resolve h, name_of_resolve h⟩
  · rintro ⟨hf, rfl⟩
    have hsome : (S.resolve f.name).isSome :=
      List.find?_isSome.mpr ⟨f, hf, beq_self_eq_true f.name⟩
    obtain ⟨g, hg⟩ := Option.isSome_iff_exists.mp hsome
    obtain rfl : g = f :=
      List.inj_on_of_nodup_map S.names_nodup (mem_of_resolve hg) hf (name_of_resolve hg)
    exact hg

/-- Looking a name up in the table gives the field of that name. -/
theorem resolve_eq_positions (S : Schema R) (name : String) :
    S.resolve name = S.positions[name]?.bind fun i => S.fields[i]? := by
  apply Option.ext
  intro f
  rw [resolve_eq_some_iff, Option.bind_eq_some_iff]
  simp only [positions_eq_some_iff, names, List.getElem?_map, Option.map_eq_some_iff]
  constructor
  · rintro ⟨hf, hname⟩
    obtain ⟨i, hi⟩ := List.mem_iff_getElem?.mp hf
    exact ⟨i, ⟨f, hi, hname⟩, hi⟩
  · rintro ⟨i, ⟨g, hg, hname⟩, hi⟩
    obtain rfl : g = f := Option.some.inj (hg.symm.trans hi)
    exact ⟨List.mem_of_getElem? hi, hname⟩

/-- A schema lists the names that were registered, each once and in the order of their last
registrations, and so it has as many fields as there are names.  A name resolves exactly if
it was registered, to the field of its last registration, and this is the field that stands
at the position of the name. -/
theorem ofList_keeps_last_registrations (fs : List (Field R)) :
    ((ofList fs).names.Nodup ∧
        (∀ name, name ∈ (ofList fs).names ↔ name ∈ fs.map Field.name) ∧
        (ofList fs).names.Pairwise (LastBefore (fs.map Field.name))) ∧
      (ofList fs).fields.length = (fs.map Field.name).toFinset.card ∧
      ∀ name,
        ((∃ f, (ofList fs).resolve name = some f) ↔ name ∈ fs.map Field.name) ∧
        (∀ f, (ofList fs).resolve name = some f ↔
          f.name = name ∧ ∃ i, fs[i]? = some f ∧ LastAt (fs.map Field.name) name i) ∧
        (∀ i, (ofList fs).positions[name]? = some i ↔ (ofList fs).names[i]? = some name) ∧
        (ofList fs).resolve name =
          (ofList fs).positions[name]?.bind fun i => (ofList fs).fields[i]? := by
  have hmem : ∀ name, name ∈ (ofList fs).names ↔ name ∈ fs.map Field.name := by
    intro name
    rw [names, fields_ofList, mem_map_name_standing_iff]
  have hnodup : (ofList fs).names.Nodup := (ofList fs).names_nodup
  refine ⟨⟨hnodup, hmem, ?_⟩, ?_, ?_⟩
  · rw [names, fields_ofList]
    exact pairwise_lastBefore_standing fs
  · have hnames : (fs.map Field.name).toFinset = (ofList fs).names.toFinset := by
      apply Finset.ext
      intro name
      rw [List.mem_toFinset, List.mem_toFinset, hmem]
    rw [hnames, List.toFinset_card_of_nodup hnodup, names, List.length_map]
  · intro name
    refine ⟨?_, ?_, fun i => positions_eq_some_iff, resolve_eq_positions _ name⟩
    · rw [← hmem, names, List.mem_map]
      simp only [resolve_eq_some_iff]
    · intro f
      rw [resolve_eq_some_iff, fields_ofList, mem_standing_iff]
      constructor
      · rintro ⟨hlast, rfl⟩
        exact ⟨rfl, hlast⟩
      · rintro ⟨rfl, hlast⟩
        exact ⟨hlast, rfl⟩

example :
    (ofList (R := parcels)
      [⟨"x", (0 : Fin 2)⟩, ⟨"y", (0 : Fin 2)⟩, ⟨"x", (1 : Fin 2)⟩]).fields =
      [⟨"y", (0 : Fin 2)⟩, ⟨"x", (1 : Fin 2)⟩] := by
  decide

end Schema

end Criteria
