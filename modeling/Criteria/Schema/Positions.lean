import Criteria.Schema
import Mathlib.Data.List.Nodup

/-!
# Positions of fields

A schema can keep a table from the names of its fields to their positions, so that a lookup
need not search the fields. The table is filled from the first field to the last, and since
no two fields share a name, every name keeps the one position at which it stands.
-/

namespace Criteria

namespace Schema

variable {R : RecordType}

/-- The table from names to positions that lookups can go through. -/
def positions (S : Schema R) : Std.HashMap String Nat :=
  .ofList S.names.zipIdx

theorem positions_eq_some_iff {S : Schema R} {name : String} {i : Nat} :
    S.positions[name]? = some i ↔ S.names[i]? = some name := by
  have hkeys : S.names.zipIdx.map Prod.fst = S.names := List.zipIdx_map_fst 0 S.names
  have hfound : ∀ j, S.names[j]? = some name → S.positions[name]? = some j := by
    intro j hj
    have hdistinct : S.names.zipIdx.Pairwise fun a b => (a.1 == b.1) = false := by
      have hnodup : (S.names.zipIdx.map Prod.fst).Nodup := by
        rw [hkeys]
        exact S.names_nodup
      refine (List.pairwise_map.mp hnodup).imp ?_
      intro a b hne
      exact beq_eq_false_iff_ne.mpr hne
    exact Std.HashMap.getElem?_ofList_of_mem (beq_self_eq_true name) hdistinct
      (List.mem_zipIdx_iff_getElem?.mpr hj)
  refine ⟨?_, hfound i⟩
  intro h
  by_cases hname : name ∈ S.names
  · obtain ⟨j, hj⟩ := List.mem_iff_getElem?.mp hname
    obtain rfl : i = j := Option.some.inj (h.symm.trans (hfound j hj))
    exact hj
  · have habsent : (S.names.zipIdx.map Prod.fst).contains name = false := by
      rw [hkeys]
      simpa using hname
    rw [positions, Std.HashMap.getElem?_ofList_of_contains_eq_false habsent] at h
    cases h

end Schema

end Criteria
