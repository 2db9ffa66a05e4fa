/-!
# Runs of characters

A text that begins with a run of characters of one sort and then goes on with a character of
another sort, or ends, can be divided in only one way.
-/

namespace Criteria.Text

/-- No character of the given sort comes next. -/
def Stops (sort : Char → Bool) (rest : List Char) : Prop :=
  ∀ c, rest.head? = some c → sort c = false

variable {sort : Char → Bool} {run rest : List Char}

theorem stops_cons {c : Char} (h : sort c = false) (rest : List Char) :
    Stops sort (c :: rest) := by
  intro d hd
  obtain rfl := Option.some.inj hd
  exact h

theorem takeWhile_of_stops (hrest : Stops sort rest) : rest.takeWhile sort = [] := by
  cases rest with
  | nil => rfl
  | cons c rest => simp [hrest c rfl]

theorem dropWhile_of_stops (hrest : Stops sort rest) : rest.dropWhile sort = rest := by
  cases rest with
  | nil => rfl
  | cons c rest => simp [hrest c rfl]

theorem takeWhile_run (hrun : ∀ c ∈ run, sort c = true) (hrest : Stops sort rest) :
    (run ++ rest).takeWhile sort = run := by
  rw [List.takeWhile_append_of_pos hrun, takeWhile_of_stops hrest, List.append_nil]

theorem dropWhile_run (hrun : ∀ c ∈ run, sort c = true) (hrest : Stops sort rest) :
    (run ++ rest).dropWhile sort = rest := by
  rw [List.dropWhile_append_of_pos hrun, dropWhile_of_stops hrest]

/-- A run and what follows it are determined by the text that they make together. -/
theorem run_inj
    {run' rest' : List Char} (hrun : ∀ c ∈ run, sort c = true)
    (hrun' : ∀ c ∈ run', sort c = true) (hrest : Stops sort rest) (hrest' : Stops sort rest')
    (h : run ++ rest = run' ++ rest') : run = run' ∧ rest = rest' := by
  constructor
  · rw [← takeWhile_run hrun hrest, h, takeWhile_run hrun' hrest']
  · rw [← dropWhile_run hrun hrest, h, dropWhile_run hrun' hrest']

end Criteria.Text
