import Criteria.Proofs.Expression

/-!
# The conditions in the order of the text

The text of an expression is a sequence of symbols: parentheses, connectives and
conditions.  Its conditions stand in it in the order of the leaves.  Combining keeps the
order of the criteria: every entry of a queue goes to the right of the older ones, and a
group of children goes to the right of what it is joined to.  So the conditions of an
assembled expression are those of the criteria in preorder, as long as each criterion
joined by OR has an element; where one has none, the folded queue is repeated in its place.
-/

namespace Criteria

/-- A symbol in the text of an expression. -/
inductive Symbol (α : Type)
  | opening
  | closing
  | both
  | either
  | condition (c : α)

namespace Symbol

variable {α : Type}

/-- The text of a symbol. -/
def text (both either : String) (condition : α → String) : Symbol α → String
  | .opening => "("
  | .closing => ")"
  | .both => both
  | .either => either
  | .condition c => condition c

/-- The condition that a symbol is. -/
def condition? : Symbol α → Option α
  | .condition c => some c
  | _ => none

end Symbol

namespace Expression

variable {α : Type}

/-- The symbols of an expression from left to right. -/
def symbols : Expression α → List (Symbol α)
  | .leaf c => [.condition c]
  | .both left right => .opening :: (left.symbols ++ .both :: (right.symbols ++ [.closing]))
  | .either left right =>
    .opening :: (left.symbols ++ .either :: (right.symbols ++ [.closing]))

theorem render_eq_join (both either : String) (condition : α → String) (e : Expression α) :
    e.render both either condition =
      String.join (e.symbols.map (Symbol.text both either condition)) := by
  induction e with
  | leaf c => simp [render, symbols, Symbol.text]
  | both left right ihleft ihright =>
      simp [render, symbols, Symbol.text, ihleft, ihright, String.append_assoc]
  | either left right ihleft ihright =>
      simp [render, symbols, Symbol.text, ihleft, ihright, String.append_assoc]

theorem filterMap_condition?_symbols (e : Expression α) :
    e.symbols.filterMap Symbol.condition? = e.leaves := by
  induction e with
  | leaf c => rfl
  | both left right ihleft ihright =>
      simp [symbols, leaves, List.filterMap_cons, Symbol.condition?, ihleft, ihright]
  | either left right ihleft ihright =>
      simp [symbols, leaves, List.filterMap_cons, Symbol.condition?, ihleft, ihright]

end Expression

namespace Combination

variable {α : Type}

/-- The conditions of a queue, the oldest entry first. -/
def queued (queue : List (Expression α)) : List α :=
  queue.reverse.flatMap Expression.leaves

/-- The conditions of an element, if there is one. -/
def own (element : Option (Expression α)) : List α :=
  (element.map Expression.leaves).getD []

theorem queued_cons (last : Expression α) (older : List (Expression α)) :
    queued (last :: older) = queued older ++ last.leaves := by
  simp [queued]

theorem leaves_of_joined? {queue : List (Expression α)} {e : Expression α}
    (h : joined? queue = some e) : e.leaves = queued queue := by
  induction queue generalizing e with
  | nil => cases h
  | cons last older ih =>
      cases older with
      | nil =>
          obtain rfl := Option.some.inj h
          simp [queued]
      | cons next older =>
          obtain ⟨folded, hfolded, rfl⟩ := Option.map_eq_some_iff.mp h
          change folded.leaves ++ last.leaves = _
          rw [queued_cons, ih hfolded]

theorem queued_of_enqueue?
    {combinator : Combinator} {element : Option (Expression α)}
    {queue next : List (Expression α)}
    (h : enqueue? combinator element queue = some next)
    (hor : combinator = .or → element.isSome) :
    queued next = queued queue ++ own element := by
  cases combinator with
  | and =>
      cases element with
      | none =>
          obtain rfl := Option.some.inj h
          simp [own]
      | some e =>
          obtain rfl := Option.some.inj h
          exact queued_cons e queue
  | or =>
      obtain ⟨e, rfl⟩ := Option.isSome_iff_exists.mp (hor rfl)
      obtain ⟨folded, hfolded, rfl⟩ := Option.map_eq_some_iff.mp h
      rw [queued_cons, ← leaves_of_joined? hfolded]
      rfl

/-- If every criterion joined by OR has an element, the conditions of the assembled
expression are those of the queue and then those of the criteria in preorder. -/
theorem Assembles.leaves_eq
    {known : Criterion → Option (Expression α)} {queue : List (Expression α)}
    {cs : List Criterion} {e : Expression α} (h : Assembles known queue cs e)
    (hors : ∀ c ∈ Criterion.preorder cs, c.combinator = .or → (known c).isSome) :
    e.leaves = queued queue ++ (Criterion.preorder cs).flatMap fun c => own (known c) := by
  induction h with
  | nil hjoined =>
      rw [leaves_of_joined? hjoined, Criterion.preorder_nil, List.flatMap_nil, List.append_nil]
  | @leaf queue next c rest e hchildren hnext _ ih =>
      have hrest := ih fun d hd => hors d (by simp [hd])
      rw [hrest, queued_of_enqueue? hnext (hors c (by simp)), Criterion.preorder_cons, hchildren]
      simp
  | @group queue older c rest last sub e _ hnext _ _ ihsub ihrest =>
      have hsub := ihsub fun d hd => hors d (by simp [hd])
      have hrest := ihrest fun d hd => hors d (by simp [hd])
      have hqueue := queued_of_enqueue? hnext (hors c (by simp))
      rw [queued_cons] at hqueue
      -- The group goes to the right of the last entry, and so after its own criterion.
      have hattached : queued (Connectives.either last sub :: older) =
          queued queue ++ own (known c) ++ sub.leaves := by
        rw [queued_cons, ← hqueue, List.append_assoc]
        rfl
      rw [hrest, hattached, hsub]
      simp [queued]

end Combination

end Criteria
