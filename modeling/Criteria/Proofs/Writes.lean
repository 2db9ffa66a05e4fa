import Criteria.Proofs.Accessor

/-!
# Runs of writes

A write converts its value and sets the slot of its field, or it fails and leaves the record
as it was.  Whether it succeeds does not depend on the record, and what a field yields can
always be written back.  Several fields may stand for one slot, so a run of writes is
followed slot by slot: afterwards a field yields the value that the last successful write
to its slot has left there, under whatever name that was written.
-/

namespace Criteria

variable {R : RecordType}

theorem Record.set_self (r : Record R) (slot : R.Slot) : r.set slot (r slot) = r := by
  funext other
  by_cases h : other = slot
  · subst h
    exact r.set_same other (r other)
  · exact r.set_other (r slot) h

namespace Field

theorem read_set_of_slot_eq
    {f g : Field R} (h : f.slot = g.slot) (r : Record R) (x : f.storage.Carrier) :
    g.read (r.set f.slot x) = f.storage.toValue x := by
  obtain ⟨_, slot⟩ := f
  obtain ⟨_, slot'⟩ := g
  obtain rfl : slot = slot' := h
  exact congrArg (R.storage slot).toValue (Record.set_same r slot x)

/-- What a field holds once is held unchanged when it is converted again. -/
theorem convert_of_convert {f : Field R} {v w : Value} (h : f.convert v = .ok w) :
    f.convert w = .ok w := by
  obtain ⟨x, -, rfl⟩ := convert_eq_ok.mp h
  exact convert_eq_ok.mpr ⟨x, f.storage.ofValue_toValue x, rfl⟩

theorem convert_read (f : Field R) (r : Record R) : f.convert (f.read r) = .ok (f.read r) :=
  convert_eq_ok.mpr ⟨r f.slot, f.storage.ofValue_toValue (r f.slot), rfl⟩

theorem write_read (f : Field R) (r : Record R) : f.write r (f.read r) = .ok r := by
  have hback : f.storage.ofValue (f.read r) = .ok (r f.slot) :=
    f.storage.ofValue_toValue (r f.slot)
  rw [write, hback]
  exact congrArg Except.ok (r.set_self f.slot)

theorem write_eq_error_iff {f : Field R} {r : Record R} {v : Value} {e : ConversionError} :
    f.write r v = .error e ↔ f.convert v = .error e := by
  rw [write, convert]
  cases f.storage.ofValue v <;> simp [Except.map]

theorem exists_write_of_convert
    {f : Field R} {v w : Value} (h : f.convert v = .ok w) (r : Record R) :
    ∃ x : f.storage.Carrier, f.write r v = .ok (r.set f.slot x) ∧ f.storage.toValue x = w := by
  obtain ⟨x, hx, rfl⟩ := convert_eq_ok.mp h
  refine ⟨x, ?_, rfl⟩
  rw [write, hx]
  rfl

end Field

/-- A value that is to be written to a field. -/
structure Write (R : RecordType) where
  field : Field R
  value : Value

namespace Write

/-- Whether a write succeeds, and the record after it.  A write that fails leaves the record
as it was. -/
def perform (w : Write R) (r : Record R) : Except ConversionError Unit × Record R :=
  match w.field.write r w.value with
  | .ok r' => (.ok (), r')
  | .error e => (.error e, r)

/-- The value that a write leaves in a field, if it succeeds and goes to the field's slot. -/
def leaves? (g : Field R) (w : Write R) : Option Value :=
  if w.field.slot = g.slot then (w.field.convert w.value).toOption else none

theorem perform_of_error
    {f : Field R} {v : Value} {e : ConversionError} (h : f.convert v = .error e)
    (r : Record R) : perform ⟨f, v⟩ r = (.error e, r) := by
  rw [perform, Field.write_eq_error_iff.mpr h]

theorem perform_of_ok
    {f : Field R} {v w : Value} (h : f.convert v = .ok w) (r : Record R) :
    ∃ x : f.storage.Carrier,
      perform ⟨f, v⟩ r = (.ok (), r.set f.slot x) ∧ f.storage.toValue x = w := by
  obtain ⟨x, hwrite, hvalue⟩ := Field.exists_write_of_convert h r
  refine ⟨x, ?_, hvalue⟩
  rw [perform, hwrite]

/-- After a write, a field yields what the write has left in it, or what it yielded before. -/
theorem read_perform (g : Field R) (w : Write R) (r : Record R) :
    g.read (w.perform r).2 = (w.leaves? g).getD (g.read r) := by
  obtain ⟨f, v⟩ := w
  rw [leaves?]
  cases hvalue : f.convert v with
  | error e =>
      rw [perform_of_error hvalue]
      split <;> rfl
  | ok w =>
      obtain ⟨x, hperform, rfl⟩ := perform_of_ok hvalue r
      rw [hperform]
      split
      next hslot => exact Field.read_set_of_slot_eq hslot r x
      next hslot => exact Field.read_set_other (Ne.symm hslot) r x

end Write

namespace Record

/-- The record after a sequence of writes. -/
def afterWrites (r : Record R) (ws : List (Write R)) : Record R :=
  ws.foldl (fun r w => (w.perform r).2) r

/-- After a sequence of writes, a field yields what the last of them that left a value in it
has left there, or what it yielded at first. -/
theorem read_afterWrites (g : Field R) (ws : List (Write R)) :
    ∀ r : Record R,
      g.read (r.afterWrites ws) = (ws.filterMap (Write.leaves? g)).getLast?.getD (g.read r) := by
  induction ws with
  | nil =>
      intro r
      rfl
  | cons w rest ih =>
      intro r
      have hrest := ih (w.perform r).2
      rw [Write.read_perform] at hrest
      change g.read ((w.perform r).2.afterWrites rest) = _
      rw [hrest, List.filterMap_cons]
      cases w.leaves? g with
      | none => rfl
      | some v =>
          rw [List.getLast?_cons]
          rfl

/-- A write succeeds exactly if the value converts, and fails with the error of the
conversion, in which case the record stays as it was.  If it succeeds, the field yields the
converted value, and the fields of other slots yield what they yielded before.  Converting
again changes nothing, neither a converted value nor one that was read, so a value that was
read can be written back and leaves the record as it was.  After any sequence of writes a
field yields the conversion of the last successful write to its slot, or what it yielded
at first if there was none. -/
theorem writes_are_read_back (r : Record R) :
    (∀ (f : Field R) (v : Value),
        (∀ e, f.convert v = .error e → Write.perform ⟨f, v⟩ r = (.error e, r)) ∧
        ∀ w, f.convert v = .ok w →
          ∃ r', Write.perform ⟨f, v⟩ r = (.ok (), r') ∧ f.read r' = w ∧
            ∀ g : Field R, g.slot ≠ f.slot → g.read r' = g.read r) ∧
      (∀ (f : Field R) (v w : Value), f.convert v = .ok w → f.convert w = .ok w) ∧
      (∀ f : Field R, f.convert (f.read r) = .ok (f.read r) ∧
        Write.perform ⟨f, f.read r⟩ r = (.ok (), r)) ∧
      ∀ (ws : List (Write R)) (g : Field R),
        g.read (r.afterWrites ws) =
          (ws.filterMap (Write.leaves? g)).getLast?.getD (g.read r) := by
  refine ⟨?_, fun f v w h => Field.convert_of_convert h, ?_, fun ws g => read_afterWrites g ws r⟩
  · intro f v
    refine ⟨fun e h => Write.perform_of_error h r, ?_⟩
    intro w h
    obtain ⟨x, hperform, hvalue⟩ := Write.perform_of_ok h r
    refine ⟨r.set f.slot x, hperform, ?_, ?_⟩
    · rw [Field.read_set_of_slot_eq rfl]
      exact hvalue
    · intro g hslot
      exact Field.read_set_other hslot r x
  · intro f
    refine ⟨f.convert_read r, ?_⟩
    rw [Write.perform, f.write_read r]

/-- The number of a parcel is written under two names, and in the end with a value that does
not fit in a byte. -/
theorem writes_are_read_back_parcels :
    let number : Field parcels := ⟨"number", (0 : Fin 2)⟩
    let count : Field parcels := ⟨"count", (0 : Fin 2)⟩
    let note : Field parcels := ⟨"note", (1 : Fin 2)⟩
    let tooLarge : Value := .int ⟨300, by decide, by decide⟩
    let r := (Record.initial parcels).afterWrites
      [⟨number, .text " 17 "⟩, ⟨count, .bool true⟩, ⟨note, .bool true⟩, ⟨number, tooLarge⟩]
    number.read r = .int ⟨1, by decide, by decide⟩ ∧ note.read r = .text "true" ∧
      (∃ e, number.convert tooLarge = .error e ∧
        Write.perform ⟨number, tooLarge⟩ r = (.error e, r)) ∧
      ∃ w r', count.convert (.text " 17 ") = .ok w ∧ count.convert w = .ok w ∧
        Write.perform ⟨count, .text " 17 "⟩ r = (.ok (), r') ∧ number.read r' = w ∧
        note.read r' = .text "true" := by
  intro number count note tooLarge r
  obtain ⟨-, -, -, hruns⟩ := writes_are_read_back (Record.initial parcels)
  obtain ⟨hwrites, hagain, -, -⟩ := writes_are_read_back r
  have hnote : note.read r = .text "true" := hruns _ note
  obtain ⟨w, hw⟩ : ∃ w, count.convert (.text " 17 ") = .ok w := ⟨_, rfl⟩
  obtain ⟨r', hperform, hread, hothers⟩ := (hwrites count (.text " 17 ")).2 w hw
  refine ⟨hruns _ number, hnote, ⟨_, rfl, (hwrites number tooLarge).1 _ rfl⟩,
    w, r', hw, hagain count _ w hw, hperform, hread, ?_⟩
  rw [hothers note (by decide), hnote]

end Record

end Criteria
