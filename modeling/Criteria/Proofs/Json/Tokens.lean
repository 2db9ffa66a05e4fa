import Criteria.Json.Printer
import Criteria.Json.Reader
import Criteria.Proofs.Number.Layout

/-!
# Printed numbers and strings are read back

The reader takes a number as long as it goes on, so a printed number is read back as a
whole only if what follows it could not be part of it.  A printed string ends with a quote
of its own: an escaped quote is not taken for it, whatever follows.
-/

namespace Criteria.Json.Reader

open Numeral (Digits EndsRun Power Layout)

/-! ## Numbers -/

/-- What comes next cannot belong to a number. -/
def EndsNumber (rest : List Char) : Prop :=
  ∀ c, rest.head? = some c → c.isDigit = false ∧ c ≠ '.' ∧ c ≠ 'e' ∧ c ≠ 'E'

theorem EndsNumber.endsRun {rest : List Char} (h : EndsNumber rest) : EndsRun rest :=
  fun c hc => (h c hc).1

theorem endsNumber_nil : EndsNumber [] := by
  simp [EndsNumber]

theorem digits?_run
    {run rest : List Char} (hne : run ≠ []) (hrun : Digits run) (hrest : EndsRun rest) :
    digits? (run ++ rest) = some (run, rest) := by
  obtain ⟨c, run, rfl⟩ := List.exists_cons_of_ne_nil hne
  rw [digits?, Numeral.takeWhile_run hrun hrest, Numeral.dropWhile_run hrun hrest]

theorem whole?_run
    {whole rest : List Char} (hne : whole ≠ []) (hrun : Digits whole)
    (hleading : whole = ['0'] ∨ whole.head? ≠ some '0') (hrest : EndsRun rest) :
    whole? (whole ++ rest) = some (whole, rest) := by
  obtain ⟨c, run, rfl⟩ := List.exists_cons_of_ne_nil hne
  rcases hleading with hzero | hleading
  · obtain ⟨rfl, rfl⟩ := List.cons.inj hzero
    rfl
  · have hc : c ≠ '0' := by simpa using hleading
    rw [← digits?_run hne hrun hrest]
    simp [whole?, hc]

theorem exponentSign_run {digits : List Char} (negative : Bool) :
    exponentSign ((if negative then '-' else '+') :: digits) =
      ([if negative then '-' else '+'], digits) := by
  cases negative <;> rfl

theorem exponent?_characters (p : Power) {rest : List Char} (hrest : EndsRun rest) :
    exponent? (p.characters ++ rest) = some (p.characters, rest) := by
  have hdigits := digits?_run p.digits_ne_nil p.digits_run hrest
  simp [Power.characters, exponent?, exponentSign_run, hdigits]

theorem exponent?_powerCharacters (L : Layout) {rest : List Char} (hrest : EndsNumber rest) :
    exponent? (L.powerCharacters ++ rest) = some (L.powerCharacters, rest) := by
  rw [Layout.powerCharacters]
  cases L.power with
  | some p => exact exponent?_characters p hrest.endsRun
  | none =>
      cases rest with
      | nil => rfl
      | cons c rest =>
          obtain ⟨-, -, hlower, hupper⟩ := hrest c rfl
          simp [exponent?, hlower, hupper]

theorem fraction?_fractionCharacters (L : Layout) {rest : List Char} (hrest : EndsNumber rest) :
    fraction? (L.fractionCharacters ++ (L.powerCharacters ++ rest)) =
      some (L.fractionCharacters, L.powerCharacters ++ rest) := by
  have hends := L.endsRun_powerCharacters.append hrest.endsRun
  rw [Layout.fractionCharacters]
  by_cases hplaces : L.places = []
  · rw [if_pos hplaces, List.nil_append]
    -- Neither an exponent nor what follows the number begins with a point.
    have hpoint : ∀ tail, L.powerCharacters ++ rest ≠ '.' :: tail := by
      rw [Layout.powerCharacters]
      intro tail htail
      cases hpower : L.power with
      | some p => simp [hpower, Power.characters] at htail
      | none =>
          rw [hpower] at htail
          exact (hrest '.' (by simpa using congrArg List.head? htail)).2.1 rfl
    rw [fraction?]
    intro tail htail
    exact hpoint tail htail
  · rw [if_neg hplaces, List.cons_append, fraction?, digits?_run hplaces L.places_run hends]
    rfl

theorem magnitude?_unsigned (L : Layout) {rest : List Char} (hrest : EndsNumber rest) :
    magnitude? (L.unsigned ++ rest) = some (L.unsigned, rest) := by
  have hends := L.endsRun_fractionCharacters.append hrest.endsRun
  rw [List.append_assoc] at hends
  have hwhole := whole?_run L.whole_ne_nil L.whole_run L.whole_leading hends
  simp [magnitude?, Layout.unsigned, hwhole, fraction?_fractionCharacters L hrest,
    exponent?_powerCharacters L hrest]

theorem number?_characters (L : Layout) {rest : List Char} (hrest : EndsNumber rest) :
    number? (L.characters ++ rest) = some (L.characters, rest) := by
  obtain ⟨c, tail, hunsigned, hdigit⟩ := L.exists_unsigned_eq_cons
  have hmagnitude := magnitude?_unsigned L hrest
  rw [Layout.characters, Binary.withSign]
  cases L.negative with
  | true =>
      simp only [if_true, List.cons_append, number?, hmagnitude]
      rfl
  | false =>
      have hminus : c ≠ '-' := by
        rintro rfl
        cases hdigit
      rw [hunsigned] at hmagnitude ⊢
      simpa [number?, hminus] using hmagnitude

/-! ## Strings -/

theorem hexDigit?_digitChar : ∀ n, n < 16 → hexDigit? (Nat.digitChar n) = some n := by
  decide

/-- The escape of a control character names its code point. -/
theorem hexUnit?_of_lt {n : Nat} (h : n < 0x20) :
    hexUnit? '0' '0' (Nat.digitChar (n / 16)) (Nat.digitChar (n % 16)) = some n := by
  have hzero : hexDigit? '0' = some 0 := rfl
  simp only [hexUnit?, hzero, hexDigit?_digitChar (n / 16) (by omega),
    hexDigit?_digitChar (n % 16) (by omega)]
  exact congrArg some (by omega)

theorem units?_plain
    {c : Char} (hquote : c ≠ '"') (hbackslash : c ≠ '\\') (hcontrol : ¬ c.toNat < 0x20)
    (read : List Nat) (rest : List Char) :
    units? read (c :: rest) = units? (c.toNat :: read) rest := by
  rw [units?]
  · rw [if_neg hcontrol]
  · exact hquote
  · rintro _ _ _ _ _ rfl
    exact absurd rfl hbackslash
  · rintro _ _ rfl
    exact absurd rfl hbackslash

theorem units?_escape (read : List Nat) (c : Char) (rest : List Char) :
    units? read (escape c ++ rest) = units? (c.toNat :: read) rest := by
  unfold escape
  split
  iterate 7 next => rfl
  next hquote hbackslash _ _ _ _ _ =>
    split
    next hcontrol =>
      simp only [List.cons_append, List.nil_append, units?, hexUnit?_of_lt hcontrol]
    next hcontrol => exact units?_plain hquote hbackslash hcontrol read rest

theorem units?_flatMap_escape (cs : List Char) (rest : List Char) :
    ∀ read : List Nat,
      units? read (cs.flatMap escape ++ '"' :: rest) =
        some (read.reverse ++ cs.map Char.toNat, rest) := by
  induction cs with
  | nil => simp [units?]
  | cons c cs ih =>
      intro read
      rw [List.flatMap_cons, List.append_assoc, units?_escape, ih]
      simp

/-- No character is a surrogate. -/
theorem characters?_map_toNat (cs : List Char) : characters? (cs.map Char.toNat) = some cs := by
  induction cs with
  | nil => rfl
  | cons c cs ih =>
      have hvalid : c.toNat < 0xD800 ∨ 0xDFFF < c.toNat ∧ c.toNat < 0x110000 := c.valid
      have hhigh : ¬ (0xD800 ≤ c.toNat ∧ c.toNat < 0xDC00) := by omega
      have hlow : ¬ (0xDC00 ≤ c.toNat ∧ c.toNat < 0xE000) := by omega
      rw [List.map_cons]
      unfold characters?
      rw [if_neg hhigh, if_neg hlow, ih, Char.ofNat_toNat]
      rfl

theorem string?_quoted (s : String) (rest : List Char) :
    string? (s.toList.flatMap escape ++ '"' :: rest) = some (some s, rest) := by
  rw [string?, units?_flatMap_escape]
  simp [characters?_map_toNat]

end Criteria.Json.Reader
