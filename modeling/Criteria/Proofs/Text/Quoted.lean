import Criteria.Proofs.Text.Run
import Criteria.Text.Quoted

/-!
# A quoted text determines the text

Escaping can be undone character by character: what an escape stands for and where it ends
can be told without looking at what follows.  A quote that is not escaped ends the text, so
also the end of a quoted text is known, whatever the text says.
-/

namespace Criteria.Text

/-- The number that a hexadecimal digit stands for. -/
def hexDigitValue (c : Char) : Nat :=
  if c.isDigit then c.toNat - '0'.toNat else c.toNat - 'a'.toNat + 10

/-- The number that hexadecimal digits stand for. -/
def hexValue (digits : List Char) : Nat :=
  digits.foldl (fun value c => 16 * value + hexDigitValue c) 0

/-- The character that a letter after a backslash stands for. -/
def escapedLetter : Char → Char
  | 'n' => '\n'
  | 'r' => '\r'
  | 't' => '\t'
  | '0' => '\x00'
  | c => c

/-- Takes the first character of an escaped text off, unless a quote ends the text. -/
def unescape? : List Char → Option (Char × List Char)
  | [] => none
  | '"' :: _ => none
  | '\\' :: 'u' :: '\x7b' :: rest =>
    some (Char.ofNat (hexValue (rest.takeWhile (· != '\x7d'))),
      (rest.dropWhile (· != '\x7d')).drop 1)
  | '\\' :: letter :: rest => some (escapedLetter letter, rest)
  | c :: rest => some (c, rest)

theorem hexDigitValue_digitChar : ∀ n, n < 16 → hexDigitValue (Nat.digitChar n) = n := by
  decide

theorem digitChar_ne_brace : ∀ n, n < 16 → Nat.digitChar n ≠ '\x7d' := by
  decide

theorem hexValue_toDigits (n : Nat) : hexValue (Nat.toDigits 16 n) = n := by
  induction n using Nat.strongRecOn with
  | ind n ih =>
      by_cases hsmall : n < 16
      · rw [Nat.toDigits_of_lt_base hsmall]
        simp [hexValue, hexDigitValue_digitChar n hsmall]
      · have hlast : hexDigitValue (Nat.digitChar (n % 16)) = n % 16 :=
          hexDigitValue_digitChar _ (Nat.mod_lt _ (by decide))
        have hfirst := ih (n / 16) (by omega)
        rw [hexValue] at hfirst ⊢
        rw [Nat.toDigits_of_base_le (by decide) (by omega), List.foldl_append, hfirst]
        simp only [List.foldl_cons, List.foldl_nil, hlast]
        omega

theorem ne_brace_of_mem_toDigits (n : Nat) : ∀ c ∈ Nat.toDigits 16 n, c ≠ '\x7d' := by
  induction n using Nat.strongRecOn with
  | ind n ih =>
      intro c hc
      by_cases hsmall : n < 16
      · rw [Nat.toDigits_of_lt_base hsmall] at hc
        obtain rfl := List.mem_singleton.mp hc
        exact digitChar_ne_brace n hsmall
      · rw [Nat.toDigits_of_base_le (by decide) (by omega)] at hc
        rcases List.mem_append.mp hc with hc | hc
        · exact ih (n / 16) (by omega) c hc
        · obtain rfl := List.mem_singleton.mp hc
          exact digitChar_ne_brace _ (Nat.mod_lt _ (by decide))

theorem unescape?_plain {c : Char} (hquote : c ≠ '"') (hbackslash : c ≠ '\\') (rest : List Char) :
    unescape? (c :: rest) = some (c, rest) := by
  rw [unescape?]
  · exact hquote
  · rintro _ rfl
    exact absurd rfl hbackslash
  · rintro _ _ rfl
    exact absurd rfl hbackslash

theorem unescape?_hex (c : Char) (rest : List Char) :
    unescape? (['\\', 'u', '\x7b'] ++ Nat.toDigits 16 c.toNat ++ ['\x7d'] ++ rest) =
      some (c, rest) := by
  have hrun : ∀ d ∈ Nat.toDigits 16 c.toNat, (d != '\x7d') = true := by
    intro d hd
    exact bne_iff_ne.mpr (ne_brace_of_mem_toDigits c.toNat d hd)
  have hstops : Stops (· != '\x7d') ('\x7d' :: rest) := stops_cons rfl rest
  simp only [List.append_assoc, List.cons_append, List.nil_append, unescape?,
    takeWhile_run hrun hstops, dropWhile_run hrun hstops, hexValue_toDigits, Char.ofNat_toNat,
    List.drop_one, List.tail_cons]

/-- The escape of a character stands for that character, whatever follows it. -/
theorem unescape?_escape (c : Char) (rest : List Char) :
    unescape? (escape c ++ rest) = some (c, rest) := by
  unfold escape
  split
  iterate 6 next => rfl
  next hquote hbackslash _ _ _ _ =>
    split
    next => exact unescape?_plain hquote hbackslash rest
    next => exact unescape?_hex c rest

/-- An escaped text, and what follows the quote that ends it, are determined by the two
together. -/
theorem flatMap_escape_inj (s t : List Char) :
    ∀ {rest rest' : List Char},
      s.flatMap escape ++ '"' :: rest = t.flatMap escape ++ '"' :: rest' →
        s = t ∧ rest = rest' := by
  induction s generalizing t with
  | nil =>
      intro rest rest' h
      cases t with
      | nil => exact ⟨rfl, (List.cons.inj h).2⟩
      | cons d t =>
          have hread := congrArg unescape? h
          rw [List.flatMap_cons, List.append_assoc, unescape?_escape] at hread
          cases hread
  | cons c s ih =>
      intro rest rest' h
      have hread := congrArg unescape? h
      rw [List.flatMap_cons, List.append_assoc, unescape?_escape] at hread
      cases t with
      | nil => cases hread
      | cons d t =>
          rw [List.flatMap_cons, List.append_assoc, unescape?_escape] at hread
          obtain ⟨rfl, htail⟩ := Prod.mk.inj (Option.some.inj hread)
          obtain ⟨rfl, rfl⟩ := ih t htail
          exact ⟨rfl, rfl⟩

/-- A quoted text and what follows it are determined by the two together. -/
theorem quote_inj {s t : String} {rest rest' : List Char}
    (h : (quote s).toList ++ rest = (quote t).toList ++ rest') : s = t ∧ rest = rest' := by
  simp only [quote, String.toList_ofList, List.cons_append, List.append_assoc,
    List.nil_append] at h
  obtain ⟨htext, hrest⟩ := flatMap_escape_inj s.toList t.toList (List.cons.inj h).2
  exact ⟨String.toList_inj.mp htext, hrest⟩

end Criteria.Text
