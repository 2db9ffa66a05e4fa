import Criteria.Proofs.Json.Tokens

/-!
# Printed documents are read back

The text of a document determines the document, as long as each number is laid out as a
numeral and each string has a text.  The proof follows the document: whatever stands after
its text and cannot belong to a number is left over by the reader.  Every value takes at
least one character, and every call of a reader one unit of fuel, so twice the length of
the text is fuel enough.
-/

namespace Criteria.Json

open Reader Numeral

/-- The documents that a text can spell. -/
inductive Spelled : Json → Prop
  | null : Spelled .null
  | bool (b : Bool) : Spelled (.bool b)
  | number (L : Layout) : Spelled (.number (String.ofList L.characters))
  | string (s : String) : Spelled (.ofString s)
  | array {items : List Json} (h : ∀ j ∈ items, Spelled j) : Spelled (.array items)
  | object {members : List (String × Json)} (h : ∀ m ∈ members, Spelled m.2) :
      Spelled (.ofMembers members)

namespace Reader

theorem endsNumber_cons
    {c : Char} (h : c.isDigit = false ∧ c ≠ '.' ∧ c ≠ 'e' ∧ c ≠ 'E') (rest : List Char) :
    EndsNumber (c :: rest) := by
  intro d hd
  obtain rfl : c = d := Option.some.inj hd
  exact h

theorem token_cons {c : Char} (h : isBlank c = false) (rest : List Char) :
    token (c :: rest) = c :: rest := by
  simp [token, h]

/-- A numeral begins with a sign or a digit. -/
theorem exists_characters_eq_cons_of_layout (L : Layout) :
    ∃ c rest, L.characters = c :: rest ∧ (c = '-' ∨ c.isDigit = true) := by
  obtain ⟨c, rest, hunsigned, hdigit⟩ := L.exists_unsigned_eq_cons
  rw [Layout.characters, Binary.withSign, hunsigned]
  cases L.negative with
  | true => exact ⟨'-', c :: rest, rfl, .inl rfl⟩
  | false => exact ⟨c, rest, rfl, .inr hdigit⟩

theorem ne_of_numeral {c d : Char} (hc : c = '-' ∨ c.isDigit = true)
    (hd : d ≠ '-' ∧ d.isDigit = false) : c ≠ d := by
  rintro rfl
  rcases hc with hminus | hdigit
  · exact hd.1 hminus
  · rw [hd.2] at hdigit
    cases hdigit

theorem isBlank_of_numeral {c : Char} (hc : c = '-' ∨ c.isDigit = true) : isBlank c = false := by
  cases hblank : isBlank c with
  | false => rfl
  | true =>
      simp only [isBlank, Bool.or_eq_true, beq_iff_eq] at hblank
      rcases hblank with ((rfl | rfl) | rfl) | rfl <;> exact absurd hc (by decide)

/-- The text of a document begins with a character that is neither blank nor the end of an
array. -/
theorem exists_characters_eq_cons {j : Json} (h : Spelled j) :
    ∃ c rest, characters j = c :: rest ∧ isBlank c = false ∧ c ≠ ']' := by
  cases h with
  | null => exact ⟨'n', _, rfl, rfl, by decide⟩
  | bool b =>
      cases b with
      | true => exact ⟨'t', _, rfl, rfl, by decide⟩
      | false => exact ⟨'f', _, rfl, rfl, by decide⟩
  | number L =>
      obtain ⟨c, rest, hL, hc⟩ := exists_characters_eq_cons_of_layout L
      exact ⟨c, rest, by simp [characters, hL], isBlank_of_numeral hc,
        ne_of_numeral hc (by decide)⟩
  | string s => exact ⟨'"', _, rfl, rfl, by decide⟩
  | array _ => exact ⟨'[', _, rfl, rfl, by decide⟩
  | object _ => exact ⟨'\x7b', _, rfl, rfl, by decide⟩

/-- The reader takes the text of a document and leaves what comes next. -/
def ReadsBack (j : Json) : Prop :=
  ∀ fuel rest, 2 * (characters j).length ≤ fuel → EndsNumber rest →
    value? fuel (characters j ++ rest) = some (j, rest)

theorem items?_itemCharacters {items : List Json} (hne : items ≠ [])
    (h : ∀ j ∈ items, ReadsBack j) :
    ∀ fuel rest, 2 * (itemCharacters items).length + 1 ≤ fuel →
      items? fuel (itemCharacters items ++ ']' :: rest) = some (items, rest) := by
  induction items with
  | nil => exact absurd rfl hne
  | cons j more ih =>
      intro fuel rest hfuel
      obtain ⟨fuel, rfl⟩ : ∃ n, fuel = n + 1 := Nat.exists_eq_add_one.mpr (by omega)
      have hj := h j (by simp)
      cases more with
      | nil =>
          have hlength : 2 * (characters j).length ≤ fuel := by
            simpa [itemCharacters] using hfuel
          have hread := hj fuel (']' :: rest) hlength (endsNumber_cons (by decide) rest)
          simp (disch := decide) only [itemCharacters, items?, hread, token_cons]
      | cons k more =>
          simp only [itemCharacters, List.length_append, List.length_cons] at hfuel
          have hread := hj fuel (',' :: (itemCharacters (k :: more) ++ ']' :: rest)) (by omega)
            (endsNumber_cons (by decide) _)
          have hmore := ih (List.cons_ne_nil _ _) (fun i hi => h i (by simp [hi])) fuel rest
            (by omega)
          simp (disch := decide) only [itemCharacters, List.append_assoc, List.cons_append, items?,
            hread, token_cons, hmore, Option.map_some]

/-- Members with texts for names, as the reader gives them. -/
def named (members : List (String × Json)) : List (Option String × Json) :=
  members.map fun (name, j) => (some name, j)

theorem pairCharacters_append (name : String) (j : Json) (rest : List Char) :
    pairCharacters (some name, j) ++ rest =
      '"' :: (name.toList.flatMap escape ++ '"' :: ':' :: (characters j ++ rest)) := by
  simp [pairCharacters, quoted]

theorem members?_memberCharacters {members : List (String × Json)} (hne : members ≠ [])
    (h : ∀ m ∈ members, ReadsBack m.2) :
    ∀ fuel rest, 2 * (memberCharacters (named members)).length + 1 ≤ fuel →
      members? fuel (memberCharacters (named members) ++ '\x7d' :: rest) =
        some (named members, rest) := by
  induction members with
  | nil => exact absurd rfl hne
  | cons m more ih =>
      intro fuel rest hfuel
      obtain ⟨fuel, rfl⟩ : ∃ n, fuel = n + 1 := Nat.exists_eq_add_one.mpr (by omega)
      obtain ⟨name, j⟩ := m
      have hj : ReadsBack j := h (name, j) (by simp)
      have hpair : (characters j).length ≤ (pairCharacters (some name, j)).length := by
        simp only [pairCharacters, List.length_append, List.length_cons]
        omega
      cases more with
      | nil =>
          change 2 * (pairCharacters (some name, j)).length + 1 ≤ fuel + 1 at hfuel
          have hread := hj fuel ('\x7d' :: rest) (by omega) (endsNumber_cons (by decide) rest)
          change members? _ (pairCharacters (some name, j) ++ _) = _
          simp (disch := decide) only [pairCharacters_append, members?, token_cons, string?_quoted,
            hread, named, List.map_cons, List.map_nil]
      | cons m' more =>
          have htext : memberCharacters (named ((name, j) :: m' :: more)) =
              pairCharacters (some name, j) ++ ',' :: memberCharacters (named (m' :: more)) := rfl
          rw [htext, List.length_append, List.length_cons] at hfuel
          have hread := hj fuel (',' :: (memberCharacters (named (m' :: more)) ++ '\x7d' :: rest))
            (by omega) (endsNumber_cons (by decide) _)
          have hmore := ih (List.cons_ne_nil _ _) (fun n hn => h n (by simp [hn])) fuel rest
            (by omega)
          rw [htext, List.append_assoc, List.cons_append, pairCharacters_append]
          simp (disch := decide) only [members?, token_cons, string?_quoted, hread]
          rw [hmore]
          rfl

/-- A value that begins like a numeral is a number. -/
theorem value?_of_numeral
    {c : Char} (hc : c = '-' ∨ c.isDigit = true) (fuel : Nat) (rest : List Char) :
    value? (fuel + 1) (c :: rest) =
      (number? (c :: rest)).map fun (spelling, rest) =>
        (.number (String.ofList spelling), rest) := by
  have hne : ∀ d, d ≠ '-' ∧ d.isDigit = false → c ≠ d := fun d hd => ne_of_numeral hc hd
  rw [value?, token_cons (isBlank_of_numeral hc)]
  split
  next h => exact absurd (List.cons.inj h).1 (hne 'n' (by decide))
  next h => exact absurd (List.cons.inj h).1 (hne 't' (by decide))
  next h => exact absurd (List.cons.inj h).1 (hne 'f' (by decide))
  next h => exact absurd (List.cons.inj h).1 (hne '"' (by decide))
  next h => exact absurd (List.cons.inj h).1 (hne '[' (by decide))
  next h => exact absurd (List.cons.inj h).1 (hne '\x7b' (by decide))
  next => rfl

/-- The text of a document is not empty, so there is fuel for a first call. -/
theorem readsBack_of_succ {j : Json} (hj : Spelled j)
    (h : ∀ fuel rest, 2 * (characters j).length ≤ fuel + 1 → EndsNumber rest →
      value? (fuel + 1) (characters j ++ rest) = some (j, rest)) :
    ReadsBack j := by
  intro fuel rest hfuel hrest
  obtain ⟨c, tail, htext, -⟩ := exists_characters_eq_cons hj
  obtain ⟨fuel, rfl⟩ : ∃ n, fuel = n + 1 := by
    rw [htext, List.length_cons] at hfuel
    exact Nat.exists_eq_add_one.mpr (by omega)
  exact h fuel rest hfuel hrest

theorem readsBack_array {items : List Json} (hspelled : ∀ j ∈ items, Spelled j)
    (h : ∀ j ∈ items, ReadsBack j) : ReadsBack (.array items) := by
  refine readsBack_of_succ (.array hspelled) ?_
  intro fuel rest hfuel _
  cases items with
  | nil => rfl
  | cons j more =>
      obtain ⟨c, tail, htext, hblank, hclose⟩ := exists_characters_eq_cons (hspelled j (by simp))
      obtain ⟨tail', hitems⟩ : ∃ tail', itemCharacters (j :: more) = c :: tail' := by
        cases more with
        | nil => exact ⟨tail, htext⟩
        | cons k more =>
            refine ⟨tail ++ ',' :: itemCharacters (k :: more), ?_⟩
            change characters j ++ ',' :: itemCharacters (k :: more) = _
            rw [htext, List.cons_append]
      simp only [characters, List.cons_append, List.length_append, List.length_cons,
        List.append_assoc, List.nil_append] at hfuel ⊢
      have hread := items?_itemCharacters (List.cons_ne_nil j more) h fuel rest (by omega)
      rw [hitems, List.cons_append] at hread ⊢
      simp (disch := decide) only [value?, token_cons, token_cons hblank]
      split
      next h => exact absurd (List.cons.inj h).1 hclose
      next => rw [hread, Option.map_some]

theorem readsBack_object {members : List (String × Json)} (hspelled : ∀ m ∈ members, Spelled m.2)
    (h : ∀ m ∈ members, ReadsBack m.2) : ReadsBack (.ofMembers members) := by
  refine readsBack_of_succ (.object hspelled) ?_
  intro fuel rest hfuel _
  cases members with
  | nil => rfl
  | cons m more =>
      obtain ⟨tail, hmembers⟩ : ∃ tail, memberCharacters (named (m :: more)) = '"' :: tail := by
        cases more with
        | nil => exact ⟨_, rfl⟩
        | cons m' more => exact ⟨_, rfl⟩
      change 2 * (characters (.object (named (m :: more)))).length ≤ _ at hfuel
      change value? _ (characters (.object (named (m :: more))) ++ _) = _
      simp only [characters, List.cons_append, List.length_append, List.length_cons,
        List.append_assoc, List.nil_append] at hfuel ⊢
      have hread := members?_memberCharacters (List.cons_ne_nil m more) h fuel rest (by omega)
      rw [hmembers, List.cons_append] at hread ⊢
      simp (disch := decide) only [value?, token_cons]
      change (members? fuel ('"' :: (tail ++ '\x7d' :: rest))).map _ = _
      rw [hread]
      rfl

/-- The text of a document is read back as the document. -/
theorem readsBack_of_spelled {j : Json} (h : Spelled j) : ReadsBack j := by
  induction h with
  | null => exact readsBack_of_succ .null fun _ _ _ _ => rfl
  | bool b =>
      refine readsBack_of_succ (.bool b) fun _ _ _ _ => ?_
      cases b <;> rfl
  | number L =>
      refine readsBack_of_succ (.number L) fun fuel rest _ hrest => ?_
      obtain ⟨c, tail, hL, hc⟩ := exists_characters_eq_cons_of_layout L
      have hnumber := number?_characters L hrest
      rw [characters, String.toList_ofList]
      rw [hL, List.cons_append] at hnumber ⊢
      rw [value?_of_numeral hc, hnumber, Option.map_some]
  | string s =>
      refine readsBack_of_succ (.string s) fun fuel rest _ _ => ?_
      simp (disch := decide) only [ofString, characters, quoted, List.cons_append,
        List.append_assoc, List.nil_append, value?, token_cons, string?_quoted]
      rfl
  | array hspelled ih => exact readsBack_array hspelled ih
  | object hspelled ih => exact readsBack_object hspelled ih

end Reader

/-- A printed document is read back as the document. -/
theorem read?_print {j : Json} (h : Spelled j) : read? j.print = some j := by
  have hread := Reader.readsBack_of_spelled h (2 * (characters j).length + 1) [] (by omega)
    Reader.endsNumber_nil
  rw [List.append_nil] at hread
  simp only [read?, print, String.toList_ofList, hread]
  rfl

/-- A list is read item by item. -/
theorem mapM_cons_eq_some_iff
    {α β : Type} {read : α → Option β} {item : α} {rest : List α} {found : List β} :
    (item :: rest).mapM read = some found ↔
      ∃ b others, read item = some b ∧ rest.mapM read = some others ∧ b :: others = found := by
  rw [List.mapM_cons]
  change (read item).bind _ = _ ↔ _
  rw [Option.bind_eq_some_iff]
  refine exists_congr fun b => ?_
  change _ ∧ (rest.mapM read).bind _ = _ ↔ _
  rw [Option.bind_eq_some_iff, exists_and_left]
  refine and_congr_right fun _ => exists_congr fun others => and_congr_right fun _ => ?_
  exact ⟨Option.some.inj, congrArg some⟩

/-- The member with a text for its name. -/
def withText? : Option String × Json → Option (String × Json)
  | (name, j) => name.map fun n => (n, j)

theorem mapM_withText?_eq_some_iff
    {members : List (Option String × Json)} {found : List (String × Json)} :
    members.mapM withText? = some found ↔ members = Reader.named found := by
  induction members generalizing found with
  | nil =>
      cases found with
      | nil => simp [Reader.named]
      | cons m rest => simp [Reader.named]
  | cons m rest ih =>
      rw [mapM_cons_eq_some_iff]
      simp only [ih]
      constructor
      · rintro ⟨m', rest', hm, rfl, rfl⟩
        obtain ⟨n, hname, rfl⟩ := Option.map_eq_some_iff.mp hm
        change m :: Reader.named rest' = (some n, m.2) :: Reader.named rest'
        rw [← hname]
      · intro h
        cases found with
        | nil => cases h
        | cons m' rest' =>
            rw [Reader.named, List.map_cons, List.cons.injEq] at h
            obtain ⟨rfl, rfl⟩ := h
            exact ⟨m', rest', rfl, rfl, rfl⟩

/-- The members with known names are found if every member has a text for its name and no known
name occurs twice. -/
theorem known?_eq_some_iff
    {names : List String} {members : List (Option String × Json)} {known : List (String × Json)} :
    known? names members = some known ↔
      ∃ found, members = Reader.named found ∧
        found.filter (fun m => names.contains m.1) = known ∧ (known.map Prod.fst).Nodup := by
  have hsteps : known? names members = (members.mapM withText?).bind fun found =>
      if ((found.filter fun m => names.contains m.1).map Prod.fst).Nodup then
        some (found.filter fun m => names.contains m.1)
      else none := rfl
  rw [hsteps, Option.bind_eq_some_iff]
  simp only [mapM_withText?_eq_some_iff]
  refine exists_congr fun found => and_congr_right fun _ => ?_
  constructor
  · intro h
    split at h
    next hdistinct =>
      obtain rfl := Option.some.inj h
      exact ⟨rfl, hdistinct⟩
    next => cases h
  · rintro ⟨rfl, hdistinct⟩
    exact if_pos hdistinct

/-- Members with different names, all of them known, are all found. -/
theorem known?_named
    {names : List String} {members : List (String × Json)}
    (hknown : ∀ m ∈ members, m.1 ∈ names) (hdistinct : (members.map Prod.fst).Nodup) :
    known? names (Reader.named members) = some members := by
  rw [known?_eq_some_iff]
  refine ⟨members, rfl, ?_, hdistinct⟩
  rw [List.filter_eq_self]
  intro m hm
  simpa using hknown m hm

end Criteria.Json
