import Criteria.Proofs.Accessor
import Criteria.Proofs.Number.Spelling
import Criteria.Proofs.Number.Text
import Criteria.Proofs.Predicate.Compilation
import Criteria.Proofs.Readability
import Criteria.Proofs.Text.Quoted

/-!
# The text of a predicate determines the predicate

A test is written with the name of its field first.  A name that is a single word ends where
the word ends; the field then gives the kind of the constant, and among the texts of one
kind each stands for one value.  So the test can be told from its text, even if the constant
is a text that reads like the rest of an expression: it is quoted.
-/

namespace Criteria

open Text

variable {R : RecordType}

/-! ## Constants -/

/-- A constant without quotes ends where a delimiter follows. -/
theorem Text.Delimited.stops {rest : List Char} (h : Delimited rest) : Stops inToken rest := by
  intro c hc
  rcases h c hc with rfl | rfl <;> rfl

namespace Integer

theorem inToken_of_mem_decimal (i : Int) : ∀ c ∈ decimal i, Text.inToken c = true := by
  have hdigits : ∀ c ∈ Nat.toDigits 10 i.natAbs, Text.inToken c = true := fun c hc =>
    Text.inToken_of_isDigit (Numeral.digits_toDigits i.natAbs c hc)
  rw [decimal]
  split
  next => exact List.forall_mem_cons.mpr ⟨rfl, hdigits⟩
  next => exact hdigits

theorem eq_of_decimal_eq {m n : Integer .i64} (h : decimal m.val = decimal n.val) : m = n := by
  have hread : read (decimal m.val) = read (decimal n.val) := congrArg read h
  rw [read_decimal, read_decimal] at hread
  exact Except.ok.inj hread

end Integer

namespace Value

theorem inToken_of_mem_boolText (b : Bool) :
    ∀ c ∈ (boolText b).toList, Text.inToken c = true := by
  cases b <;> exact List.all_eq_true.mp rfl

theorem eq_of_boolText_eq {a b : Bool} (h : boolText a = boolText b) : a = b := by
  revert h
  cases a <;> cases b <;> decide

/-- The texts of the values of one kind determine the values. -/
theorem readable_display (k : Kind) : Readable (fun v : Value => v.kind = k) display := by
  rintro v rfl w hkind rest rest' hrest hrest' h
  cases v with
  | bool a =>
      cases w with
      | bool b =>
          obtain ⟨htext, hsame⟩ := run_inj (inToken_of_mem_boolText a)
            (inToken_of_mem_boolText b) hrest.stops hrest'.stops h
          exact ⟨congrArg bool (eq_of_boolText_eq (String.toList_inj.mp htext)), hsame⟩
      | _ => cases hkind
  | int m =>
      cases w with
      | int n =>
          simp only [display, String.toList_ofList] at h
          obtain ⟨htext, hsame⟩ := run_inj (Integer.inToken_of_mem_decimal m.val)
            (Integer.inToken_of_mem_decimal n.val) hrest.stops hrest'.stops h
          exact ⟨congrArg int (Integer.eq_of_decimal_eq htext), hsame⟩
      | _ => cases hkind
  | float x =>
      cases w with
      | float y =>
          simp only [display, String.toList_ofList] at h
          obtain ⟨htext, hsame⟩ := run_inj x.inToken_of_mem_text y.inToken_of_mem_text
            hrest.stops hrest'.stops h
          exact ⟨congrArg float (Binary.text_injective htext), hsame⟩
      | _ => cases hkind
  | text s =>
      cases w with
      | text t =>
          obtain ⟨rfl, hsame⟩ := quote_inj h
          exact ⟨rfl, hsame⟩
      | _ => cases hkind

end Value

/-! ## Tests -/

/-- The symbol that stands between a field and a constant.  A search for a part of a text is
written in another way. -/
def Comparison.symbol? : Comparison → Option String
  | .equal => some "=="
  | .notEqual => some "!="
  | .lessThan => some "<"
  | .lessThanOrEqual => some "<="
  | .greaterThan => some ">"
  | .greaterThanOrEqual => some ">="
  | .contains => none

namespace Comparison

theorem eq_of_symbol?_eq {a b : Comparison} (h : a.symbol? = b.symbol?) : a = b := by
  revert h
  cases a <;> cases b <;> decide

theorem ne_space_of_mem_symbol {c : Comparison} {symbol : String} (h : c.symbol? = some symbol) :
    ∀ d ∈ symbol.toList, (d != ' ') = true := by
  cases c <;> cases h <;> exact List.all_eq_true.mp rfl

end Comparison

/-- Letters, digits and underscores. -/
def Text.inName (c : Char) : Bool :=
  c.isAlphanum || c == '_'

/-- The names of the fields consist of ASCII letters, digits and underscores. -/
def Schema.PlainlyNamed (S : Schema R) : Prop :=
  ∀ name ∈ S.names, ∀ c ∈ name.toList, inName c = true

namespace Test

/-- The part of the text of a test that follows the field. -/
def predication (t : Test R) : String :=
  match t.comparison.symbol? with
  | some symbol => " " ++ symbol ++ " " ++ t.constant.display
  | none => ".contains(" ++ t.constant.display ++ ")"

theorem text_eq (t : Test R) : t.text = "obj." ++ t.field.name ++ t.predication := by
  obtain ⟨field, comparison, constant⟩ := t
  cases comparison <;> simp [text, predication, Comparison.symbol?, String.append_assoc]

theorem predication_of_symbol {t : Test R} {symbol : String}
    (h : t.comparison.symbol? = some symbol) (rest : List Char) :
    t.predication.toList ++ rest =
      ' ' :: (symbol.toList ++ ' ' :: (t.constant.display.toList ++ rest)) := by
  simp [predication, h]

theorem predication_of_call {t : Test R} (h : t.comparison.symbol? = none) (rest : List Char) :
    t.predication.toList ++ rest =
      '.' :: ("contains(".toList ++ (t.constant.display.toList ++ ')' :: rest)) := by
  simp [predication, h]

/-- The name of the field ends before the rest of the text of a test. -/
theorem stops_predication (t : Test R) (rest : List Char) :
    Stops inName (t.predication.toList ++ rest) := by
  cases hsymbol : t.comparison.symbol? with
  | none =>
      rw [predication_of_call hsymbol]
      exact stops_cons (by decide) _
  | some symbol =>
      rw [predication_of_symbol hsymbol]
      exact stops_cons (by decide) _

/-- A comparison and a constant of a known kind are determined by their text. -/
theorem predication_inj
    {t t' : Test R} {rest rest' : List Char} (hkind : t'.constant.kind = t.constant.kind)
    (hrest : Delimited rest) (hrest' : Delimited rest')
    (h : t.predication.toList ++ rest = t'.predication.toList ++ rest') :
    t.comparison = t'.comparison ∧ t.constant = t'.constant ∧ rest = rest' := by
  have hdisplay := Value.readable_display t.constant.kind t.constant rfl t'.constant hkind
  -- A call and a symbol differ in the first character; two symbols end at the next space.
  cases hsymbol : t.comparison.symbol? with
  | none =>
      rw [predication_of_call hsymbol] at h
      cases hsymbol' : t'.comparison.symbol? with
      | none =>
          rw [predication_of_call hsymbol'] at h
          have hcall := List.append_cancel_left (List.cons.inj h).2
          obtain ⟨hconstant, hclosing⟩ :=
            hdisplay _ _ (delimited_closing rest) (delimited_closing rest') hcall
          have hcomparison := Comparison.eq_of_symbol?_eq (hsymbol.trans hsymbol'.symm)
          exact ⟨hcomparison, hconstant, (List.cons.inj hclosing).2⟩
      | some symbol' =>
          rw [predication_of_symbol hsymbol'] at h
          cases (List.cons.inj h).1
  | some symbol =>
      rw [predication_of_symbol hsymbol] at h
      cases hsymbol' : t'.comparison.symbol? with
      | none =>
          rw [predication_of_call hsymbol'] at h
          cases (List.cons.inj h).1
      | some symbol' =>
          rw [predication_of_symbol hsymbol'] at h
          obtain ⟨hsame, htail⟩ := run_inj (Comparison.ne_space_of_mem_symbol hsymbol)
            (Comparison.ne_space_of_mem_symbol hsymbol') (stops_cons rfl _) (stops_cons rfl _)
            (List.cons.inj h).2
          obtain rfl := String.toList_inj.mp hsame
          obtain ⟨hconstant, hends⟩ := hdisplay _ _ hrest hrest' (List.cons.inj htail).2
          have hcomparison := Comparison.eq_of_symbol?_eq (hsymbol.trans hsymbol'.symm)
          exact ⟨hcomparison, hconstant, hends⟩

/-- The field is one of the schema, and the constant is of its kind. -/
structure Valid (S : Schema R) (t : Test R) : Prop where
  resolve_name : S.resolve t.field.name = some t.field
  kind_constant : t.constant.kind = t.field.kind

theorem Valid.name_mem {S : Schema R} {t : Test R} (h : t.Valid S) : t.field.name ∈ S.names :=
  List.mem_map.mpr ⟨t.field, Schema.mem_of_resolve h.resolve_name, rfl⟩

/-- The texts of the tests of a schema determine the tests. -/
theorem readable_text {S : Schema R} (hnames : S.PlainlyNamed) :
    Readable (Valid S) (text (R := R)) := by
  intro t ht t' ht' rest rest' hrest hrest' h
  rw [text_eq, text_eq, String.append_assoc, String.append_assoc] at h
  simp only [String.toList_append, List.append_assoc] at h
  -- The name comes first and gives the field, and with it the kind of the constant.
  obtain ⟨hname, hpredication⟩ := run_inj (hnames _ ht.name_mem) (hnames _ ht'.name_mem)
    (stops_predication t rest) (stops_predication t' rest') (List.append_cancel_left h)
  have hfield : t.field = t'.field := by
    have hresolve := ht.resolve_name
    rw [String.toList_inj.mp hname, ht'.resolve_name] at hresolve
    exact (Option.some.inj hresolve).symm
  have hkind : t'.constant.kind = t.constant.kind := by
    rw [ht'.kind_constant, ht.kind_constant, hfield]
  obtain ⟨hcomparison, hconstant, hends⟩ := predication_inj hkind hrest hrest' hpredication
  obtain ⟨field, comparison, constant⟩ := t
  obtain rfl := hfield
  obtain rfl := hcomparison
  obtain rfl := hconstant
  exact ⟨rfl, hends⟩

theorem head?_text (t : Test R) : t.text.toList.head? = some 'o' := by
  rw [text_eq, String.append_assoc, String.toList_append]
  rfl

end Test

/-! ## Predicates -/

namespace Predicate

theorem setApart : SetApart " && " " || " where
  both_delimited _ := delimited_space _
  either_delimited _ := delimited_space _
  ne_append _ _ := by simp

/-- The tests of a compiled predicate are tests of the schema. -/
theorem valid_of_mem_leaves
    {S : Schema R} {cs : List Criterion} {p : Predicate R} (h : compile S cs = .ok p) :
    ∀ t ∈ p.expression.leaves, t.Valid S := by
  intro t ht
  obtain ⟨hfits, -⟩ := exists_compile_iff.mp ⟨p, h⟩
  obtain ⟨c, hc, htest⟩ := exists_criterion_of_mem_leaves h ht
  obtain ⟨f, hf, rfl⟩ := Option.map_eq_some_iff.mp htest
  obtain ⟨-, constant, hconstant⟩ := hfits c hc f hf
  refine ⟨?_, ?_⟩
  · rw [Schema.name_of_resolve hf, hf]
  · rw [Field.held_of_convert hconstant]
    exact Field.kind_of_convert hconstant

/-- Predicates of one text, compiled for one schema, are the same. -/
theorem expression_eq_of_text_eq
    {S : Schema R} (hnames : S.PlainlyNamed) {cs cs' : List Criterion} {p p' : Predicate R}
    (h : compile S cs = .ok p) (h' : compile S cs' = .ok p') (htext : p.text = p'.text) :
    p.expression = p'.expression := by
  have hopening : ∀ t : Test R, t.Valid S → t.text.toList.head? ≠ some '(' := by
    intro t _
    rw [t.head?_text]
    decide
  have hreadable := Expression.readable_render setApart hopening (Test.readable_text hnames)
  exact hreadable.eq_of_text_eq (valid_of_mem_leaves h) (valid_of_mem_leaves h') htext

end Predicate

end Criteria
