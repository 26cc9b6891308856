import Mathlib.Data.List.Basic
import TrafficCheck.Json.Reader

/-!
# JSON texts read back

The reader takes a value off the front of a text and leaves the rest. A written value is told apart
from any text behind it that starts with a new line, a comma or the end of an array or an object, so
that the parts of a value read back one by one.

## Main definitions

* `Numeral.Proper`, `Json.Proper`: the numerals and values that have a text to read.
* `Json.ReadsBack`: a value reads back from its text at some depth, whatever ends it.

## Main statements

* `Json.readQuoted_flatMap_escape`, `Json.readNumeral?_text`: texts in quotes and numerals read
  back.
* `Json.readItems_prettyItems`, `Json.readFields_prettyFields`: items and fields read back up to
  their end.
* `Json.parse?_text`: a proper value reads back from its text.
-/

namespace TrafficCheck

/-! ## Numerals -/

/-- The digits of a number other than zero do not start with a zero. -/
theorem Decimal.head?_digits {n : Nat} (hn : 0 < n) : (digits n).head? ≠ some '0' := by
  induction n using Nat.strongRecOn with
  | ind n ih =>
    unfold digits at ih ⊢
    by_cases hlt : n < 10
    · rw [Nat.toDigits_of_lt_base hlt]
      simpa using Nat.ne_of_gt hn
    · rw [Nat.toDigits_of_base_le (by decide) (Nat.le_of_not_lt hlt),
        List.head?_append_of_ne_nil _ Nat.toDigits_ne_nil]
      exact ih (n / 10) (by omega) (by omega)

namespace Numeral

/-- The parts of a numeral are digits, and a whole part of several digits does not start with a
zero. -/
structure Proper (n : Numeral) : Prop where
  whole_ne_nil : n.whole ≠ []
  whole_digits : ∀ c ∈ n.whole, c.isDigit = true
  no_leading_zero : n.whole.head? = some '0' → n.whole.length ≤ 1
  fraction_digits : ∀ c ∈ n.fraction, c.isDigit = true

theorem proper_ofNat (n : Nat) : (ofNat n).Proper where
  whole_ne_nil := Decimal.digits_ne_nil n
  whole_digits _ := Decimal.isDigit_of_mem_digits
  no_leading_zero hzero := by
    rcases Nat.eq_zero_or_pos n with rfl | hn
    · decide
    · exact absurd hzero (Decimal.head?_digits hn)
  fraction_digits _ hc := nomatch hc

end Numeral

namespace Json

/-- A text behind a value: it is empty or goes on with a new line, a comma or the end of an array or
an object. -/
def Ends (rest : List Char) : Prop := ∀ c ∈ rest.head?, c = '\n' ∨ c = ',' ∨ c = ']' ∨ c = '\x7d'

theorem ends_newLine (depth : Nat) (cs : List Char) : Ends (newLine depth ++ cs) := by
  simp [Ends, newLine]

theorem ends_comma (cs : List Char) : Ends (',' :: cs) := by simp [Ends]

theorem Ends.not_isDigit {rest : List Char} (h : Ends rest) :
    ∀ c ∈ rest.head?, c.isDigit = false := by
  intro c hc
  rcases h c hc with rfl | rfl | rfl | rfl <;> decide

theorem readExponent?_of_ends {rest : List Char} (hrest : Ends rest) :
    readExponent? rest = some (none, rest) := by
  cases rest with
  | nil => rfl
  | cons c rest => rcases hrest c rfl with rfl | rfl | rfl | rfl <;> rfl

theorem readExponent?_text {rest : List Char} (hrest : Ends rest) (e : Int) :
    readExponent?
      ('e' :: ((if e < 0 then '-' :: Decimal.digits e.natAbs else Decimal.digits e.natAbs) ++
        rest)) = some (some e, rest) := by
  have hdigits : ∀ c ∈ Decimal.digits e.natAbs, c.isDigit = true :=
    fun _ => Decimal.isDigit_of_mem_digits
  obtain ⟨htake, hdrop⟩ := Decimal.takeWhile_isDigit hdigits hrest.not_isDigit
  have hne : Decimal.digits e.natAbs ≠ [] := Decimal.digits_ne_nil _
  by_cases he : e < 0
  · have habs : -(e.natAbs : Int) = e := by omega
    generalize e.natAbs = n at *
    simp [readExponent?, he, htake, hdrop, hne, habs]
  · have habs : (e.natAbs : Int) = e := by omega
    have hsigns : ∀ c ∈ (Decimal.digits e.natAbs ++ rest).head?, c ≠ '-' ∧ c ≠ '+' := by
      intro c hc
      rw [List.head?_append_of_ne_nil _ hne] at hc
      have := Decimal.isDigit_of_mem_digits (List.mem_of_mem_head? hc)
      constructor <;> rintro rfl <;> exact absurd this (by decide)
    rw [if_neg he]
    unfold readExponent?
    show (if _ then _ else _) = _
    rw [if_pos (Or.inl rfl)]
    generalize Decimal.digits e.natAbs ++ rest = cs at *
    split
    rename_i heq
    split at heq
    · exact absurd rfl (hsigns _ rfl).1
    · exact absurd rfl (hsigns _ rfl).2
    · obtain ⟨rfl, rfl⟩ := Prod.mk.inj heq
      simp [htake, hdrop, hne, habs]

/-- What the text of a numeral shows of its exponent. -/
def exponentText : Option Int → List Char
  | none => []
  | some e => 'e' :: if e < 0 then '-' :: Decimal.digits e.natAbs else Decimal.digits e.natAbs

theorem readExponent?_exponentText {rest : List Char} (hrest : Ends rest) (exponent : Option Int) :
    readExponent? (exponentText exponent ++ rest) = some (exponent, rest) := by
  cases exponent with
  | none => exact readExponent?_of_ends hrest
  | some e => exact readExponent?_text hrest e

theorem head?_exponentText {rest : List Char} (hrest : Ends rest) (exponent : Option Int) :
    ∀ c ∈ (exponentText exponent ++ rest).head?, c.isDigit = false ∧ c ≠ '.' := by
  intro c hc
  cases exponent with
  | none => rcases hrest c hc with rfl | rfl | rfl | rfl <;> decide
  | some e =>
    obtain rfl := Option.some.inj hc
    decide

/-- The sign that a text starts with, if it starts with one, and the text behind it. -/
def readSign : List Char → Bool × List Char
  | '-' :: rest => (true, rest)
  | cs => (false, cs)

/-- The digits behind a point that a text starts with, if it starts with one, and the text behind
them. -/
def readFraction? : List Char → Option (List Char × List Char)
  | '.' :: rest =>
    if (rest.takeWhile Char.isDigit).isEmpty then none
    else some (rest.takeWhile Char.isDigit, rest.dropWhile Char.isDigit)
  | rest => some ([], rest)

/-- A numeral is read in four parts. -/
theorem readNumeral?_eq (cs : List Char) :
    readNumeral? cs =
      let whole := (readSign cs).2.takeWhile Char.isDigit
      if whole.isEmpty || (whole.head? = some '0' && whole.length > 1) then none
      else do
        let (fraction, rest) ← readFraction? ((readSign cs).2.dropWhile Char.isDigit)
        let (exponent, rest) ← readExponent? rest
        return (⟨(readSign cs).1, whole, fraction, exponent⟩, rest) := by
  have hrest : ∀ (negative : Bool) (whole rest : List Char), (do
      let (fraction, rest) ← match rest with
        | '.' :: rest =>
          let ds := rest.takeWhile Char.isDigit
          if ds.isEmpty then none else some (ds, rest.dropWhile Char.isDigit)
        | rest => some ([], rest)
      let (exponent, rest) ← readExponent? rest
      return ((⟨negative, whole, fraction, exponent⟩ : Numeral), rest)) = (do
      let (fraction, rest) ← readFraction? rest
      let (exponent, rest) ← readExponent? rest
      return ((⟨negative, whole, fraction, exponent⟩ : Numeral), rest)) := by
    intro negative whole rest
    unfold readFraction?
    split
    · dsimp only
      split <;> rfl
    · rfl
  unfold readNumeral?
  split
  rename_i negative rest heq
  rw [show readSign cs = (negative, rest) from heq]
  exact ite_congr rfl (fun _ => rfl) fun _ => hrest _ _ _

theorem readSign_append {negative : Bool} {cs : List Char} (hcs : ∀ c ∈ cs.head?, c ≠ '-') :
    readSign ((if negative then ['-'] else []) ++ cs) = (negative, cs) := by
  cases negative with
  | true => rfl
  | false =>
    cases cs with
    | nil => rfl
    | cons c cs => simp [readSign, hcs c rfl]

theorem readFraction?_append {fraction behind : List Char}
    (hfraction : ∀ c ∈ fraction, c.isDigit = true)
    (hbehind : ∀ c ∈ behind.head?, c.isDigit = false ∧ c ≠ '.') :
    readFraction? ((if fraction.isEmpty then [] else '.' :: fraction) ++ behind) =
      some (fraction, behind) := by
  cases fraction with
  | nil =>
    cases behind with
    | nil => rfl
    | cons c behind => simp [readFraction?, (hbehind c rfl).2]
  | cons d ds =>
    obtain ⟨htake, hdrop⟩ := Decimal.takeWhile_isDigit hfraction fun c hc => (hbehind c hc).1
    rw [List.cons_append] at htake hdrop
    simp [readFraction?, htake, hdrop]

/-- A proper numeral is told apart from the text behind it. -/
theorem readNumeral?_text {n : Numeral} (hn : n.Proper) {rest : List Char} (hrest : Ends rest) :
    readNumeral? (n.text ++ rest) = some (n, rest) := by
  obtain ⟨negative, whole, fraction, exponent⟩ := n
  obtain ⟨hne, hwhole, hzero, hfraction⟩ := hn
  dsimp only at hne hwhole hzero hfraction
  have htext : (⟨negative, whole, fraction, exponent⟩ : Numeral).text ++ rest =
      (if negative then ['-'] else []) ++ (whole ++
        ((if fraction.isEmpty then [] else '.' :: fraction) ++
          (exponentText exponent ++ rest))) := by
    cases exponent <;> simp [Numeral.text, exponentText]
  have hbehind := head?_exponentText hrest exponent
  have hpoint : ∀ c ∈ ((if fraction.isEmpty then [] else '.' :: fraction) ++
      (exponentText exponent ++ rest)).head?, c.isDigit = false := by
    cases fraction with
    | nil => exact fun c hc => (hbehind c hc).1
    | cons d ds => simp
  have hfirst : ∀ cs, ∀ c ∈ (whole ++ cs).head?, c ≠ '-' := by
    rintro cs c hc rfl
    rw [List.head?_append_of_ne_nil _ hne] at hc
    exact absurd (hwhole '-' (List.mem_of_mem_head? hc)) (by decide)
  obtain ⟨htake, hdrop⟩ := Decimal.takeWhile_isDigit hwhole hpoint
  rw [htext, readNumeral?_eq, readSign_append (hfirst _), htake, hdrop,
    readFraction?_append hfraction hbehind]
  have hproper : (whole.isEmpty || (whole.head? = some '0' && whole.length > 1)) = false := by
    simpa [hne] using hzero
  simp [hproper, readExponent?_exponentText hrest]

/-! ## Texts in quotes -/

theorem hexValue?_hexDigit (n : Nat) : hexValue? (hexDigit n) = some (n % 16) := by
  have hdigit : ∀ k < 16, hexValue? (Nat.digitChar k) = some k := by decide
  exact hdigit (n % 16) (Nat.mod_lt n (by decide))

/-- Two digits behind two zeros write a character among the first ones. -/
theorem readCodePoint?_hexDigits {c : Char} (hc : c.toNat < 256) (rest : List Char) :
    readCodePoint? ('0' :: '0' :: hexDigit (c.toNat / 16) :: hexDigit c.toNat :: rest) =
      some (c, rest) := by
  have hzero : hexValue? '0' = some 0 := by decide
  have hunit : ((0 * 16 + 0) * 16 + c.toNat / 16 % 16) * 16 + c.toNat % 16 = c.toNat := by omega
  have hlow : ¬(0xD800 ≤ c.toNat ∧ c.toNat < 0xDC00) := by omega
  have hhigh : ¬(0xDC00 ≤ c.toNat ∧ c.toNat < 0xE000) := by omega
  simp only [readCodePoint?, readUnit?, hzero, hexValue?_hexDigit, Option.bind_eq_bind,
    Option.bind_some, Option.pure_def, hunit, if_neg hlow, if_neg hhigh, Char.ofNat_toNat]

theorem readQuoted_letter {c letter : Char} (hletter : letter ≠ 'u')
    (hc : unescape? letter = some c) (bound : Nat) (rest : List Char) :
    readQuoted (bound + 1) ('\\' :: letter :: rest) =
      (readQuoted bound rest).map fun r => (c :: r.1, r.2) := by
  rw [readQuoted, hc]
  · cases readQuoted bound rest <;> rfl
  · exact hletter

/-- An escaped character is read as that character. -/
theorem readQuoted_escape (bound : Nat) (c : Char) (rest : List Char) :
    readQuoted (bound + 1) (escape c ++ rest) =
      (readQuoted bound rest).map fun r => (c :: r.1, r.2) := by
  unfold escape
  iterate 7
    split
    · subst_vars
      exact readQuoted_letter (by decide) rfl bound rest
  split
  · rename_i hlow
    have hpoint := readCodePoint?_hexDigits (Nat.lt_trans hlow (by decide)) rest
    simp only [List.cons_append, List.nil_append]
    rw [readQuoted, hpoint, Option.bind_eq_bind, Option.bind_some]
    dsimp only
    cases readQuoted bound rest <;> rfl
  · rename_i hquote hslash _ _ _ _ _ hplain
    have hwhole : ¬(c = '\\' ∨ c.toNat < 32) := not_or.2 ⟨hslash, hplain⟩
    rw [List.cons_append, List.nil_append, readQuoted, if_neg hwhole]
    · cases readQuoted bound rest <;> rfl
    all_goals simp_all

/-- A text in quotes is told apart from what follows it. -/
theorem readQuoted_flatMap_escape {s : List Char} {bound : Nat} (hbound : s.length < bound)
    (rest : List Char) : readQuoted bound (s.flatMap escape ++ '"' :: rest) = some (s, rest) := by
  induction s generalizing bound with
  | nil =>
    obtain ⟨bound, rfl⟩ := Nat.exists_eq_add_of_lt hbound
    rfl
  | cons c s ih =>
    obtain ⟨bound, rfl⟩ := Nat.exists_eq_add_one_of_ne_zero (Nat.ne_zero_of_lt hbound)
    rw [List.flatMap_cons, List.append_assoc, readQuoted_escape, ih (Nat.lt_of_succ_lt_succ hbound)]
    rfl

theorem one_le_length_escape (c : Char) : 1 ≤ (escape c).length := by
  unfold escape
  iterate 8
    split
    · simp
  simp

theorem length_le_flatMap_escape (s : List Char) : s.length ≤ (s.flatMap escape).length := by
  induction s with
  | nil => simp
  | cons c s ih =>
    have := one_le_length_escape c
    simp only [List.flatMap_cons, List.length_append, List.length_cons]
    omega

/-- A quoted text is longer than the text in it, so that there are steps enough to read it. -/
theorem readQuoted_quote (name : String) {bound : Nat} (hbound : (quote name).length ≤ bound + 1)
    (rest : List Char) :
    ∃ cs, quote name ++ rest = '"' :: cs ∧ readQuoted bound cs = some (name.toList, rest) := by
  have hlength := length_le_flatMap_escape name.toList
  simp only [quote, List.length_cons, List.length_append, List.length_nil] at hbound
  refine ⟨name.toList.flatMap escape ++ '"' :: rest, by simp [quote], ?_⟩
  exact readQuoted_flatMap_escape (by omega) rest

/-! ## Values -/

/-- All numerals in a value are proper. -/
inductive Proper : Json → Prop
  | null : Proper .null
  | bool (b : Bool) : Proper (.bool b)
  | number {n : Numeral} (hn : n.Proper) : Proper (.number n)
  | string (s : String) : Proper (.string s)
  | array {items : List Json} (hitems : ∀ item ∈ items, Proper item) : Proper (.array items)
  | object {fields : List (String × Json)} (hfields : ∀ field ∈ fields, Proper field.2) :
    Proper (.object fields)

/-- A value reads back from its text at some depth, whatever ends it. -/
def ReadsBack (depth : Nat) (j : Json) : Prop :=
  ∀ bound rest, (pretty depth j).length < bound → Ends rest →
    readValue bound (pretty depth j ++ rest) = some (j, rest)

@[simp] theorem skipBlanks_newLine (depth : Nat) (cs : List Char) :
    skipBlanks (newLine depth ++ cs) = skipBlanks cs := by
  have hblank : ∀ c ∈ newLine depth, isBlank c = true := by
    intro c hc
    simp only [newLine, List.mem_cons, List.mem_replicate] at hc
    rcases hc with rfl | ⟨-, rfl⟩ <;> rfl
  exact List.dropWhile_append_of_pos hblank

theorem readValue_newLine (bound depth : Nat) (cs : List Char) :
    readValue bound (newLine depth ++ cs) = readValue bound cs := by
  cases bound with
  | zero => simp [readValue]
  | succ bound => simp only [readValue, skipBlanks_newLine]

theorem readItems_newLine (bound depth : Nat) (cs : List Char) :
    readItems bound (newLine depth ++ cs) = readItems bound cs := by
  cases bound with
  | zero => simp [readItems]
  | succ bound => simp only [readItems, readValue_newLine]

theorem readFields_newLine (bound depth : Nat) (cs : List Char) :
    readFields bound (newLine depth ++ cs) = readFields bound cs := by
  cases bound with
  | zero => simp [readFields]
  | succ bound => simp only [readFields, skipBlanks_newLine]

theorem skipBlanks_cons {c : Char} (hc : isBlank c = false) (cs : List Char) :
    skipBlanks (c :: cs) = c :: cs :=
  List.dropWhile_cons_of_neg (by simp [hc])

/-- The text of a proper numeral starts with its sign or a digit. -/
theorem exists_text_eq_cons {n : Numeral} (hn : n.Proper) :
    ∃ c cs, n.text = c :: cs ∧ (c = '-' ∨ c.isDigit = true) := by
  obtain ⟨d, ds, hwhole⟩ := List.exists_cons_of_ne_nil hn.whole_ne_nil
  cases hsign : n.negative with
  | true => exact ⟨'-', _, by simp [Numeral.text, hsign]; rfl, .inl rfl⟩
  | false =>
    exact ⟨d, _, by simp [Numeral.text, hsign, hwhole]; rfl,
      .inr (hn.whole_digits d (by simp [hwhole]))⟩

theorem not_isBlank_of_sign_or_digit {c : Char} (hc : c = '-' ∨ c.isDigit = true) :
    isBlank c = false := by
  rw [Bool.eq_false_iff]
  intro hblank
  simp only [isBlank, Bool.or_eq_true, decide_eq_true_iff] at hblank
  rcases hblank with ((rfl | rfl) | rfl) | rfl <;> exact absurd hc (by decide)

theorem readValue_numeral {c : Char} (hc : c = '-' ∨ c.isDigit = true) (bound : Nat)
    (cs : List Char) :
    readValue (bound + 1) (c :: cs) =
      (readNumeral? (c :: cs)).map fun r => (.number r.1, r.2) := by
  rw [readValue, skipBlanks_cons (not_isBlank_of_sign_or_digit hc)]
  split
  case h_7 => rfl
  all_goals
    rename_i heq
    obtain ⟨rfl, -⟩ := List.cons.inj heq
    exact absurd hc (by decide)

/-- The text of a proper value starts with a character that is no blank and ends no array. -/
theorem exists_pretty_eq_cons {j : Json} (hj : j.Proper) (depth : Nat) :
    ∃ c cs, pretty depth j = c :: cs ∧ isBlank c = false ∧ c ≠ ']' := by
  cases hj with
  | null => exact ⟨_, _, rfl, by decide, by decide⟩
  | bool b => cases b <;> exact ⟨_, _, rfl, by decide, by decide⟩
  | string s => exact ⟨_, _, rfl, by decide, by decide⟩
  | @array items _ => cases items <;> exact ⟨_, _, rfl, by decide, by decide⟩
  | @object fields _ => cases fields <;> exact ⟨_, _, rfl, by decide, by decide⟩
  | number hn =>
    obtain ⟨c, cs, htext, hc⟩ := exists_text_eq_cons hn
    refine ⟨c, cs, htext, not_isBlank_of_sign_or_digit hc, ?_⟩
    rintro rfl
    exact absurd hc (by decide)

/-- Items that read back are read up to the end of their array. -/
theorem readItems_prettyItems {depth : Nat} {item : Json} {items : List Json}
    (hitems : ∀ j ∈ item :: items, ReadsBack (depth + 1) j) {bound : Nat}
    (hbound : (pretty (depth + 1) item ++ prettyItems depth items).length < bound)
    (rest : List Char) :
    readItems bound (pretty (depth + 1) item ++ (prettyItems depth items ++ rest)) =
      some (item :: items, rest) := by
  induction items generalizing item bound with
  | nil =>
    obtain ⟨bound, rfl⟩ := Nat.exists_eq_add_one_of_ne_zero (Nat.ne_zero_of_lt hbound)
    simp only [prettyItems, List.length_append, List.length_cons, List.length_nil] at hbound
    have hitem := hitems item (by simp) bound (prettyItems depth [] ++ rest) (by omega) (by
      rw [prettyItems, List.append_assoc]
      exact ends_newLine _ _)
    rw [readItems, hitem]
    simp [prettyItems, List.append_assoc, skipBlanks_cons (c := ']') rfl]
  | cons next items ih =>
    obtain ⟨bound, rfl⟩ := Nat.exists_eq_add_one_of_ne_zero (Nat.ne_zero_of_lt hbound)
    simp only [prettyItems, List.length_append, List.length_cons] at hbound
    have hitem := hitems item (by simp) bound (prettyItems depth (next :: items) ++ rest) (by omega)
      (ends_comma _)
    have hlength : (pretty (depth + 1) next ++ prettyItems depth items).length < bound := by
      simp only [List.length_append]
      omega
    have hrest := ih (fun j hj => hitems j (by simp [hj])) hlength
    rw [readItems, hitem]
    simp [prettyItems, List.append_assoc, skipBlanks_cons (c := ',') rfl, readItems_newLine, hrest]

/-- A field whose value reads back is read, and then what follows it. -/
theorem readFields_prettyField {depth : Nat} {field : String × Json}
    (hfield : ReadsBack depth field.2) {bound : Nat}
    (hbound : (prettyField depth field).length < bound) {behind : List Char}
    (hbehind : Ends behind) :
    readFields (bound + 1) (prettyField depth field ++ behind) =
      match skipBlanks behind with
      | ',' :: rest => (readFields bound rest).map fun r => (field :: r.1, r.2)
      | '\x7d' :: rest => some ([field], rest)
      | _ => none := by
  obtain ⟨name, value⟩ := field
  simp only [prettyField, List.length_append, List.length_cons] at hbound
  have hbound' : (quote name).length ≤ bound + 1 := by omega
  obtain ⟨cs, hcs, hname⟩ := readQuoted_quote name hbound'
    (':' :: ' ' :: (pretty depth value ++ behind))
  have hvalue : readValue bound (' ' :: (pretty depth value ++ behind)) = some (value, behind) := by
    rw [← hfield bound behind (by dsimp only; omega) hbehind]
    cases bound with
    | zero => simp [readValue]
    | succ bound => rfl
  rw [prettyField, List.append_assoc, List.cons_append, List.cons_append, hcs, readFields,
    skipBlanks_cons rfl]
  simp only [hname, Option.bind_eq_bind, Option.bind_some]
  rw [skipBlanks_cons rfl]
  simp only [hvalue, Option.bind_some, String.ofList_toList]
  generalize skipBlanks behind = next
  split
  · rename_i rest
    change _ = Option.map _ (readFields bound rest)
    cases readFields bound rest <;> rfl
  · rfl
  · grind

/-- Fields whose values read back are read up to the end of their object. -/
theorem readFields_prettyFields {depth : Nat} {field : String × Json}
    {fields : List (String × Json)}
    (hfields : ∀ f ∈ field :: fields, ReadsBack (depth + 1) f.2) {bound : Nat}
    (hbound : (prettyField (depth + 1) field ++ prettyFields depth fields).length < bound)
    (rest : List Char) :
    readFields bound (prettyField (depth + 1) field ++ (prettyFields depth fields ++ rest)) =
      some (field :: fields, rest) := by
  induction fields generalizing field bound with
  | nil =>
    obtain ⟨bound, rfl⟩ := Nat.exists_eq_add_one_of_ne_zero (Nat.ne_zero_of_lt hbound)
    simp only [prettyFields, List.length_append, List.length_cons, List.length_nil] at hbound
    have hends : Ends (prettyFields depth [] ++ rest) := by
      rw [prettyFields, List.append_assoc]
      exact ends_newLine _ _
    rw [readFields_prettyField (hfields field (by simp)) (by omega) hends]
    simp [prettyFields, List.append_assoc, skipBlanks_cons (c := '\x7d') rfl]
  | cons next fields ih =>
    obtain ⟨bound, rfl⟩ := Nat.exists_eq_add_one_of_ne_zero (Nat.ne_zero_of_lt hbound)
    simp only [prettyFields, List.length_append, List.length_cons] at hbound
    have hends : Ends (prettyFields depth (next :: fields) ++ rest) := ends_comma _
    have hlength : (prettyField (depth + 1) next ++ prettyFields depth fields).length < bound := by
      simp only [List.length_append]
      omega
    have hrest := ih (fun f hf => hfields f (by simp [hf])) hlength
    rw [readFields_prettyField (hfields field (by simp)) (by omega) hends]
    simp [prettyFields, List.append_assoc, skipBlanks_cons (c := ',') rfl,
      readFields_newLine, hrest]

/-- A proper value reads back from its text, at any depth and whatever ends it. -/
theorem readsBack {j : Json} (hj : j.Proper) (depth : Nat) : ReadsBack depth j := by
  induction hj generalizing depth with
  | null =>
    intro bound rest hbound hrest
    obtain ⟨bound, rfl⟩ := Nat.exists_eq_add_one_of_ne_zero (Nat.ne_zero_of_lt hbound)
    rfl
  | bool b =>
    intro bound rest hbound hrest
    obtain ⟨bound, rfl⟩ := Nat.exists_eq_add_one_of_ne_zero (Nat.ne_zero_of_lt hbound)
    cases b <;> rfl
  | number hn =>
    intro bound rest hbound hrest
    obtain ⟨bound, rfl⟩ := Nat.exists_eq_add_one_of_ne_zero (Nat.ne_zero_of_lt hbound)
    obtain ⟨c, cs, htext, hc⟩ := exists_text_eq_cons hn
    have hread := readNumeral?_text hn hrest
    rw [htext, List.cons_append] at hread
    rw [pretty, htext, List.cons_append, readValue_numeral hc, hread]
    rfl
  | string s =>
    intro bound rest hbound hrest
    obtain ⟨bound, rfl⟩ := Nat.exists_eq_add_one_of_ne_zero (Nat.ne_zero_of_lt hbound)
    obtain ⟨cs, hcs, hread⟩ := readQuoted_quote s (Nat.le_of_lt hbound) rest
    rw [pretty, hcs, readValue, skipBlanks_cons rfl]
    simp [hread]
  | @array items hitems ih =>
    intro bound rest hbound hrest
    obtain ⟨bound, rfl⟩ := Nat.exists_eq_add_one_of_ne_zero (Nat.ne_zero_of_lt hbound)
    cases items with
    | nil => rfl
    | cons item items =>
      simp only [pretty, List.length_cons, List.length_append] at hbound
      have hlength : (pretty (depth + 1) item ++ prettyItems depth items).length < bound := by
        simp only [List.length_append]
        omega
      have hread := readItems_prettyItems (fun j hj => ih j hj (depth + 1)) hlength rest
      obtain ⟨c, cs, hitem, hblank, hc⟩ := exists_pretty_eq_cons (hitems item (by simp)) (depth + 1)
      rw [hitem, List.cons_append] at hread
      simp only [pretty, List.cons_append, List.append_assoc]
      rw [readValue, skipBlanks_cons rfl]
      simp only [skipBlanks_newLine, hitem, List.cons_append, skipBlanks_cons hblank]
      split
      · simp_all
      · rw [hread]; rfl
  | @object fields hfields ih =>
    intro bound rest hbound hrest
    obtain ⟨bound, rfl⟩ := Nat.exists_eq_add_one_of_ne_zero (Nat.ne_zero_of_lt hbound)
    cases fields with
    | nil => rfl
    | cons field fields =>
      simp only [pretty, List.length_cons, List.length_append] at hbound
      have hlength :
          (prettyField (depth + 1) field ++ prettyFields depth fields).length < bound := by
        simp only [List.length_append]
        omega
      have hread := readFields_prettyFields (fun f hf => ih f hf (depth + 1)) hlength rest
      obtain ⟨cs, hfield⟩ : ∃ cs, prettyField (depth + 1) field = '"' :: cs := by
        cases field
        exact ⟨_, rfl⟩
      rw [hfield, List.cons_append] at hread
      simp only [pretty, List.cons_append, List.append_assoc]
      rw [readValue, skipBlanks_cons rfl]
      simp only [skipBlanks_newLine, hfield, List.cons_append]
      rw [skipBlanks_cons rfl]
      change (readFields bound _).map _ = _
      rw [hread]
      rfl

/-- A proper value reads back from its text on a line of its own. -/
theorem parse?_text {j : Json} (hj : j.Proper) : parse? (j.text ++ "\n").toList = some j := by
  have htext : (j.text ++ "\n").toList = pretty 0 j ++ ['\n'] := by simp [text]
  have hbound : (pretty 0 j).length < (pretty 0 j ++ ['\n']).length + 1 := by
    rw [List.length_append]
    omega
  have hread := readsBack hj 0 _ ['\n'] hbound (ends_newLine 0 [])
  rw [htext, parse?, hread]
  rfl

end Json

end TrafficCheck
