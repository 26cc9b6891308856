import Mathlib.Data.List.TakeWhile
import TrafficCheck.Proofs.Numerals
import TrafficCheck.Token.Line

/-!
# Words that write rules

A word writes a rule if it is the keyword of one, or if it has the form of a span and its seconds
are in order and fit into 64 bits. A word of that form whose seconds do not is refused, and every
other word is none of a rule. The text of a rule is such a word, and a line of an assertion starts
with one and has no other.

## Main definitions

* `Rule.WritesSpan`: the form of spans.

## Main statements

* `Rule.read_cases`: what a word can be.
* `Rule.read_text`: the text of a rule writes that rule.
* `Token.ofAssertion_eq_ok_iff`: which lines start with the rule of an assertion.
* `Rule.rule_words_characterized`: which words write which rules.
-/

namespace TrafficCheck

namespace Rule

variable {word lower upper : List Char} {first last : Nat} {r : Rule} {s : Span}

/-! ## The form of spans -/

/-- A rule is written by its keyword alone. -/
def IsKeyword (r : Rule) : Prop := ∀ s, r ≠ .span s

/-- A word has the form of a span between two seconds, each written in decimal behind any zeros. -/
def WritesSpan (word : List Char) (first last : Nat) : Prop :=
  ∃ lower upper, Decimal.Writes lower first ∧ Decimal.Writes upper last ∧
    word = "SPAN[".toList ++ (lower ++ ':' :: (upper ++ [']']))

theorem spanFields?_eq_some_iff :
    spanFields? word = some (lower, upper) ↔
      word = "SPAN[".toList ++ (lower ++ ':' :: (upper ++ [']'])) ∧
        (lower ≠ [] ∧ ∀ c ∈ lower, c.isDigit = true) ∧
        (upper ≠ [] ∧ ∀ c ∈ upper, c.isDigit = true) := by
  constructor
  · intro h
    unfold spanFields? at h
    split at h
    · next rest =>
      simp only at h
      split at h
      · next tail hdrop =>
        split at h
        · next hform =>
          obtain ⟨hend, hlower, hupper⟩ := hform
          obtain ⟨rfl, rfl⟩ := Prod.mk.inj (Option.some.inj h)
          refine ⟨?_, ⟨hlower, fun c => List.mem_takeWhile_imp⟩, hupper,
            fun c => List.mem_takeWhile_imp⟩
          rw [← hend, List.takeWhile_append_dropWhile, ← hdrop, List.takeWhile_append_dropWhile]
          rfl
        · exact absurd h (by simp)
      · exact absurd h (by simp)
    · exact absurd h (by simp)
  · rintro ⟨rfl, ⟨hlower, hdigits⟩, hupper, hdigits'⟩
    have hsplit := Decimal.takeWhile_isDigit hdigits
      (show ∀ c ∈ (':' :: (upper ++ [']'])).head?, c.isDigit = false by simp)
    have hsplit' := Decimal.takeWhile_isDigit hdigits'
      (show ∀ c ∈ [']'].head?, c.isDigit = false by simp)
    simp [spanFields?, hsplit, hsplit', hlower, hupper]

/-- The fields of a word are the numerals of its seconds. -/
theorem writesSpan_iff : WritesSpan word first last ↔
    ∃ lower upper, spanFields? word = some (lower, upper) ∧ Decimal.value lower = first ∧
      Decimal.value upper = last := by
  simp only [WritesSpan, spanFields?_eq_some_iff, Decimal.writes_iff]
  constructor
  · rintro ⟨lower, upper, ⟨hlower, hfirst⟩, ⟨hupper, hlast⟩, hword⟩
    exact ⟨lower, upper, ⟨hword, hlower, hupper⟩, hfirst, hlast⟩
  · rintro ⟨lower, upper, ⟨hword, hlower, hupper⟩, hfirst, hlast⟩
    exact ⟨lower, upper, ⟨hlower, hfirst⟩, ⟨hupper, hlast⟩, hword⟩

theorem spanFields?_eq_none_iff :
    spanFields? word = none ↔ ∀ first last, ¬WritesSpan word first last := by
  simp only [writesSpan_iff]
  constructor
  · rintro hnone first last ⟨lower, upper, hsome, -⟩
    exact absurd (hnone.symm.trans hsome) (by simp)
  · intro hnone
    refine Option.eq_none_iff_forall_ne_some.2 fun fields hsome => ?_
    exact hnone _ _ ⟨fields.1, fields.2, hsome, rfl, rfl⟩

theorem WritesSpan.ne_keyword (h : WritesSpan word first last) :
    word ≠ "LAST".toList ∧ word ≠ "ANY".toList ∧ word ≠ "ANY_EXCEPT_LAST".toList := by
  obtain ⟨lower, upper, -, -, rfl⟩ := h
  simp

/-! ## Readings -/

theorem WritesSpan.read_eq (h : WritesSpan word first last) : read word = ofSeconds first last := by
  obtain ⟨hlast, hany, hexcept⟩ := h.ne_keyword
  obtain ⟨lower, upper, hfields, rfl, rfl⟩ := writesSpan_iff.1 h
  rw [read, if_neg hlast, if_neg hany, if_neg hexcept, hfields]

theorem ofSeconds_eq_rule_iff :
    ofSeconds first last = .rule r ↔ ∃ s, r = .span s ∧ s.first = first ∧ s.last = last := by
  unfold ofSeconds
  split
  · next h =>
    rw [Reading.rule.injEq]
    constructor
    · rintro rfl
      exact ⟨_, rfl, rfl, rfl⟩
    · rintro ⟨s, rfl, rfl, rfl⟩
      rfl
  · next h =>
    refine iff_of_false (by simp) ?_
    rintro ⟨s, -, rfl, rfl⟩
    exact h ⟨s.first_le_last, s.last_lt⟩

theorem ofSeconds_eq_invalidSpan_iff :
    ofSeconds first last = .invalidSpan ↔ last < first ∨ UInt64.size ≤ last := by
  unfold ofSeconds
  split
  · next h => exact iff_of_false (by simp) (by omega)
  · next h => exact iff_of_true rfl (by omega)

/-- A word is a keyword, or has the form of a span, or is no rule. -/
theorem read_cases (word : List Char) :
    (∃ r : Rule, r.IsKeyword ∧ word = r.text.toList ∧ read word = .rule r) ∨
    (∃ first last, WritesSpan word first last ∧ read word = ofSeconds first last) ∨
    (∀ r : Rule, r.IsKeyword → word ≠ r.text.toList) ∧
      (∀ first last, ¬WritesSpan word first last) ∧ read word = .other := by
  by_cases hlast : word = "LAST".toList
  · exact .inl ⟨.last, nofun, hlast, by rw [hlast]; rfl⟩
  by_cases hany : word = "ANY".toList
  · exact .inl ⟨.any, nofun, hany, by rw [hany]; rfl⟩
  by_cases hexcept : word = "ANY_EXCEPT_LAST".toList
  · exact .inl ⟨.anyExceptLast, nofun, hexcept, by rw [hexcept]; rfl⟩
  by_cases hspan : ∃ first last, WritesSpan word first last
  · obtain ⟨first, last, h⟩ := hspan
    exact .inr (.inl ⟨first, last, h, h.read_eq⟩)
  · have hnone : ∀ first last, ¬WritesSpan word first last := fun first last h =>
      hspan ⟨first, last, h⟩
    refine .inr (.inr ⟨?_, hnone, ?_⟩)
    · intro r hr
      cases r with
      | last => exact hlast
      | any => exact hany
      | anyExceptLast => exact hexcept
      | span s => exact absurd rfl (hr s)
    · rw [read, if_neg hlast, if_neg hany, if_neg hexcept, spanFields?_eq_none_iff.2 hnone]

/-! ## Texts -/

theorem toList_text_span (s : Span) : (Rule.span s).text.toList =
    'S' :: 'P' :: 'A' :: 'N' :: '[' ::
      (Decimal.digits s.first ++ ':' :: (Decimal.digits s.last ++ [']'])) := by
  simp [text, Decimal.digits]
  rfl

theorem writesSpan_text (s : Span) : WritesSpan (Rule.span s).text.toList s.first s.last :=
  ⟨_, _, Decimal.writes_digits s.first, Decimal.writes_digits s.last, toList_text_span s⟩

/-- The text of a rule writes that rule. -/
theorem read_text (r : Rule) : read r.text.toList = .rule r := by
  cases r with
  | last => decide
  | any => decide
  | anyExceptLast => decide
  | span s =>
    rw [(writesSpan_text s).read_eq]
    exact ofSeconds_eq_rule_iff.2 ⟨s, rfl, rfl, rfl⟩

/-- A word writes a rule that is no span just if it is its keyword. -/
theorem read_eq_keyword_iff (hr : r.IsKeyword) : read word = .rule r ↔ word = r.text.toList := by
  constructor
  · intro h
    rcases read_cases word with ⟨r', -, hword, hread⟩ | ⟨first, last, -, hread⟩ | ⟨-, -, hread⟩
    · obtain rfl := Reading.rule.inj (h.symm.trans hread)
      exact hword
    · obtain ⟨s, hs, -⟩ := ofSeconds_eq_rule_iff.1 (hread.symm.trans h)
      exact absurd hs (hr s)
    · exact absurd (h.symm.trans hread) (by simp)
  · rintro rfl
    exact read_text r

theorem read_eq_span_iff : read word = .rule (.span s) ↔ WritesSpan word s.first s.last := by
  constructor
  · intro h
    rcases read_cases word with ⟨r, hr, -, hread⟩ | ⟨first, last, hword, hread⟩ | ⟨-, -, hread⟩
    · exact absurd (Reading.rule.inj (hread.symm.trans h)) (hr s)
    · obtain ⟨s', hs, rfl, rfl⟩ := ofSeconds_eq_rule_iff.1 (hread.symm.trans h)
      obtain rfl := Rule.span.inj hs
      exact hword
    · exact absurd (h.symm.trans hread) (by simp)
  · intro h
    rw [h.read_eq]
    exact ofSeconds_eq_rule_iff.2 ⟨s, rfl, rfl, rfl⟩

theorem read_eq_invalidSpan_iff : read word = .invalidSpan ↔
    ∃ first last, WritesSpan word first last ∧ (last < first ∨ UInt64.size ≤ last) := by
  constructor
  · intro h
    rcases read_cases word with ⟨r, -, -, hread⟩ | ⟨first, last, hword, hread⟩ | ⟨-, -, hread⟩
    · exact absurd (h.symm.trans hread) (by simp)
    · exact ⟨first, last, hword, ofSeconds_eq_invalidSpan_iff.1 (hread.symm.trans h)⟩
    · exact absurd (h.symm.trans hread) (by simp)
  · rintro ⟨first, last, hword, hseconds⟩
    rw [hword.read_eq]
    exact ofSeconds_eq_invalidSpan_iff.2 hseconds

theorem read_eq_other_iff : read word = .other ↔
    (∀ r : Rule, r.IsKeyword → word ≠ r.text.toList) ∧
      ∀ first last, ¬WritesSpan word first last := by
  constructor
  · intro h
    refine ⟨?_, ?_⟩
    · rintro r - rfl
      exact absurd (h.symm.trans (read_text r)) (by simp)
    · intro first last hword
      rw [hword.read_eq, ofSeconds] at h
      split at h <;> exact absurd h (by simp)
  · rintro ⟨hkeyword, hspan⟩
    rcases read_cases word with ⟨r, hr, hword, -⟩ | ⟨first, last, hword, -⟩ | ⟨-, -, hread⟩
    · exact absurd hword (hkeyword r hr)
    · exact absurd hword (hspan first last)
    · exact hread

end Rule

/-! ## Lines of assertions -/

/-- A line starts with the rule of an assertion just if its first token is that rule and no other
token is a rule. -/
theorem Token.ofAssertion_eq_ok_iff {line : String} {r : Rule} {rest : List Token} :
    ofAssertion line = .ok (r, rest) ↔
      ofLine line = .ok (.rule r :: rest) ∧ ∀ t ∈ rest, ∀ r', t ≠ .rule r' := by
  have hnone : rest.find? isRule = none ↔ ∀ t ∈ rest, ∀ r', t ≠ .rule r' := by
    rw [List.find?_eq_none]
    refine forall₂_congr fun t _ => ?_
    cases t <;> simp [isRule]
  unfold ofAssertion
  split
  · next e hline => simp [hline]
  · next hline => simp [hline]
  · next r' tokens hline =>
    rw [hline, Except.ok.injEq, List.cons.injEq, Token.rule.injEq]
    split
    · next misplaced hsome =>
      refine iff_of_false (by simp) ?_
      rintro ⟨⟨-, rfl⟩, hrules⟩
      exact absurd ((hnone.2 hrules).symm.trans hsome) (by simp)
    · next hfind =>
      rw [Except.ok.injEq, Prod.mk.injEq]
      constructor
      · rintro ⟨rfl, rfl⟩
        exact ⟨⟨rfl, rfl⟩, hnone.1 hfind⟩
      · exact fun h => h.1
  · next t tokens hrule hline =>
    refine iff_of_false (by simp) ?_
    rintro ⟨h, -⟩
    rw [hline] at h
    exact hrule r (List.cons.inj (Except.ok.inj h)).1

/-! ## All words -/

/-- Which words write which rules. A keyword writes its rule and no other word does. A word writes a
span just if it has the form of one, with seconds in order that fit into 64 bits; it is refused just
if it has that form and they do not; and any other word is no rule. So the text of a rule writes
that rule. A line of tokens is that of an assertion just if its first token is a rule and no other
one is. -/
theorem Rule.rule_words_characterized (word : List Char) :
    (read word = .rule .last ↔ word = "LAST".toList) ∧
    (read word = .rule .any ↔ word = "ANY".toList) ∧
    (read word = .rule .anyExceptLast ↔ word = "ANY_EXCEPT_LAST".toList) ∧
    (∀ first last, (∃ s, read word = .rule (.span s) ∧ s.first = first ∧ s.last = last) ↔
      WritesSpan word first last ∧ first ≤ last ∧ last < UInt64.size) ∧
    (read word = .invalidSpan ↔ ∃ first last, WritesSpan word first last ∧
      (last < first ∨ UInt64.size ≤ first ∨ UInt64.size ≤ last)) ∧
    (read word = .other ↔ (word ≠ "LAST".toList ∧ word ≠ "ANY".toList ∧
      word ≠ "ANY_EXCEPT_LAST".toList) ∧ ∀ first last, ¬WritesSpan word first last) ∧
    (∀ r, read word = .rule r → read r.text.toList = .rule r) ∧
    ∀ line tokens, Token.ofLine line = .ok tokens → ∀ r rest,
      (Token.ofAssertion line = .ok (r, rest) ↔
        tokens = .rule r :: rest ∧ ∀ t ∈ rest, ∀ r', t ≠ .rule r') := by
  refine ⟨read_eq_keyword_iff nofun, read_eq_keyword_iff nofun, read_eq_keyword_iff nofun, ?spans,
    ?refused, ?others, fun r _ => read_text r, ?lines⟩
  case spans =>
    intro first last
    constructor
    · rintro ⟨s, hread, rfl, rfl⟩
      exact ⟨read_eq_span_iff.1 hread, s.first_le_last, s.last_lt⟩
    · rintro ⟨hword, hle, hlt⟩
      exact ⟨⟨first, last, hle, hlt⟩, read_eq_span_iff.2 hword, rfl, rfl⟩
  case refused =>
    rw [read_eq_invalidSpan_iff]
    refine exists₂_congr fun first last => and_congr_right fun _ => ?_
    omega
  case others =>
    rw [read_eq_other_iff]
    refine and_congr_left fun _ => ⟨fun h => ?_, fun h r hr => ?_⟩
    · exact ⟨h .last nofun, h .any nofun, h .anyExceptLast nofun⟩
    · obtain ⟨hlast, hany, hexcept⟩ := h
      cases r with
      | last => exact hlast
      | any => exact hany
      | anyExceptLast => exact hexcept
      | span s => exact absurd rfl (hr s)
  case lines =>
    intro line tokens hline r rest
    rw [Token.ofAssertion_eq_ok_iff, hline, Except.ok.injEq]

-- The seconds of a span may have zeros before them, and have to fit into 64 bits.
example : Rule.read "SPAN[007:10]".toList = .rule (.span ⟨7, 10, by decide, by decide⟩) := rfl

example : Rule.read "SPAN[0:18446744073709551616]".toList = .invalidSpan := rfl

end TrafficCheck
