import Mathlib.Data.List.Induction
import TrafficCheck.Decimal.Digits

/-!
# Numerals

A numeral writes a number in decimal, behind any number of zeros. Every text of digits is the
numeral of one number, its value, so a numeral is read as a word just if its number fits into one.

## Main definitions

* `Decimal.Writes`: the numerals of a number.

## Main statements

* `Decimal.writes_iff`: numerals are the texts of digits, and their value is what they write.
* `Decimal.word?_eq_some_iff`, `Decimal.word?_eq_none`: which texts are read as words of 32 bits.
-/

namespace TrafficCheck.Decimal

variable {ds : List Char} {n : Nat} {w : UInt32}

/-! ## Zeros -/

theorem isDigit_of_mem_zeros {n : Nat} {c : Char} (hc : c ∈ List.replicate n '0') :
    c.isDigit = true := by
  rw [List.eq_of_mem_replicate hc]
  rfl

theorem value_zeros_append (n : Nat) (cs : List Char) :
    value (List.replicate n '0' ++ cs) = value cs := by
  rw [value, Nat.ofDigitChars_append, Nat.ofDigitChars_replicate_zero, Nat.mul_zero]
  rfl

/-! ## Numerals -/

/-- A text writes a number in decimal, behind any number of zeros. -/
def Writes (ds : List Char) (n : Nat) : Prop := ∃ zeros, ds = List.replicate zeros '0' ++ digits n

theorem writes_digits (n : Nat) : Writes (digits n) n := ⟨0, rfl⟩

theorem Writes.ne_nil (h : Writes ds n) : ds ≠ [] := by
  obtain ⟨zeros, rfl⟩ := h
  simp [digits_ne_nil]

theorem Writes.isDigit (h : Writes ds n) : ∀ c ∈ ds, c.isDigit = true := by
  obtain ⟨zeros, rfl⟩ := h
  intro c hc
  exact (List.mem_append.1 hc).elim isDigit_of_mem_zeros isDigit_of_mem_digits

theorem Writes.value_eq (h : Writes ds n) : value ds = n := by
  obtain ⟨zeros, rfl⟩ := h
  rw [value_zeros_append, value_digits]

/-- A digit is what is written for its value. -/
theorem value_singleton {c : Char} (hc : c.isDigit = true) :
    value [c] < 10 ∧ digits (value [c]) = [c] := by
  have hall : ∀ n < 58, 48 ≤ n →
      value [Char.ofNat n] < 10 ∧ digits (value [Char.ofNat n]) = [Char.ofNat n] := by decide
  simp only [Char.isDigit, Bool.and_eq_true, decide_eq_true_eq, ge_iff_le,
    UInt32.le_iff_toNat_le] at hc
  rw [← Char.ofNat_toNat c]
  exact hall c.toNat (Nat.lt_succ_of_le hc.2) hc.1

theorem value_concat (ds : List Char) (c : Char) :
    value (ds ++ [c]) = 10 * value ds + value [c] := by
  simp [value, Nat.ofDigitChars_append, Nat.ofDigitChars_cons, Nat.ofDigitChars_nil]

/-- A text of digits writes its value. -/
theorem writes_value (hds : ∀ c ∈ ds, c.isDigit = true) (hne : ds ≠ []) : Writes ds (value ds) := by
  -- Digits are added at the end, where they go behind the digits of the number so far. While that
  -- number is zero there are none, and the text so far is all zeros.
  induction ds using List.reverseRecOn with
  | nil => exact absurd rfl hne
  | append_singleton ds c ih =>
    obtain ⟨hlt, hc⟩ := value_singleton (hds c (by simp))
    rw [value_concat]
    by_cases hzero : value ds = 0
    · obtain ⟨zeros, hzeros⟩ : ∃ zeros, ds = List.replicate zeros '0' := by
        by_cases hnil : ds = []
        · exact ⟨0, hnil⟩
        · obtain ⟨zeros, hds'⟩ := ih (fun d hd => hds d (by simp [hd])) hnil
          exact ⟨zeros + 1, by rw [hds', hzero, List.replicate_succ']; rfl⟩
      exact ⟨zeros, by rw [hzero, Nat.mul_zero, Nat.zero_add, hc, ← hzeros]⟩
    · have hnil : ds ≠ [] := by
        rintro rfl
        exact hzero rfl
      obtain ⟨zeros, hds'⟩ := ih (fun d hd => hds d (by simp [hd])) hnil
      refine ⟨zeros, ?_⟩
      rw [digits, ← Nat.toDigits_append_toDigits (by decide) (Nat.pos_of_ne_zero hzero) hlt,
        ← digits, ← digits, hc, ← List.append_assoc, ← hds']

/-- The numerals are the texts of digits, and each writes its value. -/
theorem writes_iff : Writes ds n ↔ (ds ≠ [] ∧ ∀ c ∈ ds, c.isDigit = true) ∧ value ds = n := by
  constructor
  · intro h
    exact ⟨⟨h.ne_nil, h.isDigit⟩, h.value_eq⟩
  · rintro ⟨⟨hne, hds⟩, rfl⟩
    exact writes_value hds hne

/-! ## Words -/

theorem natural?_eq_some_iff : natural? ds = some n ↔ Writes ds n := by
  rw [writes_iff, natural?]
  simp [and_assoc]

/-- A numeral is read as a word just if its number fits into one. -/
theorem word?_eq_some_iff : word? ds = some w ↔ Writes ds w.toNat := by
  unfold word?
  split
  · next n hn =>
    rw [natural?_eq_some_iff] at hn
    split
    · next hlt =>
      rw [Option.some.injEq]
      constructor
      · rintro rfl
        rwa [UInt32.toNat_ofNat_of_lt' hlt]
      · intro hw
        rw [← hn.value_eq, hw.value_eq, UInt32.ofNat_toNat]
    · next hge =>
      refine iff_of_false (by simp) fun hw => hge ?_
      rw [← hn.value_eq, hw.value_eq]
      exact w.toNat_lt
  · next hnone =>
    refine iff_of_false (by simp) fun hw => ?_
    rw [natural?_eq_some_iff.2 hw] at hnone
    exact absurd hnone (by simp)

theorem word?_eq_none (h : Writes ds n) (hn : UInt32.size ≤ n) : word? ds = none := by
  rw [word?, natural?_eq_some_iff.2 h]
  exact if_neg (Nat.not_lt.2 hn)

end TrafficCheck.Decimal
