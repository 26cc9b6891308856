import TrafficCheck.Text.Blank

/-!
# Decimal digits

Natural numbers as digit texts and back. Only the ten ASCII digits count as digits.
-/

namespace TrafficCheck.Decimal

/-- The number a list of digits writes; the empty list writes zero. -/
def value (cs : List Char) : Nat := Nat.ofDigitChars 10 cs 0

/-- The digits of a number, without leading zeros. -/
def digits (n : Nat) : List Char := Nat.toDigits 10 n

@[simp] theorem value_digits (n : Nat) : value (digits n) = n :=
  Nat.ofDigitChars_toDigits (by decide) (by decide)

theorem isDigit_of_mem_digits {n : Nat} {c : Char} (h : c ∈ digits n) : c.isDigit = true :=
  Nat.isDigit_of_mem_toDigits (by decide) (by decide) h

theorem digits_ne_nil (n : Nat) : digits n ≠ [] := Nat.toDigits_ne_nil

theorem isBlank_eq_false_of_isDigit {c : Char} (hc : c.isDigit = true) :
    Text.isBlank c = false := by
  simp only [Char.isDigit, Bool.and_eq_true, decide_eq_true_eq, ge_iff_le,
    UInt32.le_iff_toNat_le] at hc
  have hlow : 48 ≤ c.toNat := hc.1
  have hhigh : c.toNat ≤ 57 := hc.2
  simp [Text.isBlank, Text.blankRanges]
  omega

/-- Digits are told apart from a text behind them that starts with no digit. -/
theorem takeWhile_isDigit {ds rest : List Char} (hds : ∀ c ∈ ds, c.isDigit = true)
    (hrest : ∀ c ∈ rest.head?, c.isDigit = false) :
    (ds ++ rest).takeWhile Char.isDigit = ds ∧ (ds ++ rest).dropWhile Char.isDigit = rest :=
  Text.takeWhile_append_of_head hds hrest

/-- The number a nonempty text of digits writes. -/
def natural? (cs : List Char) : Option Nat :=
  if cs.isEmpty || !cs.all Char.isDigit then none else some (value cs)

/-- The number a nonempty text of digits writes, if it fits into a 32 bit word. -/
def word? (cs : List Char) : Option UInt32 :=
  match natural? cs with
  | some n => if n < UInt32.size then some (UInt32.ofNat n) else none
  | none => none

end TrafficCheck.Decimal
