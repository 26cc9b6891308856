import TrafficCheck.Elapsed

/-!
# Reading a clock

A clock shows the full hours of a number of seconds, and then the minutes and the seconds that are
left, each by two digits.

## Main definitions

* `Elapsed.Shows`: a text shows a number of seconds.

## Main statements

* `Elapsed.shows_clock`: the clock of a number of seconds shows it.
* `Elapsed.clockOfWord?_ofNat`: a word has the clock of the seconds that were put into it.
-/

namespace TrafficCheck.Elapsed

variable {n : Nat}

/-- The two digits of a number below one hundred. -/
def twoDigits (n : Nat) : String := String.ofList [Nat.digitChar (n / 10), Nat.digitChar (n % 10)]

/-- A text shows some seconds: hours, less than sixty minutes and less than sixty seconds that make
them up stand in it, parted by colons. -/
def Shows (seconds : Nat) (text : String) : Prop :=
  ∃ hours minutes rest : Nat, seconds = 3600 * hours + 60 * minutes + rest ∧
    minutes < 60 ∧ rest < 60 ∧
    text = toString hours ++ ":" ++ twoDigits minutes ++ ":" ++ twoDigits rest

theorem toString_natCast (n : Nat) : toString (n : Int) = String.ofList (Nat.toDigits 10 n) :=
  Nat.repr_eq_ofList_toDigits

theorem twoPlaces_of_lt (hn : n < 100) : twoPlaces n = twoDigits n := by
  rw [twoPlaces, toString_natCast, twoDigits]
  by_cases hdigit : n < 10
  · rw [Nat.toDigits_of_lt_base hdigit, Nat.div_eq_of_lt hdigit, Nat.mod_eq_of_lt hdigit,
      if_pos (by simp), ← String.toList_inj]
    simp [Nat.digitChar]
  · have htens : n / 10 < 10 := by omega
    have hdigits : Nat.toDigits 10 n = [Nat.digitChar (n / 10), Nat.digitChar (n % 10)] := by
      rw [Nat.toDigits_of_base_le (by decide) (by omega), Nat.toDigits_of_lt_base htens]
      rfl
    rw [hdigits, if_neg (by simp)]

/-- The clock of some seconds shows them. -/
theorem shows_clock (seconds : Nat) : Shows seconds (clock seconds) := by
  have hhours : (seconds : Int).tdiv 3600 = (seconds / 3600 : Nat) := rfl
  have hminutes : ((seconds : Int).tdiv 60).tmod 60 = (seconds / 60 % 60 : Nat) := rfl
  have hrest : (seconds : Int).tmod 60 = (seconds % 60 : Nat) := rfl
  refine ⟨seconds / 3600, seconds / 60 % 60, seconds % 60, by omega, by omega, by omega, ?_⟩
  rw [← twoPlaces_of_lt (by omega), ← twoPlaces_of_lt (by omega), clock, hhours, hminutes, hrest]
  rfl

/-- A word has the clock of the seconds that were put into it, if they are not too many for it. -/
theorem clockOfWord?_ofNat (hn : n ≤ mostSeconds) :
    clockOfWord? (.ofNat n) = some (clock n) := by
  have hlt : n < 2 ^ 63 := Nat.lt_of_le_of_lt hn (by decide)
  have hsigned : (UInt64.ofNat n).toInt64.toInt = n := Int64.toInt_ofNat_of_lt hlt
  simp only [clockOfWord?, hsigned, Int.natAbs_natCast, if_pos hn]

end TrafficCheck.Elapsed
