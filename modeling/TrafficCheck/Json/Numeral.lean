import TrafficCheck.Decimal.Digits

/-!
# Numerals

A number as a JSON text writes it. The value of a numeral is computed in steps that may round more
than once: its digits are gathered in a 64 bit word for as long as they fit, and the word is then
scaled by a power of ten, in strides where the power is too large for a single step.

## Main definitions

* `Numeral.toFloat?`: the value of a numeral, unless it is too large.
* `Numeral.toNat?`: the value of a numeral that is an unsigned 64 bit word.
-/

namespace TrafficCheck

/-- The parts of a written number. A numeral without a point has no fraction digits. -/
structure Numeral where
  negative : Bool
  whole : List Char
  fraction : List Char
  exponent : Option Int
  deriving DecidableEq, Repr

namespace Numeral

/-- The largest word digits are gathered in. -/
def mostGathered : Nat := UInt64.size - 1

/-- The word after the digits were gathered in it as long as they fit, and the digits left over. -/
def gather (word : Nat) : List Char → Nat × List Char
  | [] => (word, [])
  | c :: cs =>
    let next := 10 * word + (c.toNat - '0'.toNat)
    if next ≤ mostGathered then gather next cs else (word, c :: cs)

/-- The longest single stride of scaling. -/
def longestStride : Nat := 308

/-- A power of ten, for exponents up to the longest stride. -/
def powerOfTen (n : Nat) : Float := Float.ofScientific 1 false n

/-- A number times a power of ten, reached in strides; the first argument bounds their number. The
result is absent where it would not be finite. -/
def scale (x : Float) (exponent : Int) : Nat → Option Float
  | 0 => none
  | strides + 1 =>
    if exponent.natAbs ≤ longestStride then
      if exponent < 0 then some (x / powerOfTen exponent.natAbs)
      else
        let y := x * powerOfTen exponent.natAbs
        if y.isInf then none else some y
    else if x == 0 then some x
    else if 0 ≤ exponent then none
    else scale (x / powerOfTen longestStride) (exponent + longestStride) strides

/-- The value of a numeral, or `none` if it is too large. Whole digits that do not fit into the word
count as zeros; fraction digits that do not fit are dropped. -/
def toFloat? (n : Numeral) : Option Float :=
  let (word, dropped) := gather 0 n.whole
  let (word, unread) := gather word n.fraction
  let exponent : Int :=
    n.exponent.getD 0 + dropped.length - (n.fraction.length - unread.length : Nat)
  (scale word.toFloat exponent (exponent.natAbs + 1)).map fun x => if n.negative then -x else x

/-- The value of a numeral without sign, point and exponent, if it fits into 64 bits. -/
def toNat? (n : Numeral) : Option Nat :=
  let value := Decimal.value n.whole
  if !n.negative && n.fraction.isEmpty && n.exponent.isNone && value < UInt64.size then some value
  else none

/-- The numeral of a natural number. -/
def ofNat (n : Nat) : Numeral := ⟨false, Decimal.digits n, [], none⟩

/-- A numeral as text. -/
def text (n : Numeral) : List Char :=
  (if n.negative then ['-'] else []) ++ n.whole ++
    (if n.fraction.isEmpty then [] else '.' :: n.fraction) ++
    match n.exponent with
    | none => []
    | some e => 'e' :: (if e < 0 then '-' :: Decimal.digits e.natAbs else Decimal.digits e.natAbs)

end Numeral

end TrafficCheck
