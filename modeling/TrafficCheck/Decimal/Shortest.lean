import TrafficCheck.Decimal.Digits

/-!
# The shortest decimal of a binary number

A finite number is written with the fewest digits that read back to it. The grid of the multiples
of `10 ^ k` is tried from coarse to fine; on each grid the two neighbours of the number are
candidates, the nearer one first, and the first candidate that reads back is the result.

## Main definitions

* `read negated digits`: the number nearest to a decimal fraction.
* `Binary.shortest`: the coefficient and the exponent of the shortest decimal.
* `text`: a number in positional notation, whatever its size.
-/

namespace TrafficCheck.Decimal

/-- A positive number `mantissa * 2 ^ exponent`. -/
structure Binary where
  mantissa : Nat
  exponent : Int

/-- A coefficient and a power of ten: the decimal `coefficient * 10 ^ exponent`. -/
structure Scaled where
  coefficient : Nat
  exponent : Int

namespace Scaled

/-- The number nearest to a decimal, ties going to the even mantissa. -/
def read (d : Scaled) : Float :=
  Float.ofScientific d.coefficient (d.exponent < 0) d.exponent.natAbs

/-- The decimal in positional notation: all its digits, a point only before a fraction, and a zero
before a point that would stand first. -/
def positional (d : Scaled) : List Char :=
  let ds := digits d.coefficient
  if 0 ≤ d.exponent then ds ++ List.replicate d.exponent.toNat '0'
  else
    let places := d.exponent.natAbs
    if places < ds.length then
      ds.take (ds.length - places) ++ '.' :: ds.drop (ds.length - places)
    else '0' :: '.' :: (List.replicate (places - ds.length) '0' ++ ds)

end Scaled

namespace Binary

/-- The coarsest grid worth trying: its step exceeds twice the number. -/
def coarsest (b : Binary) : Int := max 0 (b.exponent + b.mantissa.log2 + 2)

/-- The finest grid needed: it holds the number itself. -/
def finest (b : Binary) : Int := min b.exponent 0

/-- The number as a decimal without rounding. -/
def exact (b : Binary) : Scaled :=
  if 0 ≤ b.exponent then ⟨b.mantissa * Nat.pow 2 b.exponent.toNat, 0⟩
  else ⟨b.mantissa * Nat.pow 5 b.exponent.natAbs, b.exponent⟩

/-- The neighbours of the number among the multiples of `10 ^ k`, the nearer one first and the upper
one first when both are equally near. -/
def neighbours (b : Binary) (k : Int) : List Scaled :=
  let step := Nat.pow 10 k.toNat * Nat.pow 2 (-b.exponent).toNat
  let number := b.mantissa * Nat.pow 2 b.exponent.toNat * Nat.pow 10 (-k).toNat
  let lower := number / step
  if 2 * (number % step) < step then [⟨lower, k⟩, ⟨lower + 1, k⟩]
  else [⟨lower + 1, k⟩, ⟨lower, k⟩]

/-- The first neighbour, from the coarsest grid to the finest, that reads back as `x`. -/
def shortest (b : Binary) (x : Float) : Scaled :=
  let grids := (b.coarsest - b.finest).toNat + 1
  ((List.range grids).findSome? fun (i : Nat) =>
    (b.neighbours (b.coarsest - i)).find? fun d => d.read.toBits == x.toBits).getD b.exact

end Binary

/-- How many fractions a number in binary can have. -/
def fractionSize : Nat := Nat.pow 2 52

/-- The magnitude of a number in binary, or `none` for an infinity or an undefined number. -/
def magnitude? (x : Float) : Option Binary :=
  let bits : Nat := x.toBits.toNat
  let fraction : Nat := bits % fractionSize
  let scale : Nat := bits / fractionSize % 2048
  if scale = 2047 then none
  else if scale = 0 then some ⟨fraction, -1074⟩
  else some ⟨fractionSize + fraction, (scale : Int) - 1075⟩

/-- Whether the sign of a number is negative, that of zero included. -/
def isNegative (x : Float) : Bool := x.toBits.toNat / Nat.pow 2 63 = 1

/-- A number that is not negative, as text. -/
def magnitudeText (x : Float) : List Char :=
  match magnitude? x with
  | none => if x.isNaN then "NaN".toList else "inf".toList
  | some ⟨0, _⟩ => ['0']
  | some b => (b.shortest x).positional

/-- A number as text: a sign if it is negative, then the shortest decimal in positional notation. An
undefined number has no sign. -/
def text (x : Float) : String :=
  String.ofList <|
    if isNegative x && !x.isNaN then '-' :: magnitudeText (-x) else magnitudeText x

/-- The number a text of digits, with or without a point and more digits behind it, writes. -/
def read? (cs : List Char) : Option Float :=
  let whole := cs.takeWhile Char.isDigit
  if whole.isEmpty then none
  else
    match cs.dropWhile Char.isDigit with
    | [] => some (Scaled.read ⟨value whole, 0⟩)
    | '.' :: fraction =>
      if fraction.isEmpty || !fraction.all Char.isDigit then none
      else some (Scaled.read ⟨value (whole ++ fraction), -fraction.length⟩)
    | _ => none

end TrafficCheck.Decimal
