import TrafficCheck.Decimal.Digits
import TrafficCheck.Text.Blank

/-!
# Time stamps of results

A results directory is named for the moment its run started, as in `03_14_2024 02-05-09 PM`: month,
day, year, and the time on a clock of twelve hours.

## Main definitions

* `Stamp.parse?`: the moment that a name tells.
* `Stamp.isLater`: the order of moments.
* `Stamp.text`: a moment in the order of its parts' weight.
-/

namespace TrafficCheck

/-- A moment. The second after the last one of a minute is a leap second. -/
structure Stamp where
  year : Int
  month : Nat
  day : Nat
  hour : Nat
  minute : Nat
  second : Nat
  deriving DecidableEq, Repr

namespace Stamp

/-- The parts of a moment behind the year, the weightiest first. -/
def partsBehindYear (s : Stamp) : List Nat := [s.month, s.day, s.hour, s.minute, s.second]

/-- Whether a moment is later than another one. -/
def isLater (s t : Stamp) : Bool :=
  t.year < s.year || t.year = s.year && t.partsBehindYear < s.partsBehindYear

/-- The first year that a name can tell. -/
def firstYear : Int := -262143

/-- The last year that a name can tell. -/
def lastYear : Int := 262142

/-- Whether a year has a leap day. -/
def isLeapYear (year : Int) : Bool := year % 4 = 0 && (year % 100 != 0 || year % 400 = 0)

/-- The number of days in a month. -/
def daysIn (year : Int) (month : Nat) : Nat :=
  if month = 2 then (if isLeapYear year then 29 else 28)
  else if [4, 6, 9, 11].contains month then 30
  else 31

/-- The moment of some parts, if the calendar has it; the hour is one of the clock. -/
def ofParts? (year : Int) (month day hour minute second : Nat) (afternoon : Bool) : Option Stamp :=
  if firstYear ≤ year && year ≤ lastYear && 1 ≤ month && month ≤ 12 && 1 ≤ day &&
      day ≤ daysIn year month && 1 ≤ hour && hour ≤ 12 && minute ≤ 59 && second ≤ 60 then
    some ⟨year, month, day, hour % 12 + (if afternoon then 12 else 0), minute, second⟩
  else none

/-- The number of up to `width` digits that a text starts with, and the text behind it. -/
def number? (width : Nat) (cs : List Char) : Option (Nat × List Char) :=
  let ds := (cs.take width).takeWhile Char.isDigit
  if ds.isEmpty then none else some (Decimal.value ds, cs.drop ds.length)

/-- The number of one or two digits behind the blanks that a text starts with. -/
def part? (cs : List Char) : Option (Nat × List Char) := number? 2 (Text.trimStart cs)

/-- The year behind the blanks that a text starts with: up to four digits, or a sign and any number
of digits. -/
def year? (cs : List Char) : Option (Int × List Char) :=
  match Text.trimStart cs with
  | '-' :: rest => (number? rest.length rest).map fun r => (-r.1, r.2)
  | '+' :: rest => (number? rest.length rest).map fun r => (r.1, r.2)
  | rest => (number? 4 rest).map fun r => (r.1, r.2)

/-- The text behind a character that it starts with. -/
def behind? (c : Char) (cs : List Char) : Option (List Char) :=
  if cs.head? = some c then some cs.tail else none

/-- The half of the day that a whole text names, in any case: whether it is the second one. -/
def afternoon? (cs : List Char) : Option Bool :=
  match cs.map Char.toLower with
  | ['a', 'm'] => some false
  | ['p', 'm'] => some true
  | _ => none

/-- The moment that a name tells. Blanks may stand before each number and before the half of the
day. -/
def parse? (name : List Char) : Option Stamp := do
  let (month, cs) ← part? name
  let (day, cs) ← part? (← behind? '_' cs)
  let (year, cs) ← year? (← behind? '_' cs)
  let (hour, cs) ← part? cs
  let (minute, cs) ← part? (← behind? '-' cs)
  let (second, cs) ← part? (← behind? '-' cs)
  let afternoon ← afternoon? (Text.trimStart cs)
  ofParts? year month day hour minute second afternoon

/-- The digits of a number, filled up by zeros to the given width. -/
def padded (width n : Nat) : String :=
  let ds := Decimal.digits n
  String.ofList (List.replicate (width - ds.length) '0' ++ ds)

/-- The year with four digits at least, and with a sign if four digits do not suffice or it is
negative. -/
def yearText (year : Int) : String :=
  let ds := padded 4 year.natAbs
  if year < 0 then "-" ++ ds else if 9999 < year then "+" ++ ds else ds

/-- A moment as text. -/
def text (s : Stamp) : String :=
  s!"{yearText s.year}-{padded 2 s.month}-{padded 2 s.day} " ++
    s!"{padded 2 s.hour}:{padded 2 s.minute}:{padded 2 s.second}"

example : (parse? "03_14_2024 02-05-09 PM".toList).map text = some "2024-03-14 14:05:09" := by
  decide +kernel

end Stamp

end TrafficCheck
