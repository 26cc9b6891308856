import TrafficCheck.Decimal.Digits
import TrafficCheck.Port
import TrafficCheck.Text.Blank

/-!
# Names of summary files

The name of a summary file tells whose counters it holds, as in
`Client Port 1 (10.0.0.1 port 3).sum`: the role and, in parentheses, the physical port.

## Main definitions

* `SummaryName.parse?`: the ports that a file name tells.
-/

namespace TrafficCheck

/-- The ports that a file name tells. -/
structure SummaryName where
  kind : PortKind
  number : UInt32
  physical : PhysicalPort
  deriving DecidableEq, Repr

namespace SummaryName

/-- The role that a file name tells. -/
def logical (n : SummaryName) : LogicalPort := ⟨n.kind, some n.number⟩

/-- The text behind a leading word, whose first letter may be in either case. -/
def behind? (upper lower : Char) (word : List Char) (cs : List Char) : Option (List Char) :=
  match cs with
  | c :: rest =>
    if (c = upper || c = lower) && word.isPrefixOf rest then some (rest.drop word.length) else none
  | [] => none

/-- The text behind at least one blank. -/
def behindBlanks? (cs : List Char) : Option (List Char) :=
  if (cs.head?.any Text.isBlank) then some (cs.dropWhile Text.isBlank) else none

/-- The kind that a text starts with and the text behind it. -/
def kind? (cs : List Char) : Option (PortKind × List Char) :=
  match behind? 'C' 'c' "lient".toList cs with
  | some rest => some (.client, rest)
  | none => (behind? 'S' 's' "erver".toList cs).map fun rest => (.server, rest)

/-- The word for ports that a text starts with is taken off. -/
def behindPort? (cs : List Char) : Option (List Char) := behind? 'P' 'p' "ort".toList cs

/-- A character of appliance addresses. -/
def isAddressChar (c : Char) : Bool := c.isDigit || c = '.'

/-- The ports that a file name tells, if it has the form of the name of a summary file and its
numbers fit into 32 bits. -/
def parse? (name : List Char) : Option SummaryName := do
  let (kind, cs) ← kind? name
  let cs ← behindBlanks? cs
  let cs ← behindPort? cs
  let cs ← behindBlanks? cs
  let number ← Decimal.word? (cs.takeWhile Char.isDigit)
  let '(' :: cs := (cs.dropWhile Char.isDigit).dropWhile Text.isBlank | none
  let appliance := cs.takeWhile isAddressChar
  if appliance.isEmpty then none
  let ' ' :: cs := cs.dropWhile isAddressChar | none
  let cs ← behindPort? cs
  let ' ' :: cs := cs | none
  let physical ← Decimal.word? (cs.takeWhile Char.isDigit)
  let ending := cs.dropWhile Char.isDigit
  if ending = ").sum".toList ∨ ending = ").summary".toList then
    return ⟨kind, number, ⟨String.ofList appliance, physical⟩⟩
  else none

end SummaryName

end TrafficCheck
