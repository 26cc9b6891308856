import TrafficCheck.Decimal.Digits

/-!
# Rules

The rule of an assertion says at which ticks of a run it has to hold. Tick 0 is the final sample of
a run and the ticks behind it count half seconds from its start.

## Main definitions

* `Rule.read`: the rule a word writes.
* `Rule.forwardTicks`, `Rule.constrains`: the ticks a rule looks at.
* `Rule.finalExpectation`: what a rule asks of the final sample.
-/

namespace TrafficCheck

/-- Ticks taken per second. -/
def ticksPerSecond : Nat := 2

/-- The second of the run in which a tick falls. -/
def secondOfTick (tick : Nat) : Nat := (tick + 1) / ticksPerSecond

/-- A range of seconds, both ends included; the ends are 64 bit words. -/
structure Span where
  first : Nat
  last : Nat
  first_le_last : first ≤ last
  last_lt : last < UInt64.size
  deriving DecidableEq, Repr

/-- When an assertion has to hold. -/
inductive Rule where
  /-- At the final sample. -/
  | last
  /-- At every tick but the final sample. -/
  | any
  /-- At every tick but the last one, and no longer at the final sample. -/
  | anyExceptLast
  /-- At every tick of the seconds in the span. -/
  | span (seconds : Span)
  deriving DecidableEq, Repr

/-- What a word says about rules. -/
inductive Rule.Reading where
  /-- The word is no rule. -/
  | other
  /-- The word has the form of a span, but its seconds are none. -/
  | invalidSpan
  | rule (r : Rule)
  deriving DecidableEq, Repr

namespace Rule

/-- The word that writes a rule. -/
def text : Rule → String
  | .last => "LAST"
  | .any => "ANY"
  | .anyExceptLast => "ANY_EXCEPT_LAST"
  | .span s => s!"SPAN[{s.first}:{s.last}]"

/-- The two digit texts of a word of the form `SPAN[digits:digits]`. -/
def spanFields? (word : List Char) : Option (List Char × List Char) :=
  match word with
  | 'S' :: 'P' :: 'A' :: 'N' :: '[' :: rest =>
    let lower := rest.takeWhile Char.isDigit
    match rest.dropWhile Char.isDigit with
    | ':' :: rest =>
      let upper := rest.takeWhile Char.isDigit
      if rest.dropWhile Char.isDigit = [']'] ∧ lower ≠ [] ∧ upper ≠ [] then some (lower, upper)
      else none
    | _ => none
  | _ => none

/-- The span between two seconds. -/
def ofSeconds (lower upper : Nat) : Reading :=
  if h : lower ≤ upper ∧ upper < UInt64.size then .rule (.span ⟨lower, upper, h.1, h.2⟩)
  else .invalidSpan

/-- What a word says about rules: a keyword is its rule, and a span is one if its seconds ascend and
fit into 64 bits. -/
def read (word : List Char) : Reading :=
  if word = "LAST".toList then .rule .last
  else if word = "ANY".toList then .rule .any
  else if word = "ANY_EXCEPT_LAST".toList then .rule .anyExceptLast
  else
    match spanFields? word with
    | some (lower, upper) => ofSeconds (Decimal.value lower) (Decimal.value upper)
    | none => .other

/-- The bounds, the upper one excluded, of the ticks a rule looks at in a run of `len` samples. -/
def forwardTicks (r : Rule) (len : Nat) : Nat × Nat :=
  match r with
  | .last => (0, 0)
  | .any | .span _ => (1, max len 1)
  | .anyExceptLast => (1, max (len - 1) 1)

/-- Whether the outcome at a tick counts. -/
def constrains (r : Rule) (tick : Nat) : Bool :=
  match r with
  | .span s => s.first ≤ secondOfTick tick && secondOfTick tick ≤ s.last
  | _ => true

/-- The truth value asked of the final sample, if the rule looks at it. -/
def finalExpectation : Rule → Option Bool
  | .last => some true
  | .anyExceptLast => some false
  | .any | .span _ => none

/-- The ticks a rule evaluates before the final sample, in ascending order. -/
def selectedTicks (r : Rule) (len : Nat) : List Nat :=
  let (first, stop) := r.forwardTicks len
  (List.range' first (stop - first)).filter r.constrains

/-- The ticks a rule evaluates, each with the truth value it asks for: the selected ticks in
ascending order, then the final sample. -/
def checkpoints (r : Rule) (len : Nat) : List (Nat × Bool) :=
  (r.selectedTicks len).map (·, true) ++ (r.finalExpectation.map fun b => (0, b)).toList

end Rule

end TrafficCheck
