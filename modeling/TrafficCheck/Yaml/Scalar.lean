import TrafficCheck.Yaml.Cursor

/-!
# YAML scalars

A scalar that runs over several lines is folded: a single line break between two words is a space,
and of several line breaks all but the first stay.

## Main definitions

* `Yaml.ScalarStyle`: the ways to write a scalar.
* `Yaml.folded`: the text of a gap between two words.
* `Yaml.readPlain`: a plain scalar.
* `Yaml.readQuoted`: a scalar in single or double quotes.
-/

namespace TrafficCheck.Yaml

/-- The ways to write a scalar. -/
inductive ScalarStyle where
  | plain
  | quoted
  | literal
  | folded
  deriving DecidableEq

/-- The gap a text starts with: its leading spaces, tabs and line breaks. -/
def gapOf (cs : List Char) : List Char := cs.takeWhile isGap

/-- The text of a gap inside a scalar. -/
def folded (gap : List Char) : List Char :=
  match gap.filter isBreak with
  | [] => gap
  | '\n' :: [] => [' ']
  | '\n' :: more => more
  | breaks => breaks

/-- Whether a tab stands among the first `margin` characters of a line that begins inside a gap. -/
def tabbed (margin : Nat) (gap : List Char) : Bool :=
  ((gap.splitOnP isBreak).drop 1).any fun line => (line.take margin).contains '\t'

/-- An indicator that ends a plain scalar inside a flow collection. -/
def isFlowIndicator (c : Char) : Bool := [',', '[', ']', '\x7b', '\x7d'].contains c

/-- The word of a plain scalar that a text starts with. It ends before a gap, before a colon with a
gap behind it and, inside a flow collection, before an indicator; there a colon right before an
indicator is an error. -/
def plainWord (inFlow : Bool) : List Char → Option (List Char)
  | [] => some []
  | c :: cs =>
    if isGap c then some []
    else if inFlow && c = ':' && cs.head?.any (fun d => d = '?' || (isFlowIndicator d)) then none
    else if c = ':' && startsOpen cs || inFlow && isFlowIndicator c then some []
    else (plainWord inFlow cs).map (c :: ·)

/-- A scalar that was read. -/
structure ScalarRead where
  text : List Char
  /-- Whether the gap behind the scalar holds a line break. -/
  lineEnded : Bool
  /-- The place behind the scalar and behind the gap that ends a plain one. -/
  behind : Cursor

/-- The words of a plain scalar behind its first one, each with the gap before it. The first
argument bounds the number of words. -/
def moreWords (inFlow : Bool) (margin : Nat) : Nat → Cursor → Option ScalarRead
  | 0, _ => none
  | bound + 1, place =>
    let gap := gapOf place.rest
    let next := place.advance gap.length
    let broken := gap.any isBreak
    if gap.isEmpty then some ⟨[], false, place⟩
    else if tabbed margin gap then none
    else if !inFlow && next.column < margin || next.atMarker || next.rest.head? = some '#' then
      some ⟨[], broken, next⟩
    else do
      let word ← plainWord inFlow next.rest
      if word.isEmpty then return ⟨[], broken, next⟩
      let more ← moreWords inFlow margin bound (next.advance word.length)
      return { more with text := folded gap ++ word ++ more.text }

/-- The plain scalar at a place. Outside flow collections its lines stand at or behind the column
`margin`. -/
def readPlain (inFlow : Bool) (margin : Nat) (place : Cursor) : Option ScalarRead := do
  let word ← plainWord inFlow place.rest
  let more ← moreWords inFlow margin (place.rest.length + 1) (place.advance word.length)
  return { more with text := word ++ more.text }

/-- The characters that a single letter behind a backslash stands for. -/
def escapes : List (Char × Char) :=
  [('0', '\x00'), ('a', '\x07'), ('b', '\x08'), ('t', '\t'), ('\t', '\t'), ('n', '\n'),
   ('v', '\x0b'), ('f', '\x0c'), ('r', '\r'), ('e', '\x1b'), (' ', ' '), ('"', '"'), ('/', '/'),
   ('\\', '\\'), ('N', '\u0085'), ('_', '\u00a0'), ('L', '\u2028'), ('P', '\u2029')]

/-- How many digits of base sixteen follow a letter behind a backslash that asks for a code
point. -/
def codeWidths : List (Char × Nat) := [('x', 2), ('u', 4), ('U', 8)]

/-- The value of a digit of base sixteen, in either case. -/
def hexDigit? (c : Char) : Option Nat :=
  if c.isDigit then some (c.toNat - '0'.toNat)
  else if 'a' ≤ c ∧ c ≤ 'f' then some (c.toNat - 'a'.toNat + 10)
  else if 'A' ≤ c ∧ c ≤ 'F' then some (c.toNat - 'A'.toNat + 10)
  else none

/-- The number that digits of base sixteen write. -/
def hexValue? (cs : List Char) : Option Nat :=
  cs.foldlM (fun n c => (hexDigit? c).map fun d => 16 * n + d) 0

/-- The character of a code point, if it has one. -/
def ofCodePoint? (n : Nat) : Option Char :=
  if n.isValidChar then some (Char.ofNat n) else none

/-- The character that the text behind a backslash stands for, and the length of that text. -/
def readEscape? (cs : List Char) : Option (Char × Nat) :=
  match cs with
  | [] => none
  | c :: rest =>
    match escapes.lookup c, codeWidths.lookup c with
    | some d, _ => some (d, 1)
    | none, some width =>
      if rest.length < width then none
      else ((hexValue? (rest.take width)).bind ofCodePoint?).map fun d => (d, width + 1)
    | none, none => none

/-- The text up to the closing quote. The first argument bounds the number of steps. -/
def quotedText (quote : Char) : Nat → Cursor → Option ScalarRead
  | 0, _ => none
  | bound + 1, place =>
    let go (text : List Char) (length : Nat) : Option ScalarRead :=
      (quotedText quote bound (place.advance length)).map fun r => { r with text := text ++ r.text }
    if place.atMarker then none
    else
      match place.rest with
      | [] => none
      | c :: rest =>
        if isGap c then
          let gap := gapOf place.rest
          go (folded gap) gap.length
        else if c = quote then
          if quote = '\'' && rest.head? = some quote then go [quote] 2
          else some ⟨[], false, place.next⟩
        else if c = '\\' && quote = '"' then
          if rest.head?.any isBreak then
            let gap := gapOf rest.tail
            go (gap.filter isBreak) (gap.length + 2)
          else
            match readEscape? rest with
            | some (d, length) => go [d] (length + 1)
            | none => none
        else go [c] 1

/-- The quoted scalar at a place, which stands at its opening quote. A backslash escapes in double
quotes, and a quote written twice is a quote in single ones. -/
def readQuoted (quote : Char) (place : Cursor) : Option ScalarRead :=
  quotedText quote (place.rest.length + 1) place.next

end TrafficCheck.Yaml
