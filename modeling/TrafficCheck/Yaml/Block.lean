import TrafficCheck.Yaml.Scalar

/-!
# YAML block scalars

A block scalar stands on lines of its own below the mark that announces it. In a literal one all
line breaks stay; in a folded one a line break between two lines of text is a space, unless one of
them is indented further.

## Main definitions

* `Yaml.BlockHeader`: what follows the mark on its line.
* `Yaml.readBlock`: a block scalar.
-/

namespace TrafficCheck.Yaml

/-- What becomes of the line breaks at the end. -/
inductive Chomping where
  | strip
  | clip
  | keep
  deriving DecidableEq

/-- What the line of the mark says: what becomes of the last line breaks, and how far the text is
indented beyond its collection, if the text itself is not to show it. -/
structure BlockHeader where
  chomping : Chomping
  indentation : Option Nat

namespace BlockHeader

/-- A sign that says what becomes of the last line breaks. -/
def chomping? : Char → Option Chomping
  | '-' => some .strip
  | '+' => some .keep
  | _ => none

/-- The indentation that a digit tells, unless a text starts with none; zero is an error. -/
def readIndentation : List Char → Option (Option Nat × List Char)
  | [] => some (none, [])
  | c :: cs =>
    if c = '0' then none
    else if c.isDigit then some (some (c.toNat - '0'.toNat), cs)
    else some (none, c :: cs)

/-- The header that a text starts with, and what follows it. The sign and the digit may stand in
either order. -/
def read? (cs : List Char) : Option (BlockHeader × List Char) :=
  match cs.head?.bind chomping? with
  | some chomping => (readIndentation cs.tail).map fun r => (⟨chomping, r.1⟩, r.2)
  | none => (readIndentation cs).map fun r =>
    match r.1, r.2.head?.bind chomping? with
    | some n, some chomping => (⟨chomping, some n⟩, r.2.tail)
    | indentation, _ => (⟨.clip, indentation⟩, r.2)

end BlockHeader

/-- The length of the spaces, tabs and the comment that a text starts with, if nothing else stands
on its line. -/
def lineTail? (cs : List Char) : Option Nat :=
  let behind := cs.dropWhile isSpace
  let spaces := cs.length - behind.length
  match behind with
  | [] => some spaces
  | c :: _ =>
    if c = '#' then some (spaces + (behind.takeWhile fun c => !isBreak c).length)
    else if isBreak c then some spaces
    else none

/-- Lines without a text. -/
structure EmptyLines where
  breaks : List Char
  /-- The widest indentation among them and before the text that follows. -/
  widest : Nat
  /-- The place behind the indentation of the text that follows. -/
  behind : Cursor

/-- The empty lines at a place. An indentation that is not known yet may be of any width. A tab in
it is an error. The first argument bounds the number of lines. -/
def emptyLines (indentation : Option Nat) : Nat → Cursor → Option EmptyLines
  | 0, _ => none
  | bound + 1, place =>
    let spaces := (place.rest.takeWhile (· = ' ')).length
    let next := place.advance (indentation.elim spaces fun n => min spaces (n - place.column))
    match next.rest with
    | [] => some ⟨[], next.column, next⟩
    | c :: _ =>
      if c = '\t' && indentation.all (next.column < ·) then none
      else if isBreak c then
        (emptyLines indentation bound next.next).map fun lines =>
          { lines with breaks := c :: lines.breaks, widest := max next.column lines.widest }
      else some ⟨[], next.column, next⟩

/-- The line breaks between two lines of text, where `first` is that of the upper one. -/
def joint (folds : Bool) (first more : List Char) : List Char :=
  if folds && first = ['\n'] then (if more.isEmpty then [' '] else more) else first ++ more

/-- The line breaks that stay at the end. -/
def lastBreaks (first more : List Char) : Chomping → List Char
  | .strip => []
  | .clip => first
  | .keep => first ++ more

/-- The lines of a text at its indentation, behind the line break `first` and empty lines with the
line breaks `more`. The argument `indented` tells whether the line above was indented further. The
bound is one for the number of lines. -/
def blockLines (literal : Bool) (indentation : Nat) (chomping : Chomping) :
    Nat → List Char → List Char → Bool → Cursor → Option ScalarRead
  | 0, _, _, _, _ => none
  | bound + 1, first, more, indented, place =>
    if place.column = indentation && !place.rest.isEmpty then do
      let isIndented := place.rest.head?.any isSpace
      let line := place.rest.takeWhile fun c => !isBreak c
      let lineEnd := place.advance line.length
      let lines ← emptyLines (some indentation) (lineEnd.rest.length + 1) lineEnd.next
      let below ← blockLines literal indentation chomping bound (lineEnd.rest.take 1) lines.breaks
        isIndented lines.behind
      let joint := joint (!literal && !indented && !isIndented) first more
      return { below with text := joint ++ line ++ below.text }
    else some ⟨lastBreaks first more chomping, true, place⟩

/-- The block scalar at a place, which stands at its mark, in a collection with the given margin. -/
def readBlock (literal : Bool) (margin : Nat) (place : Cursor) : Option ScalarRead := do
  let (header, behind) ← BlockHeader.read? place.next.rest
  let tail ← lineTail? behind
  let lineEnd := place.advance (place.rest.length - behind.length + tail)
  let indentation := header.indentation.map fun n => margin - 1 + n
  let bound := place.rest.length + 1
  let lines ← emptyLines indentation bound lineEnd.next
  let indentation := indentation.getD (max 1 (max margin lines.widest))
  blockLines literal indentation header.chomping bound [] lines.breaks false lines.behind

end TrafficCheck.Yaml
