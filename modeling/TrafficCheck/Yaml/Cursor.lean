/-!
# Places in a YAML text

The characters a YAML text may hold, its line breaks, and cursors, which know the line and the
column they stand at.

## Main definitions

* `Yaml.cleaned?`: a text with uniform line breaks, if all its characters are permitted.
* `Yaml.Cursor`: the text that is left to read and its place.
* `Yaml.Cursor.atMarker`: whether a cursor stands at a document marker.
-/

namespace TrafficCheck.Yaml

/-- The code points that a text may hold, as closed ranges in ascending order. -/
def permittedRanges : List (Nat × Nat) :=
  [(0x09, 0x0A), (0x0D, 0x0D), (0x20, 0x7E), (0x85, 0x85), (0xA0, 0xD7FF), (0xE000, 0xFFFD),
   (0x10000, 0x10FFFF)]

/-- A character is permitted when its code point lies in one of the ranges. -/
def isPermitted (c : Char) : Bool :=
  permittedRanges.any fun range => range.1 ≤ c.toNat && c.toNat ≤ range.2

/-- A space or a tab. -/
def isSpace (c : Char) : Bool := c = ' ' || c = '\t'

/-- A line break of a cleaned text. -/
def isBreak (c : Char) : Bool := c = '\n' || c = '\u2028' || c = '\u2029'

/-- A letter, a digit, an underscore or a dash: what names are made of. -/
def isNameChar (c : Char) : Bool := c.isAlphanum || c = '_' || c = '-'

/-- A space, a tab or a line break. -/
def isGap (c : Char) : Bool := isSpace c || isBreak c

/-- Whether a text is at its end or starts with a space, a tab or a line break. -/
def startsOpen (cs : List Char) : Bool := cs.head?.all isGap

/-- The text with a line feed for every carriage return, every next line character, and every pair
of a carriage return and a line feed. -/
def withLineFeeds : List Char → List Char
  | [] => []
  | '\r' :: '\n' :: cs => '\n' :: withLineFeeds cs
  | c :: cs => (if c = '\r' ∨ c = '\u0085' then '\n' else c) :: withLineFeeds cs

/-- The text with uniform line breaks, if all its characters are permitted. -/
def cleaned? (cs : List Char) : Option (List Char) :=
  if cs.all isPermitted then some (withLineFeeds cs) else none

/-- The text left to read, how many bytes were read before it, and the line and the column of its
start, both counted from zero. A column is one character wide. -/
structure Cursor where
  rest : List Char
  index : Nat
  line : Nat
  column : Nat

namespace Cursor

/-- The start of a text. -/
def start (cs : List Char) : Cursor := ⟨cs, 0, 0, 0⟩

/-- The cursor behind the next character. -/
def next (place : Cursor) : Cursor :=
  match place.rest with
  | [] => place
  | c :: cs =>
    if isBreak c then ⟨cs, place.index + c.utf8Size, place.line + 1, 0⟩
    else ⟨cs, place.index + c.utf8Size, place.line, place.column + 1⟩

/-- The cursor behind the next `n` characters. -/
def advance (place : Cursor) : Nat → Cursor
  | 0 => place
  | n + 1 => place.next.advance n

/-- Whether the cursor stands at a document marker made of three times `c`: at the start of a line
and with a space, a tab, a line break or the end of the text behind it. -/
def atMarkerOf (place : Cursor) (c : Char) : Bool :=
  place.column = 0 && [c, c, c].isPrefixOf place.rest && startsOpen (place.rest.drop 3)

/-- Whether the cursor stands at the marker of the start or the end of a document. -/
def atMarker (place : Cursor) : Bool := place.atMarkerOf '-' || place.atMarkerOf '.'

end Cursor

end TrafficCheck.Yaml
