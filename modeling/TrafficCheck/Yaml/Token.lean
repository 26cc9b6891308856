import TrafficCheck.Yaml.Property

/-!
# YAML tokens

A YAML text is a list of tokens. Indentation shows in it as tokens that open and close block
collections, and a mapping key has a token before it even where nothing in the text announces it:
when a colon follows a scalar or a flow collection, the key token is put before that one.

## Main definitions

* `Yaml.Token.ofText?`: the tokens of a text.
-/

namespace TrafficCheck.Yaml

/-- A token of a YAML text. -/
inductive Token where
  | directive (d : Directive)
  | documentStart
  | documentEnd
  | blockSequenceStart
  | blockMappingStart
  | blockEnd
  | flowSequenceStart
  | flowSequenceEnd
  | flowMappingStart
  | flowMappingEnd
  | blockEntry
  | flowEntry
  | key
  | value
  | anchor (name : List Char)
  | reference (name : List Char)
  | tag (t : Tag)
  | scalar (style : ScalarStyle) (text : List Char)
  deriving DecidableEq

/-- A scalar or flow collection that is a mapping key if a colon follows it on its line, soon
enough. Where a block mapping asks for a key, the colon is required. -/
structure PendingKey where
  position : Nat
  index : Nat
  line : Nat
  column : Nat
  required : Bool

/-- How many bytes may stand between the start of a key and its colon. -/
def longestKey : Nat := 1024

/-- Whether a colon at the given place comes too late for a key: on a later line, or more bytes
behind its start than the longest key has. -/
def PendingKey.isOver (k : PendingKey) (place : Cursor) : Bool :=
  k.line < place.line || k.index + longestKey < place.index

/-- The tokens read so far and what decides on the next ones. -/
structure Scanner where
  cursor : Cursor
  tokens : Array Token
  /-- The margin of each open block collection, innermost first: one more than its column. -/
  margins : List Nat
  /-- Whether a mapping key may start here. -/
  keyAllowed : Bool
  /-- What may become a key in the innermost collection. -/
  pending : Option PendingKey
  /-- What may become a key outside each open flow collection, innermost first. -/
  outer : List (Option PendingKey)

namespace Scanner

/-- A scanner at the start of a text. -/
def start (cs : List Char) : Scanner := ⟨.start cs, #[], [], true, none, []⟩

/-- Whether a flow collection is open. -/
def inFlow (s : Scanner) : Bool := !s.outer.isEmpty

/-- The column at which the content of the innermost block collection may start. -/
def margin (s : Scanner) : Nat := s.margins.headD 0

/-- The scanner behind the next `n` characters. -/
def skip (s : Scanner) (n : Nat) : Scanner := { s with cursor := s.cursor.advance n }

/-- One more token. -/
def push (s : Scanner) (t : Token) : Scanner := { s with tokens := s.tokens.push t }

/-- How many characters stand before the next token, and whether a key may start there. Tabs count
only where no key may start, a comment ends with its line, and outside flow collections a key may
start on every new line. A byte order mark counts at the start of a line, once. -/
def leading (inFlow : Bool) : Bool → Bool → Bool → List Char → Nat × Bool
  | _, keyAllowed, _, [] => (0, keyAllowed)
  | lineStart, keyAllowed, inComment, c :: cs =>
    let go (lineStart keyAllowed inComment : Bool) :=
      let (n, allowed) := leading inFlow lineStart keyAllowed inComment cs
      (n + 1, allowed)
    if isBreak c then go true (keyAllowed || !inFlow) false
    else if inComment || c = '#' then go false keyAllowed true
    else if c = ' ' || c = '\t' && (inFlow || !keyAllowed) || c = '\uFEFF' && lineStart then
      go false keyAllowed false
    else (0, keyAllowed)

/-- The scanner at the next token. -/
def toNextToken (s : Scanner) : Scanner :=
  let (n, keyAllowed) :=
    leading s.inFlow (s.cursor.column = 0) s.keyAllowed false s.cursor.rest
  { s.skip n with keyAllowed := keyAllowed }

/-- A pending key that is over is none any more, and an error if its colon is required. -/
def expire (place : Cursor) : Option PendingKey → Option (Option PendingKey)
  | none => some none
  | some k => if k.isOver place then (if k.required then none else some none) else some (some k)

/-- The scanner without the pending keys that are over. -/
def expireKeys (s : Scanner) : Option Scanner := do
  let pending ← expire s.cursor s.pending
  let outer ← s.outer.mapM (expire s.cursor)
  return { s with pending := pending, outer := outer }

/-- The scanner without its innermost pending key, which is an error if its colon is required. -/
def dropKey (s : Scanner) : Option Scanner :=
  if s.pending.any (·.required) then none else some { s with pending := none }

/-- The next token may become a key, if a key may start here. -/
def saveKey (s : Scanner) : Option Scanner :=
  if s.keyAllowed then
    let c := s.cursor
    let required := !s.inFlow && s.margin = c.column + 1
    s.dropKey.map fun s =>
      { s with pending := some ⟨s.tokens.size, c.index, c.line, c.column, required⟩ }
  else some s

/-- Closes the block collections whose margin is beyond `limit`. -/
def closeBeyond (s : Scanner) (limit : Nat) : Scanner :=
  if s.inFlow then s
  else
    let closed := s.margins.takeWhile fun margin => limit < margin
    { s with
      tokens := s.tokens ++ (closed.map fun _ => Token.blockEnd)
      margins := s.margins.drop closed.length }

/-- Opens a block collection at a column unless one is open there. Its token takes the given
position. -/
def openAt (s : Scanner) (column : Nat) (t : Token) (position : Nat) : Scanner :=
  if !s.inFlow && s.margin ≤ column then
    { s with
      tokens := s.tokens.insertIdxIfInBounds position t
      margins := (column + 1) :: s.margins }
  else s

/-- Opens a block collection at the current column unless one is open there. -/
def openHere (s : Scanner) (t : Token) : Scanner := s.openAt s.cursor.column t s.tokens.size

/-- A directive closes all block collections. -/
def directive (s : Scanner) (rest : List Char) : Option Scanner := do
  let s ← (s.closeBeyond 0).dropKey
  let (d, length) ← Directive.read? rest
  return { (s.skip (length + 1)).push (.directive d) with keyAllowed := false }

/-- A document marker closes all block collections. -/
def marker (s : Scanner) (t : Token) : Option Scanner := do
  let s ← (s.closeBeyond 0).dropKey
  return { (s.skip 3).push t with keyAllowed := false }

/-- The start of a flow collection. -/
def openFlow (s : Scanner) (t : Token) : Option Scanner := do
  let s ← s.saveKey
  return { (s.skip 1).push t with
    outer := s.pending :: s.outer
    pending := none
    keyAllowed := true }

/-- The end of a flow collection. -/
def closeFlow (s : Scanner) (t : Token) : Option Scanner := do
  let s ← s.dropKey
  let s := (s.skip 1).push t
  return { s with
    pending := s.outer.headD none
    outer := s.outer.tail
    keyAllowed := false }

/-- The comma between the entries of a flow collection. -/
def flowEntry (s : Scanner) : Option Scanner := do
  let s ← s.dropKey
  return { (s.skip 1).push .flowEntry with keyAllowed := true }

/-- The dash before an entry of a block sequence. -/
def blockEntry (s : Scanner) : Option Scanner :=
  if s.inFlow || s.keyAllowed then do
    let s ← (s.openHere .blockSequenceStart).dropKey
    return { (s.skip 1).push .blockEntry with keyAllowed := true }
  else none

/-- The question mark before a key. -/
def explicitKey (s : Scanner) : Option Scanner :=
  if s.inFlow || s.keyAllowed then do
    let s ← (s.openHere .blockMappingStart).dropKey
    return { (s.skip 1).push .key with keyAllowed := !s.inFlow }
  else none

/-- The colon before a value. The pending key, if there is one, is a key now. -/
def valueMark (s : Scanner) : Option Scanner :=
  match s.pending with
  | some k =>
    let s := { s with tokens := s.tokens.insertIdxIfInBounds k.position .key, pending := none }
    let s := s.openAt k.column .blockMappingStart k.position
    some { (s.skip 1).push .value with keyAllowed := false }
  | none =>
    if s.inFlow || s.keyAllowed then
      let s := s.openHere .blockMappingStart
      some { (s.skip 1).push .value with keyAllowed := !s.inFlow }
    else none

/-- The name or the tag of a node, or a reference to one. It may belong to a key. -/
def property (s : Scanner) (t : Token) (length : Nat) : Option Scanner := do
  let s ← s.saveKey
  return { (s.skip length).push t with keyAllowed := false }

/-- A name behind a mark of one character. -/
def named (s : Scanner) (rest : List Char) (t : List Char → Token) : Option Scanner := do
  let name ← readName? rest
  s.property (t name) (name.length + 1)

/-- A tag. -/
def tagged (s : Scanner) (rest : List Char) : Option Scanner := do
  let (tag, length) ← Tag.read? s.inFlow rest
  s.property (.tag tag) (length + 1)

/-- A scalar that was read at the current place. -/
def scalar (s : Scanner) (style : ScalarStyle) (r : ScalarRead) : Scanner :=
  { s.push (.scalar style r.text) with cursor := r.behind, keyAllowed := r.lineEnded }

/-- A plain scalar. -/
def plain (s : Scanner) : Option Scanner := do
  let s ← s.saveKey
  return s.scalar .plain (← readPlain s.inFlow s.margin s.cursor)

/-- A scalar in the given quotes. -/
def quoted (s : Scanner) (quote : Char) : Option Scanner := do
  let s ← s.saveKey
  return s.scalar .quoted (← readQuoted quote s.cursor)

/-- A block scalar, which is no key and has no place inside a flow collection. -/
def block (s : Scanner) (style : ScalarStyle) : Option Scanner := do
  if s.inFlow then none
  let s ← s.dropKey
  return s.scalar style (← readBlock (style = .literal) s.margin s.cursor)

/-- The characters that start no token where they stand. -/
def isRefused (c : Char) : Bool := isGap c || ['#', '%', '@', '\x60'].contains c

/-- The scanner behind the token that starts with `c` and goes on with `rest`. -/
def token (s : Scanner) (c : Char) (rest : List Char) : Option Scanner :=
  if c = '%' && s.cursor.column = 0 then s.directive rest
  else if s.cursor.atMarkerOf '-' then s.marker .documentStart
  else if s.cursor.atMarkerOf '.' then s.marker .documentEnd
  else
    match c with
    | '[' => s.openFlow .flowSequenceStart
    | ']' => s.closeFlow .flowSequenceEnd
    | '\x7b' => s.openFlow .flowMappingStart
    | '\x7d' => s.closeFlow .flowMappingEnd
    | ',' => s.flowEntry
    | '&' => s.named rest .anchor
    | '*' => s.named rest .reference
    | '!' => s.tagged rest
    | '|' => s.block .literal
    | '>' => s.block .folded
    | '\'' => s.quoted '\''
    | '"' => s.quoted '"'
    | '-' => if startsOpen rest then s.blockEntry else s.plain
    | '?' => if s.inFlow || startsOpen rest then s.explicitKey else s.plain
    | ':' => if s.inFlow || startsOpen rest then s.valueMark else s.plain
    | c => if isRefused c then none else s.plain

/-- All tokens behind a scanner. The first argument bounds their number. -/
def run : Nat → Scanner → Option (List Token)
  | 0, _ => none
  | bound + 1, s => do
    let s ← s.toNextToken.expireKeys
    let s := s.closeBeyond (s.cursor.column + 1)
    match s.cursor.rest with
    | [] =>
      let s ← (s.closeBeyond 0).dropKey
      return s.tokens.toList
    | c :: rest => run bound (← s.token c rest)

end Scanner

/-- The tokens of a text, if it is made of tokens. -/
def Token.ofText? (cs : List Char) : Option (List Token) :=
  (cleaned? cs).bind fun cs => Scanner.run (cs.length + 1) (.start cs)

end TrafficCheck.Yaml
