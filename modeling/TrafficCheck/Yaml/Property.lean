import TrafficCheck.Yaml.Block

/-!
# YAML properties and directives

A node may bear an anchor, which is a name to refer to it by, and a tag, which says what it is. A
tag is written with a handle that stands for the start of a longer text. Directives at the head of a
document declare its version and its handles.

## Main definitions

* `Yaml.readName?`: the name of an anchor or a reference.
* `Yaml.Tag`, `Yaml.Tag.read?`: tags as they are written.
* `Yaml.Directive`, `Yaml.Directive.read?`: directives.
-/

namespace TrafficCheck.Yaml

/-- What may stand right behind the name of an anchor, beside a gap. -/
def nameEnds : List Char := ['?', ':', ',', ']', '\x7d', '%', '@', '\x60']

/-- The name that a text starts with. -/
def readName? (cs : List Char) : Option (List Char) :=
  let name := cs.takeWhile isNameChar
  let behind := cs.drop name.length
  if name.isEmpty then none
  else if startsOpen behind || behind.head?.any nameEnds.contains then some name
  else none

/-- The characters of a tag, beside those of names. -/
def tagMarks : List Char :=
  [';', '/', '?', ':', '@', '&', '=', '+', '$', '.', '!', '~', '*', '\'', '(', ')']

/-- A character of a tag. -/
def isTagChar (c : Char) : Bool := isNameChar c || tagMarks.contains c

/-- A character of a tag that is written in full. -/
def isFullTagChar (c : Char) : Bool := isTagChar c || [',', '[', ']'].contains c

/-- The octet that a percent sign and two digits of base sixteen write, and what follows them. -/
def readOctet? : List Char → Option (UInt8 × List Char)
  | '%' :: high :: low :: rest => do
    return (.ofNat (16 * (← hexDigit? high) + (← hexDigit? low)), rest)
  | _ => none

/-- Some octets, and what follows them. -/
def readOctets? : Nat → List Char → Option (List UInt8 × List Char)
  | 0, cs => some ([], cs)
  | n + 1, cs => do
    let (octet, rest) ← readOctet? cs
    let (octets, rest) ← readOctets? n rest
    return (octet :: octets, rest)

/-- The number of octets that write a character, by the first of them. -/
def octetCount? (first : UInt8) : Option Nat :=
  if first < 0x80 then some 1
  else if first < 0xC0 then none
  else if first < 0xE0 then some 2
  else if first < 0xF0 then some 3
  else if first < 0xF8 then some 4
  else none

/-- The character that octets write at the start of a text, and what follows them. -/
def readOctetChar? (cs : List Char) : Option (Char × List Char) := do
  let (first, _) ← readOctet? cs
  let (octets, rest) ← readOctets? (← octetCount? first) cs
  match (String.fromUTF8? ⟨octets.toArray⟩).map String.toList with
  | some [c] => return (c, rest)
  | _ => none

/-- The part of a tag that a text starts with, and what follows it. A character may be written by
its octets. The first argument bounds the number of characters. -/
def readTagText (isPart : Char → Bool) : Nat → List Char → Option (List Char × List Char)
  | 0, cs => some ([], cs)
  | _, [] => some ([], [])
  | bound + 1, c :: cs =>
    if c = '%' then do
      let (d, rest) ← readOctetChar? (c :: cs)
      let (text, rest) ← readTagText isPart bound rest
      return (d :: text, rest)
    else if isPart c then do
      let (text, rest) ← readTagText isPart bound cs
      return (c :: text, rest)
    else some ([], c :: cs)

/-- A tag as it is written: a handle and what follows it. Without a handle it is written in full. -/
structure Tag where
  handle : List Char
  suffix : List Char
  deriving DecidableEq

namespace Tag

/-- The tag in angle brackets that a text starts with, and what follows it. -/
def readFull? (cs : List Char) : Option (Tag × List Char) := do
  let (text, rest) ← readTagText isFullTagChar cs.length cs
  match rest with
  | '>' :: rest => if text.isEmpty then none else return (⟨[], text⟩, rest)
  | _ => none

/-- The tag with a named handle, or with the plain one, that a text starts with, and what follows
it. -/
def readShort? (cs : List Char) : Option (Tag × List Char) := do
  let name := cs.takeWhile isNameChar
  match cs.drop name.length with
  | '!' :: rest =>
    let (suffix, rest) ← readTagText isTagChar rest.length rest
    if suffix.isEmpty then none else return (⟨'!' :: name ++ ['!'], suffix⟩, rest)
  | rest =>
    let (suffix, rest) ← readTagText isTagChar rest.length rest
    if (name ++ suffix).isEmpty then return (⟨[], ['!']⟩, rest)
    else return (⟨['!'], name ++ suffix⟩, rest)

/-- The tag behind an exclamation mark, and its length. A gap follows it, or a comma inside a flow
collection. -/
def read? (inFlow : Bool) (cs : List Char) : Option (Tag × Nat) := do
  let (tag, behind) ← match cs with
    | '<' :: rest => readFull? rest
    | _ => readShort? cs
  if startsOpen behind || inFlow && behind.head? = some ',' then
    return (tag, cs.length - behind.length)
  else none

end Tag

/-- A line at the head of a document. -/
inductive Directive where
  | version (major minor : List Char)
  | handle (name text : List Char)
  deriving DecidableEq

namespace Directive

/-- The most digits of a version number. -/
def longestNumber : Nat := 9

/-- The digits of a version number that a text starts with, and what follows them. -/
def readNumber? (cs : List Char) : Option (List Char × List Char) :=
  let digits := cs.takeWhile Char.isDigit
  if digits.isEmpty || longestNumber < digits.length then none
  else some (digits, cs.drop digits.length)

/-- The version that a text starts with, and what follows it. -/
def readVersion? (cs : List Char) : Option (Directive × List Char) := do
  let (major, rest) ← readNumber? cs
  match rest with
  | '.' :: rest => do
    let (minor, rest) ← readNumber? rest
    return (.version major minor, rest)
  | _ => none

/-- The handle that a text starts with, and what follows it: two exclamation marks with a name
between them, or a single one. -/
def readHandle? : List Char → Option (List Char × List Char)
  | '!' :: cs =>
    let name := cs.takeWhile isNameChar
    match cs.drop name.length with
    | '!' :: rest => some ('!' :: name ++ ['!'], rest)
    | rest => if name.isEmpty then some (['!'], rest) else none
  | _ => none

/-- The handle and the text it stands for that a text starts with, and what follows them. -/
def readMeaning? (cs : List Char) : Option (Directive × List Char) := do
  let (name, rest) ← readHandle? cs
  let value := rest.dropWhile isSpace
  let (text, behind) ← readTagText isFullTagChar value.length value
  if value.length < rest.length && !text.isEmpty && startsOpen behind then
    return (.handle name text, behind)
  else none

/-- The directive behind a percent sign, and its length up to the end of its line. -/
def read? (cs : List Char) : Option (Directive × Nat) := do
  let name := cs.takeWhile isNameChar
  let rest := cs.drop name.length
  if !startsOpen rest then none
  let value := rest.dropWhile isSpace
  let (directive, behind) ←
    if name = "YAML".toList then readVersion? value
    else if name = "TAG".toList then readMeaning? value
    else none
  let tail ← lineTail? behind
  return (directive, cs.length - behind.length + tail)

/-- Whether a document of a version can be read. -/
def isReadable (major minor : List Char) : Bool :=
  let number (cs : List Char) := String.ofList (cs.dropWhile (· = '0'))
  number major = "1" && (number minor = "1" || number minor = "2")

/-- The handles that are known without a directive, with what they stand for. -/
def standardHandles : List (List Char × List Char) :=
  [("!".toList, "!".toList), ("!!".toList, "tag:yaml.org,2002:".toList)]

end Directive

end TrafficCheck.Yaml
