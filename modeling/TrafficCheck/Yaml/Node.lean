import TrafficCheck.Yaml.Token

/-!
# YAML nodes

A document is one node: a scalar, a sequence or a mapping. An entry, a key or a value that is left
out is the empty plain scalar, and so is a text without any document.

Anchors are known by numbers: each gets the number of names that are in use before it, and a
reference goes to the number that its name got last. A name that is given again thus takes a number
that the next new name may get, too; then the later node stands for both.

## Main definitions

* `Yaml.Token.settle`: tokens whose anchors and references bear numbers and whose tags are in full.
* `Yaml.Node.readNode`: the node that a list of tokens starts with.
* `Yaml.Node.ofText?`: the node of a text that holds one document.
-/

namespace TrafficCheck.Yaml

namespace Token

/-- The names of anchors with their numbers, the latest first. -/
abbrev Numbering := List (List Char × Nat)

/-- The numbering after an anchor: a new name takes a new place, and an old one its own. -/
def renumber (known : Numbering) (name : List Char) : Numbering :=
  (name, known.length) :: known.filter fun entry => entry.1 != name

/-- The tag in full, if its handle is known. -/
def fullTag? (handles : List (List Char × List Char)) (t : Tag) : Option (List Char) :=
  if t.handle.isEmpty then some t.suffix
  else (handles.lookup t.handle).map fun text => text ++ t.suffix

/-- The tokens with numbers in place of the names of anchors, and with all tags in full. -/
def settle (handles : List (List Char × List Char)) :
    Numbering → List Token → Option (List Token)
  | _, [] => some []
  | known, .anchor name :: rest =>
    (settle handles (renumber known name) rest).map
      (.anchor (Nat.toDigits 10 known.length) :: ·)
  | known, .reference name :: rest => do
    let number ← known.lookup name
    let rest ← settle handles known rest
    return .reference (Nat.toDigits 10 number) :: rest
  | known, .tag t :: rest => do
    let full ← fullTag? handles t
    let rest ← settle handles known rest
    return .tag ⟨[], full⟩ :: rest
  | known, t :: rest => (settle handles known rest).map (t :: ·)

/-- The handles that the directives at the head of a document declare, each at most once, and the
tokens behind them. There is at most one version, which can be read. -/
def directives? (versioned : Bool) (handles : List (List Char × List Char)) :
    List Token → Option (List (List Char × List Char) × List Token)
  | .directive (.version major minor) :: rest =>
    if versioned || !Directive.isReadable major minor then none else directives? true handles rest
  | .directive (.handle name text) :: rest =>
    if (handles.lookup name).isSome then none
    else directives? versioned ((name, text) :: handles) rest
  | rest => some (handles, rest)

/-- The tokens of a document behind its directives, settled. A document with directives starts with
a marker. -/
def document? (tokens : List Token) : Option (List Token) := do
  let (handles, rest) ← directives? false [] tokens
  if rest.length < tokens.length && rest.head? != some .documentStart then none
  settle (handles ++ Directive.standardHandles) [] rest

end Token

/-- The value of a document. -/
inductive Node where
  | scalar (style : ScalarStyle) (tag : Option String) (text : String)
  | sequence (items : List Node)
  | mapping (pairs : List (Node × Node))
  /-- A node with the number of its anchor. -/
  | anchored (number : String) (node : Node)
  /-- The node whose anchor has the number. -/
  | reference (number : String)

namespace Node

/-- The node that is left out. -/
def missing : Node := .scalar .plain none ""

/-- Tokens before which a node of a block collection was left out. Another dash comes too late for
an entry without a sequence of its own. -/
def leavesOut (dashToo : Bool) : List Token → Bool
  | .key :: _ | .value :: _ | .blockEnd :: _ => true
  | .blockEntry :: _ => dashToo
  | _ => false

/-- Whether an entry of a flow collection that `stop` ends is over. -/
def flowEnds (stop : Token) : List Token → Bool
  | t :: _ => t = .flowEntry || t = stop
  | [] => false

/-- The number of the anchor and the tag before a node, in either order, and the tokens behind
them. -/
def properties : List Token → Option String × Option String × List Token
  | .anchor a :: .tag t :: rest | .tag t :: .anchor a :: rest =>
    (some (String.ofList a), some (String.ofList t.suffix), rest)
  | .anchor a :: rest => (some (String.ofList a), none, rest)
  | .tag t :: rest => (none, some (String.ofList t.suffix), rest)
  | rest => (none, none, rest)

/-- The scalar with a tag; the plain exclamation mark is none. -/
def ofScalar (style : ScalarStyle) (tag : Option String) (text : List Char) : Node :=
  .scalar style (tag.filter (· != "!")) (String.ofList text)

/-- The node with the number of its anchor, if it has one. -/
def withAnchor (number : Option String) (node : Node) : Node :=
  number.elim node fun number => .anchored number node

mutual

/-- The node that a list of tokens starts with and the tokens behind it. Block collections count
only where `block` says so, and a sequence without indentation only where `dashes` does. The first
argument bounds the number of steps. -/
def readNode : Nat → Bool → Bool → List Token → Option (Node × List Token)
  | 0, _, _, _ => none
  | _, _, _, .reference number :: rest => some (.reference (String.ofList number), rest)
  | bound + 1, block, dashes, tokens =>
    let (anchor, tag, behind) := properties tokens
    let content := readContent bound block dashes tag behind
    let left :=
      if anchor.isSome || tag.isSome then some (.scalar .plain tag "", behind) else none
    (content.getD left).map fun r => (r.1.withAnchor anchor, r.2)

/-- The node behind its properties, if the tokens start with one. -/
def readContent : Nat → Bool → Bool → Option String → List Token →
    Option (Option (Node × List Token))
  | 0, _, _, _, _ => some none
  | bound + 1, block, dashes, tag, tokens =>
    match tokens with
    | .scalar style text :: rest => some (some (ofScalar style tag text, rest))
    | .flowSequenceStart :: rest =>
      some ((flowItems bound true rest).map fun r => (.sequence r.1, r.2))
    | .flowMappingStart :: rest =>
      some ((flowPairs bound true rest).map fun r => (.mapping r.1, r.2))
    | .blockEntry :: _ =>
      if dashes then some ((dashItems bound tokens).map fun r => (.sequence r.1, r.2)) else none
    | .blockSequenceStart :: rest =>
      if block then some ((blockItems bound rest).map fun r => (.sequence r.1, r.2)) else none
    | .blockMappingStart :: rest =>
      if block then some ((blockPairs bound rest).map fun r => (.mapping r.1, r.2)) else none
    | _ => none

/-- The entries of a block sequence up to its end. -/
def blockItems : Nat → List Token → Option (List Node × List Token)
  | 0, _ => none
  | bound + 1, tokens =>
    match tokens with
    | .blockEnd :: rest => some ([], rest)
    | .blockEntry :: rest => do
      let (item, rest) ← match rest with
        | .blockEntry :: _ | .blockEnd :: _ => some (missing, rest)
        | _ => readNode bound true false rest
      let (items, rest) ← blockItems bound rest
      return (item :: items, rest)
    | _ => none

/-- The entries of a sequence without indentation, which ends where no dash follows. -/
def dashItems : Nat → List Token → Option (List Node × List Token)
  | 0, _ => none
  | bound + 1, tokens =>
    match tokens with
    | .blockEntry :: rest => do
      let (item, rest) ←
        if leavesOut true rest then some (missing, rest) else readNode bound true false rest
      let (items, rest) ← dashItems bound rest
      return (item :: items, rest)
    | _ => some ([], tokens)

/-- The pairs of a block mapping up to its end. -/
def blockPairs : Nat → List Token → Option (List (Node × Node) × List Token)
  | 0, _ => none
  | bound + 1, tokens =>
    match tokens with
    | .blockEnd :: rest => some ([], rest)
    | .key :: rest => do
      let (key, rest) ←
        if leavesOut false rest then some (missing, rest) else readNode bound true true rest
      let (value, rest) ← match rest with
        | .value :: rest =>
          if leavesOut false rest then some (missing, rest) else readNode bound true true rest
        | _ => some (missing, rest)
      let (pairs, rest) ← blockPairs bound rest
      return ((key, value) :: pairs, rest)
    | _ => none

/-- The value behind a key of a flow collection that `stop` ends. -/
def flowValue (stop : Token) : Nat → List Token → Option (Node × List Token)
  | 0, _ => none
  | bound + 1, tokens =>
    match tokens with
    | .value :: rest =>
      if flowEnds stop rest then some (missing, rest) else readNode bound false false rest
    | _ => some (missing, tokens)

/-- The entries of a flow sequence up to its end, each but the first one behind a comma; a comma may
stand before the end, too. A key makes an entry a mapping of one pair; where the key is left out,
the token in its place goes with it. -/
def flowItems : Nat → Bool → List Token → Option (List Node × List Token)
  | 0, _, _ => none
  | bound + 1, first, tokens =>
    match tokens with
    | .flowSequenceEnd :: rest => some ([], rest)
    | _ => do
      let tokens ← match first, tokens with
        | true, tokens => some tokens
        | false, .flowEntry :: rest => some rest
        | false, _ => none
      match tokens with
      | .flowSequenceEnd :: rest => some ([], rest)
      | .key :: rest => do
        let (key, rest) ←
          if flowEnds .flowSequenceEnd rest || rest.head? = some .value then
            some (missing, rest.tail)
          else readNode bound false false rest
        let (value, rest) ← flowValue .flowSequenceEnd bound rest
        let (items, rest) ← flowItems bound false rest
        return (.mapping [(key, value)] :: items, rest)
      | _ => do
        let (item, rest) ← readNode bound false false tokens
        let (items, rest) ← flowItems bound false rest
        return (item :: items, rest)

/-- The pairs of a flow mapping up to its end, each but the first one behind a comma; a comma may
stand before the end, too. A node without a key token before it is a key without a value. -/
def flowPairs : Nat → Bool → List Token → Option (List (Node × Node) × List Token)
  | 0, _, _ => none
  | bound + 1, first, tokens =>
    match tokens with
    | .flowMappingEnd :: rest => some ([], rest)
    | _ => do
      let tokens ← match first, tokens with
        | true, tokens => some tokens
        | false, .flowEntry :: rest => some rest
        | false, _ => none
      match tokens with
      | .flowMappingEnd :: rest => some ([], rest)
      | .key :: rest => do
        let (key, rest) ←
          if flowEnds .flowMappingEnd rest || rest.head? = some .value then some (missing, rest)
          else readNode bound false false rest
        let (value, rest) ← flowValue .flowMappingEnd bound rest
        let (pairs, rest) ← flowPairs bound false rest
        return ((key, value) :: pairs, rest)
      | _ => do
        let (key, rest) ← readNode bound false false tokens
        let (pairs, rest) ← flowPairs bound false rest
        return ((key, missing) :: pairs, rest)

end

/-- Whether a token cannot belong to the node of a document. -/
def isOutside : Token → Bool
  | .directive _ | .documentStart | .documentEnd => true
  | _ => false

/-- The node of a document and the tokens behind it. A document that starts with a marker may be
empty. -/
def readDocument (tokens : List Token) : Option (Node × List Token) :=
  let bound := 4 * (tokens.length + 1)
  match tokens with
  | [] => some (missing, [])
  | .documentStart :: rest =>
    if rest.head?.all isOutside then some (missing, rest) else readNode bound true false rest
  | tokens => readNode bound true false tokens

/-- The node of a text, if the text holds a single document. Markers of its end may follow it. -/
def ofText? (text : String) : Option Node := do
  let tokens ← Token.ofText? text.toList
  let (node, rest) ← readDocument (← Token.document? tokens)
  if (rest.dropWhile (· = .documentEnd)).isEmpty then return node else none

end Node

end TrafficCheck.Yaml
