import TrafficCheck.Decimal.Digits
import TrafficCheck.Yaml.Node

/-!
# Views of YAML nodes

What a node says where a text, a number, a list or a record of fields is asked for. Every view
refuses the nodes that it cannot show. A reference says what the node it goes to says.

## Main definitions

* `Yaml.View`: a node with the anchors of its document.
* `Yaml.View.text?`, `Yaml.View.word?`, `Yaml.View.natural?`, `Yaml.View.optionalText?`: scalars.
* `Yaml.View.items?`, `Yaml.View.fields?`: sequences and mappings.
-/

namespace TrafficCheck.Yaml

mutual

/-- The nodes with anchors in a node, each with its number, in the order in which they start. -/
def Node.anchors : Node → List (String × Node)
  | .anchored number node => (number, node) :: node.anchors
  | .sequence items => Node.anchorsOfItems items
  | .mapping pairs => Node.anchorsOfPairs pairs
  | .scalar _ _ _ | .reference _ => []

/-- The nodes with anchors in some nodes. -/
def Node.anchorsOfItems : List Node → List (String × Node)
  | [] => []
  | item :: items => item.anchors ++ Node.anchorsOfItems items

/-- The nodes with anchors in some pairs of nodes. -/
def Node.anchorsOfPairs : List (Node × Node) → List (String × Node)
  | [] => []
  | (key, value) :: pairs => key.anchors ++ value.anchors ++ Node.anchorsOfPairs pairs

end

/-- A node with the anchors of its document. Of two with one number the first stands for it. -/
structure View where
  anchors : List (String × Node)
  node : Node

namespace View

/-- The view of the document in a text. -/
def ofText? (text : String) : Option View :=
  (Node.ofText? text).map fun node => ⟨node.anchors.reverse, node⟩

/-- What a node stands for: itself without its anchor, or the node it refers to. -/
def content (v : View) : Node :=
  match v.node with
  | .anchored _ node => node
  | .reference number => (v.anchors.lookup number).getD .missing
  | node => node

/-- The view of another node of the document. -/
def withNode (v : View) (node : Node) : View := { v with node := node }

/-- The text of a scalar, however it is written. -/
def text? (v : View) : Option String :=
  match v.content with
  | .scalar _ _ text => some text
  | _ => none

/-- The plain texts that stand for nothing. -/
def nullTexts : List String := ["~", "null", "Null", "NULL"]

/-- The tag of scalars that stand for nothing. -/
def nullTag : String := "tag:yaml.org,2002:null"

/-- The text of a scalar, which is absent where the scalar stands for nothing. A scalar with the tag
of those that do has to be one of them. -/
def optionalText? (v : View) : Option (Option String) :=
  match v.content with
  | .scalar .plain none text =>
    some (if text.isEmpty || nullTexts.contains text then none else some text)
  | .scalar .plain (some tag) text =>
    if tag != nullTag then some (some text)
    else if nullTexts.contains text then some none
    else none
  | .scalar _ _ text => some (some text)
  | _ => none

/-- The name that a tag of the document's own gives. -/
def ownTag? (tag : String) : Option String :=
  match tag.toList with
  | ['!'] => some "!"
  | '!' :: name => some (String.ofList name)
  | _ => none

/-- The word of a scalar: its text, or the name that its tag gives where the text says nothing. -/
def word? (v : View) : Option String :=
  match v.content with
  | .scalar style tag text =>
    match tag.bind ownTag? with
    | none => some text
    | some name =>
      if text.isEmpty || style = .plain && nullTexts.contains text then some name else none
  | _ => none

/-- The number a nonempty list of digits of a base up to sixteen writes. -/
def numberInBase? (base : Nat) (cs : List Char) : Option Nat :=
  if cs.isEmpty then none
  else cs.foldlM (fun n c =>
    match hexDigit? c with
    | some d => if d < base then some (base * n + d) else none
    | none => none) 0

/-- The number a text writes: digits of base ten without a needless zero before them, or digits of
another base behind its mark. A plus sign may lead. -/
def number? (cs : List Char) : Option Nat :=
  let body := if cs.head? = some '+' then cs.tail else cs
  let marked := match body with
    | '0' :: 'x' :: rest => numberInBase? 16 rest
    | '0' :: 'o' :: rest => numberInBase? 8 rest
    | '0' :: 'b' :: rest => numberInBase? 2 rest
    | _ => none
  marked.or (if body.head? = some '0' && body.length > 1 then none else Decimal.natural? body)

/-- The tag of numbers. -/
def numberTag : String := "tag:yaml.org,2002:int"

/-- The number of a plain scalar, or of a literal one with the tag of numbers, if it is below
`limit`. -/
def natural? (limit : Nat) (v : View) : Option Nat :=
  match v.content with
  | .scalar style tag text =>
    if style = .plain || style = .literal && tag = some numberTag then
      (number? text.toList).filter (· < limit)
    else none
  | _ => none

/-- The items of a sequence; the node that is left out has none. -/
def items? (v : View) : Option (List View) :=
  match v.content with
  | .sequence items => some (items.map v.withNode)
  | .scalar .plain _ "" => some []
  | _ => none

/-- The named fields of a mapping. All its keys are scalars and each of `names` occurs at most once;
other fields do not matter. The node that is left out has no fields. -/
def fields? (names : List String) (v : View) : Option (List (String × View)) :=
  match v.content with
  | .mapping pairs => do
    let fields ← pairs.mapM fun pair =>
      (v.withNode pair.1).text?.map fun name => (name, v.withNode pair.2)
    let named := fields.filter fun field => names.contains field.1
    if (named.map (·.1)).Nodup then return named else none
  | .scalar .plain _ "" => some []
  | _ => none

end View

end TrafficCheck.Yaml
