/-!
# File paths

A path is the text it was built as. Paths are printed as they stand, without being normalised;
two paths name the same place when their components agree.

## Main definitions

* `Path.join`: a path below another one, or the second path itself if it is absolute.
* `Path.components`: the parts that matter, where doubled separators, a separator at the end and
  inner dots do not.
* `Path.fileName?`, `Path.parent?`, `Path.extension?`: the parts of a path.
-/

namespace TrafficCheck

/-- A path as text. -/
structure Path where
  text : String
  deriving Repr

namespace Path

/-- The texts between the separators. -/
def pieces (p : Path) : List String := (p.text.toList.splitOn '/').map String.ofList

/-- Whether the path starts at the root. -/
def isAbsolute (p : Path) : Bool := p.text.toList.head? = some '/'

/-- A piece that names no place of its own. -/
def isVoid (piece : String) : Bool := piece = "" || piece = "."

/-- The components: the root, or the dot a relative path starts with, and the pieces that name a
place. -/
def components (p : Path) : List String :=
  let body := p.pieces.filter fun piece => !isVoid piece
  if p.isAbsolute then "/" :: body
  else if p.pieces.head? = some "." then "." :: body
  else body

instance : BEq Path := ⟨fun p q => p.components == q.components⟩

/-- The pieces without the void ones at the end; the first piece stays. -/
def withoutVoidEnd : List String → List String
  | [] => []
  | first :: rest => first :: (rest.reverse.dropWhile isVoid).reverse

/-- The path of some pieces, where a single empty piece is the root. -/
def ofPieces : List String → Path
  | [""] => ⟨"/"⟩
  | ps => ⟨"/".intercalate ps⟩

/-- The path one component up, if there is a component to leave. -/
def parent? (p : Path) : Option Path :=
  match withoutVoidEnd p.pieces with
  | [] => none
  | [first] => if first = "" then none else some ⟨""⟩
  | first :: rest => some (ofPieces (withoutVoidEnd (first :: rest.dropLast)))

/-- The last component if it is a name. -/
def fileName? (p : Path) : Option String :=
  match p.components.getLast? with
  | some name => if name = "/" || name = "." || name = ".." then none else some name
  | none => none

/-- The name of the place, or the whole path where it has none. -/
def baseName (p : Path) : String := p.fileName?.getD p.text

/-- What follows the last dot of the name, unless that dot stands first. -/
def extension? (p : Path) : Option String :=
  match p.fileName? with
  | none => none
  | some name =>
    let behind := name.toList.reverse.takeWhile (· != '.')
    match name.toList.reverse.dropWhile (· != '.') with
    | _ :: _ :: _ => some (String.ofList behind.reverse)
    | _ => none

/-- The path `q` seen from `p`: an absolute path stands for itself, and any other one follows `p`
with one separator between. -/
def join (p q : Path) : Path :=
  if q.isAbsolute then q
  else if p.text.isEmpty || p.text.toList.getLast? = some '/' then ⟨p.text ++ q.text⟩
  else ⟨p.text ++ "/" ++ q.text⟩

/-- The entry called `name` in the directory `p`. -/
def child (p : Path) (name : String) : Path := p.join ⟨name⟩

end Path

end TrafficCheck
