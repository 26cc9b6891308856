import TrafficCheck.Path

/-!
# Disks

A disk is a tree of directories and files with a working directory. A directory lists its entries
in the order the disk enumerates them, which need not be sorted.

## Main definitions

* `Disk.entry?`: the entry at a path, walked piece by piece from the root or the working directory.
* `Disk.readText`, `Disk.names`: the text of a file and the names in a directory.
* `Disk.Edit`: a change of a disk. What was changed before it failed stays changed.
* `Disk.makeDirectory`, `Disk.append`: a directory that is made, and a text that is added to the end
  of a file.
-/

namespace TrafficCheck

/-- Why a disk does not give what was asked for. -/
inductive Failure where
  | notFound
  | notDirectory
  | isDirectory
  | notText
  | denied
  | tooLong
  | badName
  deriving DecidableEq, Repr

/-- The wording of a failure. -/
def Failure.message : Failure → String
  | .notFound => "No such file or directory (os error 2)"
  | .notDirectory => "Not a directory (os error 20)"
  | .isDirectory => "Is a directory (os error 21)"
  | .notText => "stream did not contain valid UTF-8"
  | .denied => "Permission denied (os error 13)"
  | .tooLong => "File name too long (os error 36)"
  | .badName => "file name contained an unexpected NUL byte"

/-- A file with its text, or the reason why it has none to give, or a directory with its entries. -/
inductive Entry where
  | file (content : Except Failure String)
  | directory (children : List (String × Entry))

namespace Entry

/-- An empty directory. -/
def empty : Entry := .directory []

instance : Inhabited Entry := ⟨empty⟩

/-- Whether the entry is a file. -/
def isFile : Entry → Bool
  | .file _ => true
  | .directory _ => false

/-- Whether the entry is a directory. -/
def isDirectory : Entry → Bool
  | .file _ => false
  | .directory _ => true

/-- The entry that a list of names leads to. -/
def follow : Entry → List String → Except Failure Entry
  | e, [] => .ok e
  | .file _, _ :: _ => .error .notDirectory
  | .directory children, name :: names =>
    match children.lookup name with
    | some child => child.follow names
    | none => .error .notFound

/-- The entries of a directory after `name` was set to `child`; a new name comes last. -/
def setChild (name : String) (child : Entry) : List (String × Entry) → List (String × Entry)
  | [] => [(name, child)]
  | (other, e) :: rest =>
    if other = name then (name, child) :: rest else (other, e) :: setChild name child rest

/-- The tree after `e` was put where the names lead to; missing directories are made, and nothing is
put below a file. -/
def graft (e : Entry) : Entry → List String → Except Failure Entry
  | _, [] => .ok e
  | .file _, _ :: _ => .error .notDirectory
  | .directory children, name :: names => do
    let child ← graft e ((children.lookup name).getD empty) names
    return .directory (setChild name child children)

end Entry

/-- A directory tree and the working directory, as the names that lead to it from the root. -/
structure Disk where
  root : Entry
  cwd : List String

namespace Disk

/-- The most bytes that the text of a path may have. -/
def longestPath : Nat := 4095

/-- The most bytes that the name of an entry may have. -/
def longestName : Nat := 255

/-- Whether a path can be followed at all: its text is neither empty nor too long and holds no
NUL. -/
def vet (p : Path) : Except Failure Unit :=
  if p.text.isEmpty then .error .notFound
  else if p.text.toList.contains '\x00' then .error .badName
  else if longestPath < p.text.utf8ByteSize then .error .tooLong
  else .ok ()

/-- The place a piece leads to from a place, where places are lists of names, innermost first. A
void piece stays, two dots go up, and both need a directory to stand in. -/
def walk (d : Disk) (place : List String) (piece : String) : Except Failure (List String) :=
  match d.root.follow place.reverse with
  | .error e => .error e
  | .ok (.file _) => .error .notDirectory
  | .ok (.directory _) =>
    if Path.isVoid piece then .ok place
    else if piece = ".." then .ok place.tail
    else if longestName < piece.utf8ByteSize then .error .tooLong
    else .ok (piece :: place)

/-- The place that the pieces of a path start from, innermost name first. -/
def start (d : Disk) (p : Path) : List String := if p.isAbsolute then [] else d.cwd.reverse

/-- The names that lead from the root to the place a path names. -/
def locate (d : Disk) (p : Path) : Except Failure (List String) := do
  vet p
  let place ← p.pieces.foldlM d.walk (d.start p)
  return place.reverse

/-- The entry at a path. -/
def entry? (d : Disk) (p : Path) : Except Failure Entry :=
  match d.locate p with
  | .ok names => d.root.follow names
  | .error e => .error e

/-- Whether a path leads to an entry. -/
def exists? (d : Disk) (p : Path) : Bool := (d.entry? p).toBool

/-- Whether a path leads to a file. -/
def isFile (d : Disk) (p : Path) : Bool :=
  match d.entry? p with
  | .ok e => e.isFile
  | .error _ => false

/-- Whether a path leads to a directory. -/
def isDirectory (d : Disk) (p : Path) : Bool :=
  match d.entry? p with
  | .ok e => e.isDirectory
  | .error _ => false

/-- The text of the file at a path. -/
def readText (d : Disk) (p : Path) : Except Failure String :=
  match d.entry? p with
  | .ok (.file content) => content
  | .ok (.directory _) => .error .isDirectory
  | .error e => .error e

/-- The names in the directory at a path, in the order of enumeration. -/
def names (d : Disk) (p : Path) : Except Failure (List String) :=
  match d.entry? p with
  | .ok (.directory children) => .ok (children.map (·.1))
  | .ok (.file _) => .error .notDirectory
  | .error e => .error e

/-- A change of a disk that may fail. What was changed before stays changed. -/
abbrev Edit (α : Type) := ExceptT Failure (StateM Disk) α

/-- Puts an entry where some names lead to. -/
def put (e : Entry) (names : List String) : Edit Unit := do
  let d ← get
  match e.graft d.root names with
  | .ok root => set { d with root := root }
  | .error failure => throw failure

/-- Makes a directory of one more piece of a path, seen from a directory, and gives its place. -/
def makePiece (place : List String) (piece : String) : Edit (List String) := do
  let d ← get
  if Path.isVoid piece then return place
  else if piece = ".." then return place.tail
  else if longestName < piece.utf8ByteSize then throw .tooLong
  else
    let names := (piece :: place).reverse
    match d.root.follow names with
    | .ok (.directory _) => return piece :: place
    | .ok (.file _) => throw .notDirectory
    | .error .notFound => do
      put .empty names
      return piece :: place
    | .error failure => throw failure

/-- Makes the directory at a path and all those on the way to it, from the outermost one on. The
empty path needs none. -/
def makeDirectory (p : Path) : Edit Unit := do
  if p.text.isEmpty then return
  let d ← get
  MonadExcept.ofExcept (vet p)
  let _ ← p.pieces.foldlM makePiece (d.start p)

/-- Adds a text to the end of the file at a path, which is made if its directory exists. -/
def append (p : Path) (text : String) : Edit Unit := do
  let d ← get
  let names ← MonadExcept.ofExcept (d.locate p)
  match d.root.follow names with
  | .ok (.directory _) => throw .isDirectory
  | .ok (.file content) => put (.file (content.map (· ++ text))) names
  | .error .notFound => put (.file (.ok text)) names
  | .error failure => throw failure

end Disk

end TrafficCheck
