import TrafficCheck.Config
import TrafficCheck.Log
import TrafficCheck.Table
import TrafficCheck.Text.Line

/-!
# Searching for projects

A project is a directory that holds a topology file. What lies below a project belongs to it and is
not searched.

## Main definitions

* `Project.search`: the projects at or below a directory.
* `Project.listed`: the paths of a test list.
-/

namespace TrafficCheck

/-- Why projects or their results cannot be found. -/
inductive ProjectError where
  | noProjects
  | noResults (project : Path)
  | unreadable (path : Path) (failure : Failure)

/-- The wording of an error. -/
def ProjectError.message : ProjectError → String
  | .noProjects => "No test projects found in arguments paths"
  | .noResults project => s!"Cannot find result directory in {project.text}"
  | .unreadable path failure => s!"IO error for '{path.text}': {failure.message}"

namespace Project

/-- Whether a path leads to a project. -/
def isProject (d : Disk) (c : Config) (p : Path) : Bool := d.isFile (p.child c.topologyFile)

/-- The directories in a directory, in ascending order of name. -/
def subdirectories (d : Disk) (p : Path) : Except ProjectError (List Path) :=
  match d.names p with
  | .ok names => .ok (((NameSet.ofNames names).keys.map p.child).filter d.isDirectory)
  | .error failure => .error (.unreadable p failure)

/-- The projects at a path and down to the given number of levels below it. -/
def dig (d : Disk) (c : Config) : Nat → Path → Except ProjectError (List Path)
  | 0, p => .ok (if isProject d c p then [p] else [])
  | depth + 1, p =>
    if isProject d c p then .ok [p]
    else if d.isDirectory p then do
      let found ← (← subdirectories d p).mapM (dig d c depth)
      return found.flatten
    else .ok []

/-- The most levels that are searched. -/
def deepestLevel : Nat := 256

/-- The projects at or below a path, down to the given number of levels or the deepest one. -/
def search (d : Disk) (c : Config) (depth : Nat) (p : Path) : Except ProjectError (List Path) :=
  dig d c (min depth deepestLevel) p

/-- The paths that the lines of a text name, possibly in quotes. Lines that are empty or start with
a hash or a space name none. -/
def namedPaths (text : String) : List Path :=
  let lines := (Text.lines text.toList).filter fun line =>
    !line.isEmpty && line.head? != some '#' && line.head? != some ' '
  lines.map fun line => ⟨String.ofList (Text.trimOf '"' (Text.trimEndOf '\r' line))⟩

/-- The paths that a test list names, with a warning for each one that leads nowhere. -/
def listed (d : Disk) (list : Path) : Attempt ProjectError (List Path) :=
  match d.readText list with
  | .error failure => throw (.unreadable list failure)
  | .ok text => ExceptT.lift do
    let paths := namedPaths text
    Logged.notes <| (paths.filter fun p => !d.exists? p).map fun p =>
      ⟨.warn, s!"Test list entry {p.text} does not exist"⟩
    return paths.filter d.exists?

end Project

end TrafficCheck
