import TrafficCheck.Inspection
import TrafficCheck.Project.Search
import TrafficCheck.Stamp
import TrafficCheck.Summary.Directory

/-!
# Results of projects

Every run of a project leaves a directory that is named for the moment the run started. The latest
one that holds summary files is checked.

## Main definitions

* `Project.latestResults`: the results to be checked.
* `Project.readLogs`: whether the logs of the ports are free of error records.
-/

namespace TrafficCheck.Project

/-- Whether a path leads to a directory with summary files. -/
def holdsSummaries (d : Disk) (p : Path) : Bool :=
  d.isDirectory p &&
    match Summary.files d p with
    | .ok files => !files.isEmpty
    | .error _ => false

/-- The later one of the results found so far and the directory `name`, if that one can be checked;
of equally late ones the first stays. -/
def later (d : Disk) (results : Path) (latest : Option (Stamp × Path)) (name : String) :
    Option (Stamp × Path) :=
  match Stamp.parse? name.toList with
  | none => latest
  | some stamp =>
    let p := results.child name
    if latest.all (fun found => stamp.isLater found.1) && holdsSummaries d p then some (stamp, p)
    else latest

/-- The latest results of a project that can be checked. -/
def latestResults (d : Disk) (c : Config) (project : Path) : Except ProjectError Path :=
  let results := project.child c.resultsDir
  if d.isDirectory results then
    match d.names results with
    | .error failure => .error (.unreadable results failure)
    | .ok names =>
      match names.foldl (later d results) none with
      | some (_, p) => .ok p
      | none => .error (.noResults project)
  else .error (.noResults project)

/-- The logs of ports in a directory, in ascending order of name. -/
def portLogs (d : Disk) (results : Path) : Except ProjectError (List Path) :=
  match d.names results with
  | .error failure => .error (.unreadable results failure)
  | .ok names =>
    .ok <| ((NameSet.ofNames names).keys.map results.child).filter fun p =>
      p.extension? = some "log" && d.isFile p

/-- Whether a line of a log starts with one of the priorities of errors. -/
def isErrorLine (line : List Char) : Bool :=
  "<3>".toList.isPrefixOf line || "<4>".toList.isPrefixOf line

/-- Whether the logs of ports are free of error records; each of those is recorded. -/
def readEach : List Path → Inspection ProjectError Bool
  | [] => pure true
  | log :: rest => do
    let text ← Inspection.read fun d => (d.readText log).mapError (.unreadable log)
    let errors := (Text.numberedLines text.toList).filter fun line => isErrorLine line.2
    Inspection.tell <| Logged.notes <| errors.map fun line =>
      ⟨.error, s!"{log.baseName}:{line.1}:{String.ofList line.2}"⟩
    let clean ← readEach rest
    return errors.isEmpty && clean

/-- Whether the logs of ports in a directory are free of error records. -/
def readLogs (results : Path) : Inspection ProjectError Bool := do
  readEach (← Inspection.read fun d => portLogs d results)

end TrafficCheck.Project
