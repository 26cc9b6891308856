import TrafficCheck.Check

/-!
# Runs

A run checks all projects that it finds at or below the given directories.

## Main definitions

* `Run.projects`: the projects of a run.
* `Run.check`: the report of a run.
-/

namespace TrafficCheck

/-- What a run is asked to check. -/
structure Run where
  /-- The directories that are searched for projects. -/
  folders : List Path
  /-- A file that names more of them. -/
  testList : Option Path
  /-- How many levels below them are searched, if the configuration is not to decide. -/
  depth : Option Nat

namespace Run

/-- The directories that a run searches. -/
def roots (d : Disk) (r : Run) : Attempt ProjectError (List Path) :=
  match r.testList with
  | none => pure r.folders
  | some list => do return r.folders ++ (← Project.listed d list)

/-- The paths of a list without those that name a place named before. -/
def withoutRepeats (paths : List Path) : List Path :=
  paths.foldl (fun kept p => if kept.contains p then kept else kept ++ [p]) []

/-- The projects of a run, in the order in which they are found and each once. -/
def projects (d : Disk) (c : Config) (r : Run) : Attempt ProjectError (List Path) := do
  let roots ← r.roots d
  let found ← Attempt.of (roots.mapM (Project.search d c (r.depth.getD c.maxDepth)))
  let projects := withoutRepeats found.flatten
  if projects.isEmpty then throw .noProjects
  Attempt.note .debug "The following folders have been added to execution list:"
  ExceptT.lift (Logged.notes (projects.map fun p => ⟨.debug, p.text⟩))
  return projects

/-- The report of a run with one more project, which is checked. -/
def checkNext (c : Config) (report : RunReport) (dir : Path) : Survey RunReport := do
  Survey.tell (Logged.note .info s!"Checking {dir.text}")
  let p ← Project.check c dir
  Survey.tell (Logged.note .info s!"\"{dir.text}\" {p.status.word}")
  return report.add p

/-- The report of a run on some projects, checked in order. -/
def checkAll (c : Config) (startTime : String) (projects : List Path) : Survey RunReport := do
  Survey.tell (Logged.note .info s!"Number of tests to check: {projects.length}")
  let report ← projects.foldlM (checkNext c) (.start startTime)
  Survey.tell (Logged.notes (report.summary.lines.map fun line => ⟨.info, line⟩))
  return report

/-- The report of a run that starts at the given time. It has no end time yet. -/
def check (c : Config) (startTime : String) (r : Run) : Inspection CheckError RunReport := do
  let projects ← Inspection.look fun d => (r.projects d c).mapError .project
  ExceptT.lift (checkAll c startTime projects)

end Run

end TrafficCheck
