import TrafficCheck.AssertionFiles
import TrafficCheck.CounterFile
import TrafficCheck.Project.Results
import TrafficCheck.Report
import TrafficCheck.Topology.File

/-!
# Checking a project

A project is checked on its latest results: its topology and the logs of its ports are read, its
assertion files are loaded, and the assertions are checked on the history that the summary files
hold.

## Main definitions

* `Project.locate`: a project with the results to be checked.
* `Project.check`: the report on a project.
-/

namespace TrafficCheck

/-- What ends the check of a project or a whole run. -/
inductive CheckError where
  | assertion (e : AssertionError)
  | topology (e : TopologyError)
  | sample (e : SampleError)
  | config (e : ConfigError)
  | project (e : ProjectError)
  | counterFile (failure : Failure)

/-- The wording of an error. -/
def CheckError.message : CheckError → String
  | .assertion e => e.message
  | .topology e => e.message
  | .sample e => e.message
  | .config e => e.message
  | .project e => e.message
  | .counterFile failure => s!"IO error: {failure.message}"

/-- A project with its topology file and the results to be checked. -/
structure Project where
  dir : Path
  topologyFile : Path
  resultsDir : Path

namespace Project

/-- The project in a directory with its latest results. -/
def locate (d : Disk) (c : Config) (dir : Path) : Attempt ProjectError Project := do
  let results ← Attempt.of (latestResults d c dir)
  Attempt.note .info s!"Using results directory {results.text}"
  return ⟨dir, dir.child c.topologyFile, results⟩

/-- The name of a project. -/
def name (p : Project) : String := p.dir.baseName

/-- The topology of a project, in which the ports with summary files took part. -/
def topology (p : Project) (d : Disk) : Attempt CheckError Topology := do
  let base ← (Topology.load d p.topologyFile).mapError .topology
  let files ← Attempt.of ((Summary.files d p.resultsDir).mapError .sample)
  let ports := files.map fun file => file.2.physical
  ExceptT.lift (Logged.notes (Topology.warnings base.mapping ports))
  return .ofRun base.mapping ports

/-- The catalog of counters: the configured file if it is there, else what the history shows. -/
def catalog (c : Config) (h : History) (d : Disk) : Except CheckError Catalog :=
  match c.countersFile with
  | some file =>
    if d.isFile file then ((CounterFile.load d file).map Catalog.ofNames).mapError .counterFile
    else .ok (.ofHistory h)
  | none => .ok (.ofHistory h)

/-- The report on a project whose assertions were checked. -/
def reportOn (p : Project) (s : AssertionSet) (cleanLogs : Bool) : ProjectReport where
  project := p.dir.text
  resultsDir := some p.resultsDir.text
  status := if s.passed && cleanLogs then .passed else .failed
  files := s.statistics
  failures :=
    s.failureMessages ++ if cleanLogs then [] else ["Port logs contain error records"]
  loadFailures := s.failures.map fun failure => failure.error.message
  error := none

/-- The assertions of a project after they were checked, and whether the logs of its ports are
clean. -/
def checkAssertions (c : Config) (p : Project) :
    Inspection CheckError (AssertionSet × Bool) := do
  Inspection.note .info s!"Checking project {p.name}"
  let topology ← Inspection.look p.topology
  let cleanLogs ← (readLogs p.resultsDir).mapError .project
  let files ← Inspection.look fun d => (AssertionFiles.find d p.dir c).mapError .assertion
  let loaded ← ExceptT.lift (AssertionSet.ofFiles files)
  let history ← (Summary.loadHistory p.resultsDir loaded.referencedCounters).mapError .sample
  let catalog ← Inspection.read (catalog c history)
  let (valid, _) ← Inspection.tell (loaded.validate catalog)
  let (checked, result) ← Inspection.tell (valid.check topology history)
  Inspection.of (result.mapError .assertion)
  return (checked, cleanLogs)

/-- The report on the project in a directory, or the error that ends its check. -/
def attempt (c : Config) (dir : Path) : Inspection CheckError ProjectReport := do
  let p ← Inspection.look fun d => (locate d c dir).mapError .project
  let (checked, cleanLogs) ← p.checkAssertions c
  Inspection.tell <| Logged.notes <| checked.statistics.map fun s => ⟨.info, s.summary⟩
  return p.reportOn checked cleanLogs

/-- The report on the project in a directory. An error aborts the check of this project alone. -/
def check (c : Config) (dir : Path) : Survey ProjectReport := do
  match ← (attempt c dir).run with
  | .ok report => return report
  | .error e =>
    Survey.tell (Logged.note .error e.message)
    return .aborted dir.text e.message

end Project

end TrafficCheck
