import TrafficCheck.Statistics

/-!
# Reports

The report of a run tells of every checked project, in order, and counts how they ended.

## Main definitions

* `ProjectReport`: what a check says of a project.
* `RunReport.add`: the report of a run with one more project.
* `RunReport.text`: a report as text.
* `OutputFormat.read?`: the format that a word names.
-/

namespace TrafficCheck

/-- How the check of a project ended. -/
inductive ProjectStatus where
  | passed
  | failed
  | aborted
  deriving DecidableEq, Repr

namespace ProjectStatus

/-- The word for a status. -/
def word : ProjectStatus → String
  | .passed => "passed"
  | .failed => "failed"
  | .aborted => "aborted"

/-- The status of a word. -/
def ofWord? (word : String) : Option ProjectStatus :=
  if word = "passed" then some .passed
  else if word = "failed" then some .failed
  else if word = "aborted" then some .aborted
  else none

@[simp] theorem ofWord?_word (s : ProjectStatus) : ofWord? s.word = some s := by cases s <;> decide

end ProjectStatus

/-- What a check says of a project. -/
structure ProjectReport where
  project : String
  resultsDir : Option String
  status : ProjectStatus
  files : List FileStatistics
  failures : List String
  loadFailures : List String
  error : Option String
  deriving DecidableEq, Repr

namespace ProjectReport

/-- The report of a project that could not be checked. -/
def aborted (project error : String) : ProjectReport :=
  ⟨project, none, .aborted, [], [], [], some error⟩

/-- The lines that tell of a project. -/
def lines (p : ProjectReport) : List String :=
  [p.project] ++
    p.resultsDir.toList.map (fun dir => s!"Results: {dir}") ++
    p.error.toList.map (fun error => s!"ERROR: {error}") ++
    p.loadFailures.map (fun failure => s!"LOAD FAILED: {failure}") ++
    p.files.flatMap FileStatistics.lines ++
    [s!"\"{p.project}\" {p.status.word}", ""]

end ProjectReport

/-- How many projects a run checked and how they ended. -/
structure RunSummary where
  total : Nat
  passed : Nat
  failed : Nat
  aborted : Nat
  deriving DecidableEq, Repr

namespace RunSummary

/-- No project yet. -/
def zero : RunSummary := ⟨0, 0, 0, 0⟩

/-- One more project, which ended with the given status. -/
def add (s : RunSummary) (status : ProjectStatus) : RunSummary :=
  match status with
  | .passed => { s with total := s.total + 1, passed := s.passed + 1 }
  | .failed => { s with total := s.total + 1, failed := s.failed + 1 }
  | .aborted => { s with total := s.total + 1, aborted := s.aborted + 1 }

/-- The counts on lines of their own. -/
def lines (s : RunSummary) : List String :=
  [s!"\tTotal attempted: {s.total}", s!"\tTotal passed:    {s.passed}",
   s!"\tTotal aborted:   {s.aborted}", s!"\tTotal failed:    {s.failed}"]

end RunSummary

/-- The report of a run. -/
structure RunReport where
  startTime : String
  endTime : String
  summary : RunSummary
  projects : List ProjectReport
  deriving DecidableEq, Repr

namespace RunReport

/-- The report of a run that has just started. -/
def start (time : String) : RunReport := ⟨time, "", .zero, []⟩

/-- The report with one more project at its end. -/
def add (r : RunReport) (p : ProjectReport) : RunReport :=
  { r with summary := r.summary.add p.status, projects := r.projects ++ [p] }

/-- The report of a run that is over. -/
def finish (r : RunReport) (time : String) : RunReport := { r with endTime := time }

/-- Whether no project failed and none was aborted. -/
def passed (r : RunReport) : Bool := r.summary.failed = 0 && r.summary.aborted = 0

/-- The report for people to read: each project, then the counts. -/
def plainText (r : RunReport) : String :=
  String.join <|
    (r.projects.flatMap ProjectReport.lines ++ r.summary.lines).map fun line => line ++ "\n"

end RunReport

/-- The format in which a report is written. -/
inductive OutputFormat where
  | text
  | json
  deriving DecidableEq, Repr

namespace OutputFormat

/-- The format that a word names, in any case. -/
def read? (word : String) : Option OutputFormat :=
  let lower := word.toLower
  if lower = "text" then some .text else if lower = "json" then some .json else none

/-- The wording of the refusal of a word that names no format. -/
def unknownMessage (word : String) : String := s!"Unknown output format: {word}"

end OutputFormat

end TrafficCheck
