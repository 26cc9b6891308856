import TrafficCheck.Json.Reader
import TrafficCheck.Report

/-!
# Reports in JSON

The JSON form of a report holds all of it, so that it can be read back.

## Main definitions

* `RunReport.toJson`, `RunReport.ofJson?`: a report as a value, and back.
* `RunReport.text`: a report in the format asked for.
-/

namespace TrafficCheck

namespace Json

/-- The fields of a record: those of an object, where each of `names` occurs at most once and other
fields do not matter, or the items of an array in the order of `names`. -/
def record? (names : List String) : Json → Option (List (String × Json))
  | .object fields =>
    let named := fields.filter fun field => names.contains field.1
    if (named.map (·.1)).Nodup then some named else none
  | .array items => if items.length ≤ names.length then some (names.zip items) else none
  | _ => none

/-- A text. -/
def string? : Json → Option String
  | .string s => some s
  | _ => none

/-- A text that may be absent. -/
def optional? : Json → Option (Option String)
  | .null => some none
  | .string s => some (some s)
  | _ => none

/-- A natural number of at most 64 bits. -/
def nat? : Json → Option Nat
  | .number n => n.toNat?
  | _ => none

/-- A list of values. -/
def list? {α : Type} (item? : Json → Option α) : Json → Option (List α)
  | .array items => items.mapM item?
  | _ => none

end Json

namespace FileStatistics

/-- The statistics as a value. -/
def toJson (s : FileStatistics) : Json :=
  .object [("file", .string s.file), ("passed", .nat s.passed), ("failed", .nat s.failed),
    ("ignored", .nat s.ignored)]

/-- The statistics that a value holds. -/
def ofJson? (j : Json) : Option FileStatistics := do
  let fields ← j.record? ["file", "passed", "failed", "ignored"]
  let file ← (← fields.lookup "file").string?
  let passed ← (← fields.lookup "passed").nat?
  let failed ← (← fields.lookup "failed").nat?
  let ignored ← (← fields.lookup "ignored").nat?
  return ⟨file, passed, failed, ignored⟩

end FileStatistics

/-- The status that a value names: its word, or an object that gives the word nothing. -/
def ProjectStatus.ofJson? : Json → Option ProjectStatus
  | .string word => ofWord? word
  | .object [(word, .null)] => ofWord? word
  | _ => none

namespace ProjectReport

/-- The names of the fields, in order. -/
def fieldNames : List String :=
  ["project", "results_dir", "status", "files", "failures", "load_failures", "error"]

/-- The report as a value. -/
def toJson (p : ProjectReport) : Json :=
  .object [("project", .string p.project), ("results_dir", .optional p.resultsDir),
    ("status", .string p.status.word), ("files", .array (p.files.map FileStatistics.toJson)),
    ("failures", .array (p.failures.map .string)),
    ("load_failures", .array (p.loadFailures.map .string)), ("error", .optional p.error)]

/-- The report that a value holds. Only the project and its status have to be there. -/
def ofJson? (j : Json) : Option ProjectReport := do
  let fields ← j.record? fieldNames
  let field {α : Type} (name : String) (absent : α) (read : Json → Option α) : Option α :=
    match fields.lookup name with
    | some value => read value
    | none => some absent
  let project ← (← fields.lookup "project").string?
  let resultsDir ← field "results_dir" none Json.optional?
  let status ← ProjectStatus.ofJson? (← fields.lookup "status")
  let files ← field "files" [] (Json.list? FileStatistics.ofJson?)
  let failures ← field "failures" [] (Json.list? Json.string?)
  let loadFailures ← field "load_failures" [] (Json.list? Json.string?)
  let error ← field "error" none Json.optional?
  return ⟨project, resultsDir, status, files, failures, loadFailures, error⟩

end ProjectReport

namespace RunSummary

/-- The counts as a value. -/
def toJson (s : RunSummary) : Json :=
  .object [("total", .nat s.total), ("passed", .nat s.passed), ("failed", .nat s.failed),
    ("aborted", .nat s.aborted)]

/-- The counts that a value holds. -/
def ofJson? (j : Json) : Option RunSummary := do
  let fields ← j.record? ["total", "passed", "failed", "aborted"]
  let total ← (← fields.lookup "total").nat?
  let passed ← (← fields.lookup "passed").nat?
  let failed ← (← fields.lookup "failed").nat?
  let aborted ← (← fields.lookup "aborted").nat?
  return ⟨total, passed, failed, aborted⟩

end RunSummary

namespace RunReport

/-- The report as a value. -/
def toJson (r : RunReport) : Json :=
  .object [("start_time", .string r.startTime), ("end_time", .string r.endTime),
    ("summary", r.summary.toJson), ("projects", .array (r.projects.map ProjectReport.toJson))]

/-- The report that a value holds. -/
def ofJson? (j : Json) : Option RunReport := do
  let fields ← j.record? ["start_time", "end_time", "summary", "projects"]
  let startTime ← (← fields.lookup "start_time").string?
  let endTime ← (← fields.lookup "end_time").string?
  let summary ← RunSummary.ofJson? (← fields.lookup "summary")
  let projects ← Json.list? ProjectReport.ofJson? (← fields.lookup "projects")
  return ⟨startTime, endTime, summary, projects⟩

/-- The report in a format. -/
def text (r : RunReport) : OutputFormat → String
  | .text => r.plainText
  | .json => r.toJson.text ++ "\n"

end RunReport

end TrafficCheck
