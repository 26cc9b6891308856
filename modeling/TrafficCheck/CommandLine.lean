import TrafficCheck.CommandLine.Options
import TrafficCheck.LogFile
import TrafficCheck.Report.Json
import TrafficCheck.Run

/-!
# The command line

A command checks the projects in its folders and writes a report. It succeeds when all of them
passed. What it tells beside the report goes to the log, and also into a file where one is named.
That file is written while the check goes on, so a check that reads it finds the lines told so far.

## Main definitions

* `CommandLine.perform`: the outcome of a command.
-/

namespace TrafficCheck.CommandLine

/-- The outcome of a command. -/
structure Outcome where
  /-- Zero for success. -/
  exitCode : Nat
  /-- What is written out, except a report. -/
  output : String
  /-- The report to be written out, which has no end time yet. -/
  report : Option (RunReport × OutputFormat)
  /-- The error that came before there was a log. -/
  complaint : String
  /-- The records of the log. -/
  log : List Record
  /-- The log as text. -/
  logText : String
  /-- The file that the log goes to, too, or cannot go to. -/
  logFile : Option Path
  /-- The disk afterwards. -/
  disk : Disk

/-- The exit code of a command that fails. -/
def failureCode : Nat := 2

namespace Outcome

/-- A command that only writes a text. -/
def telling (d : Disk) (text : String) : Outcome := ⟨0, text, none, "", [], "", none, d⟩

/-- A command that ends before there is a log. -/
def refusing (d : Disk) (message : String) : Outcome :=
  ⟨failureCode, "", none, message ++ "\n", [], "", none, d⟩

/-- What a command that ended at the given time writes out. -/
def written (o : Outcome) (endTime : String) : String :=
  match o.report with
  | some (report, format) => o.output ++ (report.finish endTime).text format
  | none => o.output

end Outcome

/-- The times that a command shows: the one at which the report starts and the one that the lines of
the log bear. -/
structure Times where
  start : String
  line : String

/-- The run that options ask for. -/
def Options.run (o : Options) : Run := ⟨o.folders, o.testList, o.depth⟩

/-- The report that options ask for, in its format, or the message of an error. -/
def report (c : Config) (startTime : String) (o : Options) :
    Inspection String (RunReport × OutputFormat) := do
  let word := o.output.getD "text"
  match OutputFormat.read? word with
  | none => throw (OutputFormat.unknownMessage word)
  | some format => do
    let report ← (o.run.check c startTime).mapError (·.message)
    return (report, format)

/-- The report that options ask for, if there is one. An error is told. -/
def tellingReport (c : Config) (startTime : String) (o : Options) :
    Survey (Option (RunReport × OutputFormat)) := do
  match ← (report c startTime o).run with
  | .ok result => return some result
  | .error message =>
    Survey.tell (Logged.note .error message)
    return none

/-- Whether there is a report and all projects in it passed. -/
def hasPassed : Option (RunReport × OutputFormat) → Bool
  | some (report, _) => report.passed
  | none => false

/-- The outcome of a check on a disk, whose log is written in a style and may go to a file. -/
def check (d : Disk) (style : LogStyle) (file : Option Path) (c : Config) (startTime : String)
    (o : Options) : Outcome :=
  let s := file.elim (.still d) fun file => style.scene file d
  let result := tellingReport c startTime o s
  { exitCode := if hasPassed result.value then 0 else failureCode
    output := ""
    report := result.value
    complaint := ""
    log := result.log.filter style.shows
    logText := style.text result.log
    logFile := file
    disk := (s.after result.log).disk }

/-- The outcome of a check in an environment. -/
def configureAndCheck (d : Disk) (env : Environment) (times : Times) (o : Options) : Outcome :=
  match Config.load d env o.config with
  | .error e => .refusing d e.message
  | .ok c =>
    let style : LogStyle := ⟨times.line, o.verbose⟩
    match o.logFile.or c.logFile with
    | none => check d style none c times.start o
    | some file =>
      match (LogFile.prepare file).run d with
      | (.ok (), d) => check d style (some file) c times.start o
      | (.error failure, d) =>
        { Outcome.refusing d s!"Cannot open log file: {failure.message}" with logFile := some file }

/-- The outcome of a command. -/
def perform (d : Disk) (env : Environment) (times : Times) (words : List String) : Outcome :=
  match Request.read words with
  | .error e => .refusing d s!"error: {e.message}"
  | .ok .help => .telling d helpText
  | .ok .version => .telling d versionText
  | .ok (.check o) => configureAndCheck d env times o

end TrafficCheck.CommandLine
