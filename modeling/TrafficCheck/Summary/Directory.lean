import TrafficCheck.History
import TrafficCheck.Inspection
import TrafficCheck.Json.Reader
import TrafficCheck.Summary.Name
import TrafficCheck.Text.Line

/-!
# Summary files

A results directory holds one summary file per port, with one snapshot of its counters per line: a
JSON object of counter names and numbers.

## Main definitions

* `Summary.files`: the summary files of a directory, by name.
* `Summary.read`: the snapshots of a file.
* `Summary.loadHistory`: the history that the files of a directory make up.
-/

namespace TrafficCheck

/-- Why no history can be loaded. -/
inductive SampleError where
  | noSummaryFiles (dir : Path)
  | badLine (file : Path) (line : Nat)
  | duplicatePort (file : Path) (port : PhysicalPort)
  | unreadable (path : Path) (failure : Failure)

/-- The wording of an error. -/
def SampleError.message : SampleError → String
  | .noSummaryFiles dir => s!"Summary files not found in {dir.text}"
  | .badLine file line => s!"Bad summary line {line} in {file.text}: no object of counter values"
  | .duplicatePort file port =>
    s!"Summary file {file.text} appears more than once for {port.text}"
  | .unreadable path failure => s!"IO error for '{path.text}': {failure.message}"

namespace Summary

/-- The summary files of a directory, in ascending order of their names; hidden files are none. -/
def files (d : Disk) (dir : Path) : Except SampleError (List (Path × SummaryName)) :=
  match d.names dir with
  | .error failure => .error (.unreadable dir failure)
  | .ok names =>
    .ok ((NameSet.ofNames names).keys.filterMap fun name =>
      if name.toList.head? = some '.' then none
      else (SummaryName.parse? name.toList).map fun n => (dir.child name, n))

/-- The value of a counter in a snapshot. -/
def counterValue? (field : String × Json) : Option (String × Float) :=
  match field.2 with
  | .number n => n.toFloat?.map fun x => (field.1, x)
  | _ => none

/-- The snapshot a line writes; of a counter written twice the last value stands. -/
def snapshot? (line : List Char) : Option Counters :=
  match Json.parse? line with
  | some (.object fields) => (fields.mapM counterValue?).map Table.ofList
  | _ => none

/-- The counters that were asked for; asking for none asks for all. -/
def retain (counters : NameSet) (snapshot : Counters) : Counters :=
  if counters.size = 0 then snapshot else snapshot.restrict counters.contains

/-- The snapshots of a text, one for each line that is not blank. -/
def snapshots (file : Path) (counters : NameSet) (text : String) :
    Except SampleError (List Counters) :=
  let lines :=
    (Text.numberedLines text.toList).map fun l => (l.1, Text.trimEnd (Text.trimStart l.2))
  (lines.filter fun l => !l.2.isEmpty).mapM fun l =>
    match snapshot? l.2 with
    | some snapshot => .ok (retain counters snapshot)
    | none => .error (.badLine file l.1)

/-- The snapshots of a summary file. -/
def read (d : Disk) (file : Path) (counters : NameSet) : Except SampleError (List Counters) :=
  match d.readText file with
  | .ok text => snapshots file counters text
  | .error failure => .error (.unreadable file failure)

/-- The streams of some summary files, where no port may occur twice. -/
def streams (counters : NameSet) (seen : List PhysicalPort) :
    List (Path × SummaryName) → Inspection SampleError (List Stream)
  | [] => pure []
  | (file, name) :: rest => do
    Inspection.note .debug file.text
    if seen.contains name.physical then throw (.duplicatePort file name.physical)
    let snapshots ← Inspection.read fun d => read d file counters
    let streams ← streams counters (name.physical :: seen) rest
    return ⟨name.physical, snapshots.toArray⟩ :: streams

/-- The history that the summary files of a directory make up. -/
def loadHistory (dir : Path) (counters : NameSet) : Inspection SampleError History := do
  let found ← Inspection.read fun d => files d dir
  if found.isEmpty then throw (.noSummaryFiles dir)
  Inspection.note .info "Loading summary files..."
  return .assemble (← streams counters [] found)

end Summary

end TrafficCheck
