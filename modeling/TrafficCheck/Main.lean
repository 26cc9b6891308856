import Std.Time.Format
import TrafficCheck.CommandLine

/-!
# The program

The outer layer of the command: it reads the environment and the files that the command is about,
performs the command on them, and writes out what that gives.
-/

namespace TrafficCheck.Main

/-- The deepest level of directories that is read. -/
def deepestLevel : Nat := 300

/-- The content of a file. -/
def readContent (place : String) : IO (Except Failure String) := do
  try
    let bytes ← IO.FS.readBinFile place
    return (String.fromUTF8? bytes).elim (.error .notText) .ok
  catch _ => return .error .denied

/-- The entry at a place, down to the given number of levels, or nothing if there is none. -/
def readEntry : Nat → String → IO (Option Entry)
  | 0, _ => return none
  | levels + 1, place => do
    try
      let real ← IO.FS.realPath place
      if ← real.isDir then
        let children ← (← real.readDir).toList.filterMapM fun child => do
          let entry ← readEntry levels (place ++ "/" ++ child.fileName)
          return entry.map fun entry => (child.fileName, entry)
        return some (.directory children)
      else return some (.file (← readContent place))
    catch _ => return none

/-- The names that lead from the root to a place, seen from a directory. -/
def namesOf (dir : List String) (p : Path) : List String :=
  let start := if p.isAbsolute then [] else dir.reverse
  (p.pieces.foldl (fun names piece =>
    if Path.isVoid piece then names else if piece = ".." then names.tail else piece :: names)
    start).reverse

/-- The disk with what is really at a path; directories on the way to it are known as such. -/
def load (d : Disk) (p : Path) : IO Disk := do
  let names := namesOf d.cwd p
  match ← readEntry deepestLevel ("/" ++ "/".intercalate names) with
  | some entry =>
    return (entry.graft d.root names).toOption.elim d fun root => { d with root := root }
  | none => return d

/-- The disk with what is really at some paths. -/
def loadAll (d : Disk) (paths : List Path) : IO Disk := paths.foldlM load d

/-- The directories that a list of tests names. -/
def listedPaths (d : Disk) (list : Option Path) : List Path :=
  match list.map d.readText with
  | some (.ok text) => Project.namedPaths text
  | _ => []

/-- The disk with all that a check reads. -/
def loadFor (d : Disk) (env : Environment) (o : CommandLine.Options) : IO Disk := do
  let home := env.home?.toList
  let d ← loadAll d (home.map (·.child Config.fileName) ++ o.config.toList ++ o.testList.toList)
  let configured := match Config.load d env o.config with
    | .ok c => [c.defaultAssertions, c.integrityAssertions, c.countersFile, c.logFile].filterMap id
    | .error _ => []
  loadAll d (configured ++ o.logFile.toList ++ o.folders ++ listedPaths d o.testList)

/-- Writes the log of a command to its file. Where a command has complained that it cannot, the
directories on the way to the file are still made. -/
def writeLog (o : CommandLine.Outcome) : IO Unit := do
  if let some file := o.logFile then
    try
      if let some dir := file.parent? then
        if !dir.text.isEmpty then IO.FS.createDirAll dir.text
      let handle ← IO.FS.Handle.mk file.text .append
      handle.putStr o.logText
    catch e => if o.complaint.isEmpty then throw e

/-- The present moment in two wordings. -/
def now : IO CommandLine.Times := do
  let moment := Std.Time.DateTime.ofTimestamp (← Std.Time.Timestamp.now) .UTC
  return ⟨moment.format "uuuu-MM-dd'T'HH:mm:ss.SSSSSSSSSxxx",
    moment.format "uuuu-MM-dd'T'HH:mm:ss'Z'"⟩

end TrafficCheck.Main

open TrafficCheck in
/-- Performs the command that the arguments write. -/
def main (words : List String) : IO UInt32 := do
  let times ← Main.now
  let env : Environment := ⟨← IO.getEnv "TAC_HOME", ← IO.getEnv "HOME"⟩
  let here ← IO.FS.realPath "."
  let bare : Disk := ⟨.empty, Main.namesOf [] ⟨here.toString⟩⟩
  let standing := match Entry.empty.graft bare.root bare.cwd with
    | .ok root => { bare with root := root }
    | .error _ => bare
  let d ← match CommandLine.Request.read words with
    | .ok (.check o) => Main.loadFor standing env o
    | _ => pure standing
  let outcome := CommandLine.perform d env times words
  IO.eprint (outcome.complaint ++ outcome.logText)
  Main.writeLog outcome
  IO.print (outcome.written (← Main.now).start)
  return UInt32.ofNat outcome.exitCode
