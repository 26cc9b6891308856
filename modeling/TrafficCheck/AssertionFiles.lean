import TrafficCheck.AssertionSet
import TrafficCheck.Config
import TrafficCheck.Inspection

/-!
# Assertion files of a project

A project is checked by its own assertion files, or by the default file where it has none. The
integrity file, if it is there, comes before them.

## Main definitions

* `AssertionFiles.find`: the files for a project.
* `AssertionSet.ofFiles`: the assertions of some files.
-/

namespace TrafficCheck

namespace AssertionFiles

/-- What the names of assertion files end in, behind a dot. -/
def extension : String := "assertions"

/-- The assertion files in a directory, in ascending order of name; hidden ones do not count. -/
def own (d : Disk) (dir : Path) : Except AssertionError (List Path) :=
  match d.names dir with
  | .error failure => .error (.unreadable dir failure)
  | .ok names =>
    let visible := (NameSet.ofNames names).keys.filter fun name => name.toList.head? != some '.'
    .ok <| (visible.map dir.child).filter fun p => p.extension? = some extension && d.isFile p

/-- The configured file, if it is there. -/
def present (d : Disk) (file : Option Path) : List Path := file.toList.filter d.isFile

/-- The places where assertion files are looked for. -/
def searched (dir : Path) (c : Config) : List Path :=
  dir.child ("*." ++ extension) :: (c.defaultAssertions.toList ++ c.integrityAssertions.toList)

/-- The files for the project in a directory. -/
def find (d : Disk) (dir : Path) (c : Config) : Attempt AssertionError (List Path) := do
  let own ← Attempt.of (own d dir)
  let chosen := if own.isEmpty then present d c.defaultAssertions else own
  let files := present d c.integrityAssertions ++ chosen
  if files.isEmpty then throw (.noAssertionFiles (searched dir c))
  let listed := ", ".intercalate (files.map fun p => s!"\"{p.text}\"")
  Attempt.note .debug s!"Assertion files: [{listed}]"
  return files

end AssertionFiles

namespace AssertionSet

/-- The set after a file of a disk was added to it under its name. -/
def loadFile (s : AssertionSet) (file : Path) (d : Disk) : Logged AssertionSet :=
  match d.readText file with
  | .ok text => s.load file.baseName text
  | .error failure => s.loadFailed file.baseName (.unreadable file failure)

/-- The assertions of some files, loaded in order. -/
def ofFiles (files : List Path) : Survey AssertionSet :=
  files.foldlM (fun s file => Survey.look (s.loadFile file)) empty

end AssertionSet

end TrafficCheck
