import TrafficCheck.Inspection

/-!
# Log files

A log is written line by line, one record after the other. Where it goes to a file, the disk that
holds the file changes with every record.

## Main definitions

* `LogStyle.text`: what some records add to a log.
* `LogFile.prepare`: makes the file that a log is to be written to.
* `LogStyle.scene`: a disk whose log file grows with the log.

## Main statements

* `text_append`: records may be written piece by piece, so that the file is the same whenever it is
  read.
-/

namespace TrafficCheck

/-- How a log is written. -/
structure LogStyle where
  /-- The time that the lines bear. -/
  time : String
  /-- Whether the least grave records are written, too. -/
  verbose : Bool

namespace LogStyle

/-- Whether a record is written at all. -/
def shows (style : LogStyle) (r : Record) : Bool := style.verbose || r.level != .debug

/-- The name of a level, as wide as the longest one. -/
def levelText (l : Level) : String :=
  l.name ++ String.ofList (List.replicate (5 - l.name.length) ' ')

/-- The line of a record. -/
def line (style : LogStyle) (r : Record) : String :=
  s!"[{style.time} {levelText r.level}] {r.message}\n"

/-- What some records add to a log. -/
def text (style : LogStyle) (records : List Record) : String :=
  String.join ((records.filter style.shows).map style.line)

@[simp] theorem text_nil (style : LogStyle) : style.text [] = "" := rfl

/-- Records may be written piece by piece. -/
@[simp] theorem text_append (style : LogStyle) (told rest : List Record) :
    style.text (told ++ rest) = style.text told ++ style.text rest := by
  simp [text, String.join_append]

/-- A disk whose log file grows with the log. -/
def scene (style : LogStyle) (file : Path) (d : Disk) : Scene :=
  ⟨d, fun told d => ((Disk.append file (style.text told)).run d).2⟩

end LogStyle

/-- Makes a file that a log can be written to, and the directory that holds it. -/
def LogFile.prepare (file : Path) : Disk.Edit Unit := do
  Disk.makeDirectory (file.parent?.getD ⟨""⟩)
  Disk.append file ""

end TrafficCheck
