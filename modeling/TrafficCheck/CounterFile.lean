import TrafficCheck.Disk
import TrafficCheck.Table
import TrafficCheck.Text.Blank
import TrafficCheck.Text.Line

/-!
# Counter files

A counter file lists the names of all counters, one on a line. Blank lines and lines that start with
a hash tell nothing.
-/

namespace TrafficCheck.CounterFile

/-- The names that a text lists. -/
def names (text : String) : NameSet :=
  let lines := (Text.lines text.toList).map fun line => Text.trimEnd (Text.trimStart line)
  NameSet.ofNames <|
    (lines.filter fun line => !line.isEmpty && line.head? != some '#').map String.ofList

/-- The names that a file lists. -/
def load (d : Disk) (file : Path) : Except Failure NameSet := (d.readText file).map names

end TrafficCheck.CounterFile
