/-!
# Statistics of assertion files

How many assertions of a file passed, failed or were ignored.
-/

namespace TrafficCheck

/-- How many assertions of a file passed, failed or were ignored. -/
structure FileStatistics where
  file : String
  passed : Nat
  failed : Nat
  ignored : Nat
  deriving DecidableEq, Repr

namespace FileStatistics

/-- The number of assertions of a file. -/
def total (s : FileStatistics) : Nat := s.passed + s.failed + s.ignored

/-- The statistics on lines of their own. -/
def lines (s : FileStatistics) : List String :=
  [s!"Statistics for {s.file}:", s!"\tTotal:   {s.total}", s!"\tPassed:  {s.passed}",
   s!"\tFailed:  {s.failed}", s!"\tIgnored: {s.ignored}"]

/-- The statistics on a single line. -/
def summary (s : FileStatistics) : String :=
  s!"Statistics for {s.file}: Total: {s.total}, Passed: {s.passed}, Failed: {s.failed}, " ++
    s!"Ignored: {s.ignored}"

end FileStatistics

end TrafficCheck
