/-!
# Elapsed time

A number of seconds as hours, minutes and seconds.
-/

namespace TrafficCheck.Elapsed

/-- A number with at least two characters, filled up by a zero. -/
def twoPlaces (n : Int) : String :=
  let s := toString n
  if s.length < 2 then "0" ++ s else s

/-- Seconds as `hours:minutes:seconds`. All three parts are rounded towards zero and keep the
sign. -/
def clock (seconds : Int) : String :=
  let minutes := seconds.tdiv 60
  s!"{seconds.tdiv 3600}:{twoPlaces (minutes.tmod 60)}:{twoPlaces (seconds.tmod 60)}"

/-- The most seconds whose milliseconds fit into a signed 64 bit word. -/
def mostSeconds : Nat := 9223372036854775

/-- The clock of a 64 bit word read as a signed number, if its milliseconds fit such a word too. -/
def clockOfWord? (w : UInt64) : Option String :=
  let seconds := w.toInt64.toInt
  if seconds.natAbs ≤ mostSeconds then some (clock seconds) else none

example : clock 3725 = "1:02:05" := by decide
example : clockOfWord? 18446744073709551615 = some "0:00:-1" := by decide +kernel

end TrafficCheck.Elapsed
