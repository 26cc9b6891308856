import TrafficCheck.Port
import TrafficCheck.Rule
import TrafficCheck.Table

/-!
# Sample histories

A history holds the counters of every port at every tick of a run. The sample at index 0 is the
final one; the others follow in the order of time.

## Main definitions

* `History.assemble`: the history of the snapshots that each port left.
* `History.value?`, `History.windowed?`: a counter at a tick, and its growth over a window.
* `Catalog`: which counter names exist.
-/

namespace TrafficCheck

/-- The counters of a port at a tick. -/
abbrev Counters := Table String Float

/-- The counters of all ports at a tick. -/
abbrev Sample := Table PhysicalPort Counters

/-- The samples of a run, the final one first. -/
structure History where
  samples : Array Sample

/-- The snapshots that a port left, in the order of time. -/
structure Stream where
  port : PhysicalPort
  snapshots : Array Counters

namespace Stream

/-- The snapshot of a forward tick; a port that has none left shows no counters. -/
def atTick (s : Stream) (tick : Nat) : Counters := s.snapshots[tick - 1]?.getD .empty

/-- The last snapshot; a port without any shows no counters. -/
def final (s : Stream) : Counters := s.snapshots.back?.getD .empty

end Stream

namespace History

/-- The number of samples. -/
def size (h : History) : Nat := h.samples.size

/-- The number of snapshots of the longest stream. -/
def longest (streams : List Stream) : Nat :=
  streams.foldl (fun n s => max n s.snapshots.size) 0

/-- The history of some streams of different ports: every forward tick shows one snapshot of each
port, and the final sample shows the last one of each. -/
def assemble (streams : List Stream) : History where
  samples :=
    let sample (snapshot : Stream → Counters) : Sample :=
      Table.ofList (streams.map fun s => (s.port, snapshot s))
    ((List.range (longest streams + 1)).map fun tick =>
      if tick = 0 then sample Stream.final else sample (·.atTick tick)).toArray

/-- The value of a counter. A port without a sample at the tick has none; a counter that the sample
lacks is zero. -/
def value? (h : History) (tick : Nat) (port : PhysicalPort) (counter : String) : Option Float :=
  match h.samples[tick]? with
  | some sample => (sample.get? port).map fun counters => (counters.get? counter).getD 0
  | none => none

/-- The growth of a counter over the `window` ticks up to `tick`. Where the run is shorter than
that, the value is extrapolated to the length of the window. -/
def windowed? (h : History) (tick : Nat) (port : PhysicalPort) (counter : String) (window : Nat) :
    Option Float :=
  (h.value? tick port counter).map fun x =>
    if tick < window then x / (tick + 1).toFloat * window.toFloat
    else x - (h.value? (tick - window) port counter).getD 0

/-- The names of all counters in a history. -/
def counterNames (h : History) : NameSet :=
  (h.samples.toList.flatMap (·.values)).foldl (fun names counters => names.addAll counters.keys)
    .empty

end History

/-- Which counter names exist. -/
structure Catalog where
  knows : String → Bool

namespace Catalog

/-- The catalog of some names. -/
def ofNames (names : NameSet) : Catalog := ⟨names.contains⟩

/-- The catalog of the counters that occur in a history. -/
def ofHistory (h : History) : Catalog := .ofNames h.counterNames

end Catalog

end TrafficCheck
