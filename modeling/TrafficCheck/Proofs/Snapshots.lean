import TrafficCheck.Binding
import TrafficCheck.Proofs.Tables

/-!
# Snapshots in a history

What a history shows of a port at a tick is either nothing or one snapshot of its counters. All
values that are read on a port come from its snapshots, and whether there is a value at a tick
depends on whether there is a snapshot at that tick alone, however far a window reaches back.

## Main definitions

* `History.snapshot?`: the counters that a history shows of a port at a tick.

## Main statements

* `History.ext_snapshot?`: a history is its length and its snapshots.
* `Variable.isSome_value?`: when a variable has a value on a port.
* `Variable.value?_congr`: the value of a variable on a port depends on that port alone.
-/

namespace TrafficCheck

namespace History

variable {h h' : History} {tick : Nat} {port : PhysicalPort} {counter : String}

/-- The counters that a history shows of a port at a tick. -/
def snapshot? (h : History) (tick : Nat) (port : PhysicalPort) : Option Counters :=
  h.samples[tick]?.bind fun sample => sample.get? port

theorem snapshot?_of_size_le (htick : h.size ≤ tick) (port : PhysicalPort) :
    h.snapshot? tick port = none := by
  have hnone : h.samples[tick]? = none := Array.getElem?_eq_none htick
  rw [snapshot?, hnone, Option.bind_none]

/-- Histories of one length that show the same snapshots are equal. -/
theorem ext_snapshot? (hsize : h.size = h'.size)
    (hsnapshot : ∀ tick, tick < h.size → ∀ port, h.snapshot? tick port = h'.snapshot? tick port) :
    h = h' := by
  obtain ⟨samples⟩ := h
  obtain ⟨samples'⟩ := h'
  rw [History.mk.injEq]
  refine Array.ext hsize ?_
  intro tick htick htick'
  refine Table.ext_get? fun port => ?_
  have hport := hsnapshot tick htick port
  simp only [snapshot?, Array.getElem?_eq_getElem htick, Array.getElem?_eq_getElem htick',
    Option.bind_some] at hport
  exact hport

/-! ## Values -/

theorem value?_eq_map_snapshot? (h : History) (tick : Nat) (port : PhysicalPort)
    (counter : String) : h.value? tick port counter =
      (h.snapshot? tick port).map fun counters => (counters.get? counter).getD 0 := by
  unfold value? snapshot?
  cases h.samples[tick]? <;> rfl

theorem isSome_value? (h : History) (tick : Nat) (port : PhysicalPort) (counter : String) :
    (h.value? tick port counter).isSome = (h.snapshot? tick port).isSome := by
  rw [value?_eq_map_snapshot?, Option.isSome_map]

/-- Where the earlier end of a window has no snapshot, its value counts as zero. -/
theorem isSome_windowed? (h : History) (tick : Nat) (port : PhysicalPort) (counter : String)
    (window : Nat) :
    (h.windowed? tick port counter window).isSome = (h.snapshot? tick port).isSome := by
  rw [windowed?, Option.isSome_map, isSome_value?]

theorem value?_congr (hsnapshot : h.snapshot? tick port = h'.snapshot? tick port)
    (counter : String) : h.value? tick port counter = h'.value? tick port counter := by
  rw [value?_eq_map_snapshot?, value?_eq_map_snapshot?, hsnapshot]

/-- The growth over a window is read from two snapshots of the same port. -/
theorem windowed?_congr (hsnapshot : ∀ tick, h.snapshot? tick port = h'.snapshot? tick port)
    (tick : Nat) (counter : String) (window : Nat) :
    h.windowed? tick port counter window = h'.windowed? tick port counter window := by
  rw [windowed?, windowed?, value?_congr (hsnapshot tick), value?_congr (hsnapshot (tick - window))]

end History

namespace Variable

variable {h h' : History} {port : PhysicalPort}

/-- A variable has a value on a port where the port has a snapshot. -/
theorem isSome_value? (v : Variable) (h : History) (tick : Nat) (port : PhysicalPort) :
    (v.value? h tick port).isSome = (h.snapshot? tick port).isSome := by
  unfold value?
  split
  · next m _ => exact h.isSome_windowed? tick port v.counter m.window
  · exact h.isSome_value? tick port v.counter

/-- The value of a variable on a port depends on the snapshots of that port alone. -/
theorem value?_congr (hsnapshot : ∀ tick, h.snapshot? tick port = h'.snapshot? tick port)
    (v : Variable) (tick : Nat) : v.value? h tick port = v.value? h' tick port := by
  unfold value?
  split
  · exact History.windowed?_congr hsnapshot tick v.counter _
  · exact History.value?_congr (hsnapshot tick) v.counter

end Variable

end TrafficCheck
