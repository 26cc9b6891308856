import TrafficCheck.Proofs.Snapshots

/-!
# Assembled histories

What a history holds of the streams of a run, said of its length and its snapshots. The streams of
different ports determine such a history, whatever their order, and the assembled one is that
history.

## Main definitions

* `Stream.shown`: the counters of a stream in the sample of a tick.
* `History.Gathers`: a history holds exactly some streams.

## Main statements

* `History.isSome_snapshot?_assemble`: which ports have a snapshot.
* `History.gathers_assemble`: the assembled history gathers its streams.
* `History.Gathers.unique`, `History.Gathers.of_perm`: it is the only one, in any order of them.
-/

namespace TrafficCheck

namespace Stream

/-- The counters of a stream in the sample of a tick. -/
def shown (s : Stream) (tick : Nat) : Counters := if tick = 0 then s.final else s.atTick tick

/-- The last snapshot of a stream is that of the tick at which it ends. -/
theorem atTick_size (s : Stream) : s.atTick s.snapshots.size = s.final := by
  rw [atTick, final, Array.back?_eq_getElem?]

theorem final_of_size_eq_zero {s : Stream} (hempty : s.snapshots.size = 0) : s.final = .empty := by
  rw [final, Array.eq_empty_of_size_eq_zero hempty]
  rfl

end Stream

namespace History

variable {streams streams' : List Stream} {s : Stream} {h h' : History} {tick n : Nat}
  {port : PhysicalPort}

/-- The sample of a tick, in which every stream has its part. -/
def sampleOf (streams : List Stream) (tick : Nat) : Sample :=
  Table.ofList (streams.map fun s => (s.port, s.shown tick))

theorem longest_le_iff : longest streams ≤ n ↔ ∀ s ∈ streams, s.snapshots.size ≤ n := by
  have hfold : ∀ k, streams.foldl (fun k s => max k s.snapshots.size) k ≤ n ↔
      k ≤ n ∧ ∀ s ∈ streams, s.snapshots.size ≤ n := by
    induction streams with
    | nil => simp
    | cons s rest ih =>
      intro k
      rw [List.foldl_cons, ih, List.forall_mem_cons, Nat.max_le, and_assoc]
  rw [longest, hfold]
  simp

theorem size_le_longest (hs : s ∈ streams) : s.snapshots.size ≤ longest streams :=
  longest_le_iff.1 (Nat.le_refl _) s hs

theorem longest_eq_of_perm (hperm : streams'.Perm streams) :
    longest streams' = longest streams := by
  refine Nat.le_antisymm ?_ ?_
  · exact longest_le_iff.2 fun s hs => size_le_longest (hperm.mem_iff.1 hs)
  · exact longest_le_iff.2 fun s hs => size_le_longest (hperm.mem_iff.2 hs)

/-- An assembled history is the list of its samples. -/
theorem assemble_eq (streams : List Stream) :
    assemble streams = ⟨((List.range (longest streams + 1)).map (sampleOf streams)).toArray⟩ := by
  rw [assemble, History.mk.injEq]
  refine congrArg List.toArray (List.map_congr_left fun tick _ => ?_)
  by_cases htick : tick = 0
  · simp [htick, sampleOf, Stream.shown]
  · simp [htick, sampleOf, Stream.shown]

@[simp] theorem size_assemble (streams : List Stream) :
    (assemble streams).size = longest streams + 1 := by
  simp [assemble_eq, size]

theorem snapshot?_assemble (htick : tick < (assemble streams).size) (port : PhysicalPort) :
    (assemble streams).snapshot? tick port = (sampleOf streams tick).get? port := by
  rw [size_assemble] at htick
  simp [snapshot?, assemble_eq, htick]

theorem get?_sampleOf (hports : (streams.map (·.port)).Nodup) (hs : s ∈ streams) (tick : Nat) :
    (sampleOf streams tick).get? s.port = some (s.shown tick) :=
  Table.get?_ofList_map hports (·.shown tick) hs

/-- At every tick of an assembled history exactly the ports of the streams have a snapshot. -/
theorem isSome_snapshot?_assemble (htick : tick < (assemble streams).size) :
    ((assemble streams).snapshot? tick port).isSome = true ↔ ∃ s ∈ streams, s.port = port := by
  rw [snapshot?_assemble htick]
  exact Table.contains_ofList_map

/-! ## Gathered streams -/

/-- A history gathers some streams if it has one sample more than the longest of them, every sample
shows exactly the ports of the streams, each forward tick shows one snapshot of every stream in
order and no counters where a stream has ended, and the final sample shows the last snapshot of
every stream. -/
structure Gathers (h : History) (streams : List Stream) : Prop where
  size_eq : h.size = longest streams + 1
  ports : ∀ tick, tick < h.size → ∀ port,
    (h.snapshot? tick port).isSome = true ↔ ∃ s ∈ streams, s.port = port
  forward : ∀ s ∈ streams, ∀ tick, 1 ≤ tick → tick < h.size →
    h.snapshot? tick s.port = some (s.snapshots[tick - 1]?.getD .empty)
  final : ∀ s ∈ streams, h.snapshot? 0 s.port = some (s.snapshots.back?.getD .empty)

theorem gathers_assemble (hports : (streams.map (·.port)).Nodup) :
    (assemble streams).Gathers streams where
  size_eq := size_assemble streams
  ports := fun tick htick port => isSome_snapshot?_assemble htick
  forward := by
    intro s hs tick hpos htick
    rw [snapshot?_assemble htick, get?_sampleOf hports hs, Stream.shown, if_neg (by omega)]
    rfl
  final := by
    intro s hs
    rw [snapshot?_assemble (by simp), get?_sampleOf hports hs, Stream.shown, if_pos rfl]
    rfl

namespace Gathers

/-- A sample of a history that gathers some streams is what the streams show at its tick. -/
theorem snapshot?_eq (hg : h.Gathers streams) (hs : s ∈ streams) (htick : tick < h.size) :
    h.snapshot? tick s.port = some (s.shown tick) := by
  by_cases hzero : tick = 0
  · rw [hzero, hg.final s hs, Stream.shown, if_pos rfl]
    rfl
  · rw [hg.forward s hs tick (by omega) htick, Stream.shown, if_neg hzero]
    rfl

/-- There is one history only that gathers some streams. -/
theorem unique (hg : h.Gathers streams) (hg' : h'.Gathers streams) : h = h' := by
  have hsize : h.size = h'.size := by rw [hg.size_eq, hg'.size_eq]
  refine ext_snapshot? hsize fun tick htick port => ?_
  by_cases hport : ∃ s ∈ streams, s.port = port
  · obtain ⟨s, hs, rfl⟩ := hport
    rw [hg.snapshot?_eq hs htick, hg'.snapshot?_eq hs (by omega)]
  · have hnone := mt (hg.ports tick htick port).1 hport
    have hnone' := mt (hg'.ports tick (by omega) port).1 hport
    rw [Option.not_isSome_iff_eq_none] at hnone hnone'
    rw [hnone, hnone']

/-- The order of the streams makes no difference. -/
theorem of_perm (hg : h.Gathers streams) (hperm : streams'.Perm streams) : h.Gathers streams' where
  size_eq := by rw [longest_eq_of_perm hperm, hg.size_eq]
  ports := by
    intro tick htick port
    rw [hg.ports tick htick port]
    simp only [hperm.mem_iff]
  forward := fun s hs => hg.forward s (hperm.mem_iff.1 hs)
  final := fun s hs => hg.final s (hperm.mem_iff.1 hs)

end Gathers

end History

end TrafficCheck
