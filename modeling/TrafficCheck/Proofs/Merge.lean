import Mathlib.Data.List.Nodup
import Mathlib.Data.List.Perm.Subperm
import TrafficCheck.Proofs.Assembly
import TrafficCheck.Proofs.Streams

/-!
# Merging streams in lock step

The streams of a run are merged round by round. In each round every stream has its turn and gives
its next snapshot to the sample of the round. A stream that has ended gives no counters, and the
first time it gives the snapshot of the round before to the final sample. The merge is over as soon
as the final sample has as many parts as there are streams.

## Main definitions

* `Merge.turn`, `Merge.round`, `Merge.advance`: the turn of a stream, one round, and the merge
  behind it.
* `Merge.Ends`: in which round a merge is over, and the history that it leaves.
* `Merge.after`: where the merge of some streams stands behind some rounds.

## Main statements

* `Merge.advance_after`, `Merge.ends_start`: what a round does, and how the merge of streams of
  different ports ends.
* `Merge.exists_ends_start_iff`: the merge of streams of which two have one port never ends.
* `History.merge_gathers_streams`: the merge leaves the assembled history, which gathers the
  streams.
-/

namespace TrafficCheck

/-- A merge under way: what is left of each stream, the forward samples so far in the order of time,
and the final sample as far as streams have ended. -/
structure Merge where
  left : List (PhysicalPort × List Counters)
  forward : List Sample
  final : Sample

namespace Merge

/-- The merge of some streams before its first round. -/
def start (streams : List Stream) : Merge :=
  ⟨streams.map fun s => (s.port, s.snapshots.toList), [], .empty⟩

/-- What the latest forward sample shows of a port. -/
def latest (forward : List Sample) (port : PhysicalPort) : Counters :=
  (forward.getLast?.bind fun sample => sample.get? port).getD .empty

/-- The turn of one stream, which adds to the sample of the round and to the final sample. A stream
with a snapshot left gives that one to the round. A stream without any gives no counters to the
round and, if it is not there yet, its latest snapshot to the final sample. -/
def turn (forward : List Sample) (samples : Sample × Sample) (s : PhysicalPort × List Counters) :
    Sample × Sample :=
  match s.2 with
  | snapshot :: _ => (samples.1.insert s.1 snapshot, samples.2)
  | [] =>
    (samples.1.insert s.1 .empty,
      if samples.2.contains s.1 then samples.2 else samples.2.insert s.1 (latest forward s.1))

/-- One round, in which every stream has its turn: the sample of the round, and the final sample
behind it. -/
def round (m : Merge) : Sample × Sample := m.left.foldl (turn m.forward) (.empty, m.final)

/-- The merge that goes on behind a round. -/
def advance (m : Merge) : Merge where
  left := m.left.map fun s => (s.1, s.2.tail)
  forward := m.forward ++ [m.round.1]
  final := m.round.2

/-- The merge is over behind a round if every stream has its part in the final sample; the sample of
that round is dropped. `Ends m n h` says that this happens in round `n` from `m` on and leaves the
history `h`. -/
inductive Ends : Merge → Nat → History → Prop where
  | now {m : Merge} (hall : m.round.2.size = m.left.length) :
      Ends m 1 ⟨(m.round.2 :: m.forward).toArray⟩
  | later {m : Merge} {n : Nat} {h : History} (hsome : m.round.2.size ≠ m.left.length)
      (hends : Ends m.advance n h) : Ends m (n + 1) h

/-- A merge ends at most once. -/
theorem Ends.unique {m : Merge} {n n' : Nat} {h h' : History} (hends : m.Ends n h)
    (hends' : m.Ends n' h') : n = n' ∧ h = h' := by
  induction hends generalizing n' with
  | now hall =>
    cases hends' with
    | now _ => exact ⟨rfl, rfl⟩
    | later hsome _ => exact absurd hall hsome
  | later hsome _ ih =>
    cases hends' with
    | now hall => exact absurd hall hsome
    | later _ hlater =>
      obtain ⟨hn, hh⟩ := ih hlater
      exact ⟨congrArg (· + 1) hn, hh⟩

/-! ## One round -/

variable {left : List (PhysicalPort × List Counters)} {forward : List Sample}
  {samples : Sample × Sample} {port : PhysicalPort}

theorem fst_turn (s : PhysicalPort × List Counters) :
    (turn forward samples s).1 = samples.1.insert s.1 (s.2.head?.getD .empty) := by
  unfold turn
  split <;> simp [*]

theorem fst_foldl_turn : (left.foldl (turn forward) samples).1 =
    left.foldl (fun t s => t.insert s.1 (s.2.head?.getD .empty)) samples.1 := by
  induction left generalizing samples with
  | nil => rfl
  | cons s rest ih => rw [List.foldl_cons, List.foldl_cons, ih, fst_turn]

theorem get?_snd_turn (s : PhysicalPort × List Counters) (port : PhysicalPort) :
    (turn forward samples s).2.get? port =
      if s.2 = [] ∧ port = s.1 then (samples.2.get? port).or (some (latest forward port))
      else samples.2.get? port := by
  unfold turn
  split
  · next hleft => simp [hleft]
  · next hleft =>
    by_cases hport : port = s.1
    · subst hport
      by_cases hknown : samples.2.contains s.1 = true
      · obtain ⟨c, hc⟩ := Option.isSome_iff_exists.1 hknown
        simp [hleft, hknown, hc]
      · have hnone : samples.2.get? s.1 = none := Option.not_isSome_iff_eq_none.1 hknown
        simp [hleft, hknown, hnone, Table.get?_insert]
    · split <;> simp [hport, Table.get?_insert]

/-- Whether a stream of a port has no snapshot left. -/
def hasEnded (left : List (PhysicalPort × List Counters)) (port : PhysicalPort) : Bool :=
  left.any fun s => s.1 = port && s.2.isEmpty

@[simp] theorem hasEnded_cons (s : PhysicalPort × List Counters) (port : PhysicalPort) :
    hasEnded (s :: left) port = (s.1 = port && s.2.isEmpty || hasEnded left port) := rfl

theorem hasEnded_of_notMem (hport : port ∉ left.map (·.1)) : hasEnded left port = false := by
  rw [hasEnded, List.any_eq_false]
  intro s hs hended
  simp only [Bool.and_eq_true, decide_eq_true_eq] at hended
  exact hport (List.mem_map.2 ⟨s, hs, hended.1⟩)

/-- Behind a round the final sample shows those streams as well that had no snapshot left. -/
theorem get?_snd_foldl_turn (hports : (left.map (·.1)).Nodup) (port : PhysicalPort) :
    (left.foldl (turn forward) samples).2.get? port =
      if hasEnded left port then (samples.2.get? port).or (some (latest forward port))
      else samples.2.get? port := by
  induction left generalizing samples with
  | nil => rfl
  | cons s rest ih =>
    rw [List.map_cons, List.nodup_cons] at hports
    rw [List.foldl_cons, ih hports.2, get?_snd_turn, hasEnded_cons]
    by_cases hport : port = s.1
    · subst hport
      simp [hasEnded_of_notMem hports.1]
    · simp [hport, Ne.symm hport]

/-! ## Many rounds -/

section Rounds

variable {streams : List Stream} {s : Stream} {n : Nat}

/-- The final sample behind `n` rounds, which shows the streams of less than `n` snapshots. -/
def finalOf (streams : List Stream) (n : Nat) : Sample :=
  Table.ofList ((streams.filter fun s => s.snapshots.size < n).map fun s => (s.port, s.final))

/-- The merge of some streams behind `n` rounds. -/
def after (streams : List Stream) (n : Nat) : Merge where
  left := streams.map fun s => (s.port, s.snapshots.toList.drop n)
  forward := (List.range n).map fun k => History.sampleOf streams (k + 1)
  final := finalOf streams n

theorem start_eq_after (streams : List Stream) : start streams = after streams 0 := by
  have hfinal : finalOf streams 0 = .empty := by
    rw [finalOf, List.filter_eq_nil_iff.2 fun s _ => by simp]
    rfl
  simp [start, after, hfinal]

theorem map_port_left_after (streams : List Stream) (n : Nat) :
    (after streams n).left.map (·.1) = streams.map (·.port) := by
  simp [after]

/-- A round gives the sample of the next tick. -/
theorem fst_round_after (streams : List Stream) (n : Nat) :
    (after streams n).round.1 = History.sampleOf streams (n + 1) := by
  rw [round, fst_foldl_turn, after, History.sampleOf, Table.ofList, List.foldl_map, List.foldl_map]
  simp [Stream.shown, Stream.atTick]

section Ports

variable (hports : (streams.map (·.port)).Nodup)
include hports

theorem nodup_ended (n : Nat) :
    ((streams.filter fun s => s.snapshots.size < n).map (·.port)).Nodup := by
  have hsub : (streams.filter fun s => s.snapshots.size < n).Sublist streams :=
    List.filter_sublist
  exact hports.sublist (hsub.map _)

theorem get?_finalOf (hs : s ∈ streams) (n : Nat) :
    (finalOf streams n).get? s.port = if s.snapshots.size < n then some s.final else none := by
  split
  · next hended =>
    exact Table.get?_ofList_map (nodup_ended hports n) Stream.final
      (List.mem_filter.2 ⟨hs, by simpa using hended⟩)
  · next hleft =>
    rw [← Option.not_isSome_iff_eq_none]
    intro hsome
    obtain ⟨s', hs', hport⟩ := Table.contains_ofList_map.1 hsome
    rw [List.mem_filter] at hs'
    obtain rfl : s' = s := List.inj_on_of_nodup_map hports hs'.1 hs hport
    exact hleft (by simpa using hs'.2)

theorem hasEnded_after (hs : s ∈ streams) (n : Nat) :
    hasEnded (after streams n).left s.port = decide (s.snapshots.size ≤ n) := by
  rw [Bool.eq_iff_iff, hasEnded, List.any_eq_true, decide_eq_true_iff, after]
  constructor
  · rintro ⟨_, hmem, hended⟩
    obtain ⟨s', hs', rfl⟩ := List.mem_map.1 hmem
    simp only [Bool.and_eq_true, decide_eq_true_eq] at hended
    obtain rfl : s' = s := List.inj_on_of_nodup_map hports hs' hs hended.1
    simpa using hended.2
  · intro hsize
    exact ⟨_, List.mem_map.2 ⟨s, hs, rfl⟩, by simpa using hsize⟩

theorem latest_after (hs : s ∈ streams) :
    latest (after streams s.snapshots.size).forward s.port = s.final := by
  rw [latest, after, List.getLast?_map, List.getLast?_range]
  by_cases hempty : s.snapshots.size = 0
  · simp [hempty, Stream.final_of_size_eq_zero hempty]
  · have htick : s.snapshots.size - 1 + 1 = s.snapshots.size := by omega
    simp [hempty, htick, History.get?_sampleOf hports hs, Stream.shown, Stream.atTick_size]

/-- A stream gets its part in the final sample in the round behind its last snapshot. -/
theorem snd_round_after (n : Nat) : (after streams n).round.2 = finalOf streams (n + 1) := by
  have hleft : ((after streams n).left.map (·.1)).Nodup := by
    rw [map_port_left_after]
    exact hports
  have hfinal : (after streams n).final = finalOf streams n := rfl
  refine Table.ext_get? fun port => ?_
  rw [round, get?_snd_foldl_turn hleft, hfinal]
  by_cases hport : ∃ s ∈ streams, s.port = port
  · obtain ⟨s, hs, rfl⟩ := hport
    rw [hasEnded_after hports hs, get?_finalOf hports hs, get?_finalOf hports hs]
    rcases Nat.lt_trichotomy s.snapshots.size n with hlt | rfl | hgt
    · have hsucc : s.snapshots.size < n + 1 := by omega
      simp [hlt, hsucc, Nat.le_of_lt hlt]
    · simp [latest_after hports hs]
    · have hsucc : ¬s.snapshots.size < n + 1 := by omega
      simp [hsucc, Nat.not_le_of_lt hgt, Nat.le_of_lt hgt]
  · have hended : hasEnded (after streams n).left port = false := by
      refine hasEnded_of_notMem ?_
      rw [map_port_left_after, List.mem_map]
      exact hport
    have hnone : ∀ k, (finalOf streams k).get? port = none := by
      intro k
      rw [← Option.not_isSome_iff_eq_none]
      intro hsome
      obtain ⟨s, hs, hsport⟩ := Table.contains_ofList_map.1 hsome
      exact hport ⟨s, (List.mem_filter.1 hs).1, hsport⟩
    simp [hended, hnone]

theorem advance_after (n : Nat) : (after streams n).advance = after streams (n + 1) := by
  rw [advance, fst_round_after streams n, snd_round_after hports n]
  simp [after, List.range_succ]

/-- The merge is over behind a round just if no stream had a snapshot left for it. -/
theorem size_round_after (n : Nat) :
    (after streams n).round.2.size = (after streams n).left.length ↔
      History.longest streams ≤ n := by
  have hkeys : (((streams.filter fun s => s.snapshots.size < n + 1).map fun s =>
      (s.port, s.final)).map (·.1)).Nodup := by
    rw [List.map_map]
    exact nodup_ended hports (n + 1)
  have hlength : (after streams n).left.length = streams.length := by simp [after]
  rw [snd_round_after hports n, finalOf, Table.size_ofList hkeys, List.length_map, hlength,
    List.length_filter_eq_length_iff, History.longest_le_iff]
  simp only [decide_eq_true_eq, Nat.lt_succ_iff]

/-- The samples of all rounds before the last one, with the final sample behind it, are the
assembled history. -/
theorem assemble_eq_of_after :
    History.assemble streams = ⟨((after streams (History.longest streams)).round.2 ::
      (after streams (History.longest streams)).forward).toArray⟩ := by
  have hall : finalOf streams (History.longest streams + 1) = History.sampleOf streams 0 := by
    rw [finalOf, History.sampleOf, List.filter_eq_self.2]
    · rfl
    · intro s hs
      exact decide_eq_true (Nat.lt_succ_of_le (History.size_le_longest hs))
  rw [snd_round_after hports, hall, History.assemble_eq, List.range_succ_eq_map, List.map_cons,
    List.map_map]
  rfl

theorem ends_after {k : Nat} (hk : n + k = History.longest streams) :
    (after streams n).Ends (k + 1) (History.assemble streams) := by
  induction k generalizing n with
  | zero =>
    obtain rfl : n = History.longest streams := hk
    rw [assemble_eq_of_after hports]
    exact .now ((size_round_after hports _).2 (Nat.le_refl _))
  | succ k ih =>
    refine .later ?_ ?_
    · intro hsize
      have hlongest := (size_round_after hports n).1 hsize
      omega
    · rw [advance_after hports n]
      exact ih (by omega)

/-- The merge of streams of different ports ends in the round behind the last snapshot of the
longest one, and leaves the assembled history. -/
theorem ends_start :
    (start streams).Ends (History.longest streams + 1) (History.assemble streams) := by
  rw [start_eq_after]
  exact ends_after hports (Nat.zero_add _)

end Ports

end Rounds

/-! ## Repeated ports -/

theorem contains_turn {s : PhysicalPort × List Counters}
    (hport : (turn forward samples s).2.contains port = true) :
    samples.2.contains port = true ∨ port = s.1 := by
  by_cases hs : port = s.1
  · exact .inr hs
  · rw [Table.contains, get?_snd_turn, if_neg fun hended => hs hended.2] at hport
    exact .inl hport

theorem contains_foldl_turn (hport : (left.foldl (turn forward) samples).2.contains port = true) :
    samples.2.contains port = true ∨ port ∈ left.map (·.1) := by
  induction left generalizing samples with
  | nil => exact .inl hport
  | cons s rest ih =>
    rcases ih hport with hturn | hrest
    · exact (contains_turn hturn).imp_right fun hs => by simp [hs]
    · exact .inr (by simp [hrest])

/-- A merge that ends has streams of different ports, if its final sample shows no other ports: each
stream needs a part of its own in that sample. -/
theorem Ends.nodup {m : Merge} {n : Nat} {h : History} (hends : m.Ends n h)
    (hfinal : ∀ port, m.final.contains port = true → port ∈ m.left.map (·.1)) :
    (m.left.map (·.1)).Nodup := by
  -- Ports of streams and ports of the final sample are kept from round to round.
  have hround : ∀ m : Merge, (∀ port, m.final.contains port = true → port ∈ m.left.map (·.1)) →
      ∀ port, m.round.2.contains port = true → port ∈ m.left.map (·.1) := by
    intro m hfinal port hport
    exact (contains_foldl_turn hport).elim (hfinal port) id
  induction hends with
  | @now m hall =>
    have hkeys : m.round.2.keys.Subperm (m.left.map (·.1)) :=
      List.subperm_of_subset (Table.keys_nodup _) fun port hport =>
        hround m hfinal port (Table.mem_keys_iff.1 hport)
    have hlength : (m.left.map (·.1)).length ≤ m.round.2.keys.length := by
      rw [List.length_map, Table.keys, List.length_map]
      exact Nat.le_of_eq hall.symm
    exact (hkeys.perm_of_length_le hlength).nodup_iff.1 (Table.keys_nodup _)
  | @later m _ _ _ _ ih =>
    have hports : m.advance.left.map (·.1) = m.left.map (·.1) := by simp [advance]
    rw [hports] at ih
    exact ih (hround m hfinal)

/-- The merge of some streams ends just if their ports are all different. -/
theorem exists_ends_start_iff {streams : List Stream} :
    (∃ n h, (start streams).Ends n h) ↔ (streams.map (·.port)).Nodup := by
  constructor
  · rintro ⟨n, h, hends⟩
    have hleft : (start streams).left.map (·.1) = streams.map (·.port) := by simp [start]
    rw [← hleft]
    exact hends.nodup fun port hport => absurd hport (by simp [start, Table.contains])
  · intro hports
    exact ⟨_, _, ends_start hports⟩

end Merge

namespace History

/-- Streams of different ports merge in lock step, in whatever order they are given: the merge ends
in the round behind the last snapshot of the longest stream, and the history that it leaves gathers
the streams. Loaded histories are made up of such streams. -/
theorem merge_gathers_streams {streams : List Stream} (hports : (streams.map (·.port)).Nodup) :
    (assemble streams).Gathers streams ∧
      (∀ n, longest streams ≤ n ↔ ∀ s ∈ streams, s.snapshots.size ≤ n) ∧
      (∀ streams' : List Stream, streams'.Perm streams → assemble streams' = assemble streams ∧
        ∀ n h, (Merge.start streams').Ends n h ↔
          n = longest streams + 1 ∧ h = assemble streams) ∧
      ∀ dir counters start h, ((Summary.loadHistory dir counters).run start).value = .ok h →
        ∃ loaded : List Stream, (loaded.map (·.port)).Nodup ∧ h = assemble loaded := by
  refine ⟨gathers_assemble hports, fun n => longest_le_iff, ?_, ?_⟩
  · intro streams' hperm
    have hports' : (streams'.map (·.port)).Nodup := (hperm.map _).nodup_iff.2 hports
    have hsame : assemble streams' = assemble streams :=
      (gathers_assemble hports').unique ((gathers_assemble hports).of_perm hperm)
    have hends := Merge.ends_start hports'
    rw [longest_eq_of_perm hperm, hsame] at hends
    refine ⟨hsame, fun n h => ⟨fun hends' => hends'.unique hends, ?_⟩⟩
    rintro ⟨rfl, rfl⟩
    exact hends
  · intro dir counters start h hload
    obtain ⟨-, loaded, -, -, hnodup, hassemble⟩ := Summary.exists_streams_of_loadHistory hload
    exact ⟨loaded, hnodup, hassemble⟩

/-- Of three streams the second one is empty and the third one ends early. -/
theorem merge_gathers_uneven_streams :
    let snapshot (x : Float) : Counters := Table.ofList [("x", x)]
    let a : Stream := ⟨⟨"10.0.0.1", 1⟩, #[snapshot 1, snapshot 2]⟩
    let b : Stream := ⟨⟨"10.0.0.1", 2⟩, #[]⟩
    let c : Stream := ⟨⟨"10.0.0.2", 1⟩, #[snapshot 7]⟩
    let h := assemble [a, b, c]
    (Merge.start [b, c, a]).Ends 3 h ∧ h.size = 3 ∧
      h.snapshot? 2 a.port = some (snapshot 2) ∧ h.snapshot? 2 c.port = some .empty ∧
      h.snapshot? 0 b.port = some .empty ∧ h.snapshot? 0 c.port = some (snapshot 7) := by
  intro snapshot a b c h
  have hports : ([a, b, c].map (·.port)).Nodup := by decide
  obtain ⟨hgathers, -, horder, -⟩ := merge_gathers_streams hports
  have hsize : h.size = 3 := hgathers.size_eq
  have htick : 2 < h.size := by rw [hsize]; decide
  have hperm : [b, c, a].Perm [a, b, c] := List.perm_append_singleton a [b, c]
  refine ⟨((horder _ hperm).2 _ _).2 ⟨rfl, rfl⟩, hsize, ?_, ?_, ?_, ?_⟩
  · exact hgathers.forward a (by simp) 2 (by decide) htick
  · exact hgathers.forward c (by simp) 2 (by decide) htick
  · exact hgathers.final b (by simp)
  · exact hgathers.final c (by simp)

end History

end TrafficCheck
