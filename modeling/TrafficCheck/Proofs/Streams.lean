import TrafficCheck.Check
import TrafficCheck.Proofs.Inspection
import TrafficCheck.Proofs.Verdict

/-!
# Streams of a project

The summary files of a results directory are read twice: for the ports that took part in a run, and
for the streams that make up its history. Both readings find the same ports, and a history is made
up only if these are all different.

## Main statements

* `Summary.exists_streams_of_loadHistory`: which streams make up a loaded history.
* `Project.exists_streams`: the topology and the history of a project come from the same streams.
-/

namespace TrafficCheck

variable {counters : NameSet} {dir : Path} {start : Scene} {h : History}

namespace Summary

variable {seen : List PhysicalPort} {entries : List (Path × SummaryName)} {loaded : List Stream}

/-- The streams of summary files are those of the ports in their names, all different and none of
them seen before. -/
theorem ports_of_streams
    (hloaded : ((streams counters seen entries).run start).value = .ok loaded) :
    loaded.map (·.port) = entries.map (·.2.physical) ∧ (loaded.map (·.port)).Nodup ∧
      ∀ port ∈ seen, port ∉ loaded.map (·.port) := by
  induction entries generalizing seen start loaded with
  | nil =>
    obtain rfl := Except.ok.inj hloaded
    simp
  | cons entry rest ih =>
    obtain ⟨file, name⟩ := entry
    rw [streams, Inspection.value_run_bind_eq_ok] at hloaded
    obtain ⟨-, -, hloaded⟩ := hloaded
    by_cases hseen : seen.contains name.physical = true
    · rw [if_pos hseen, Inspection.throw_bind] at hloaded
      exact nomatch hloaded
    · simp only [if_neg hseen, Inspection.value_run_bind_eq_ok] at hloaded
      obtain ⟨snapshots, -, later, hlater, hcons⟩ := hloaded
      obtain rfl := Except.ok.inj hcons
      obtain ⟨hports, hnodup, hfresh⟩ := ih hlater
      have hname := hfresh name.physical (by simp)
      refine ⟨by simp [hports], by simpa using ⟨by simpa using hname, hnodup⟩, ?_⟩
      intro port hport hmem
      rcases List.mem_cons.1 hmem with rfl | hmem
      · exact hseen (by simpa using hport)
      · exact hfresh port (by simp [hport]) hmem

/-- A history that was loaded is made up of streams of different ports, one for each summary
file. -/
theorem exists_streams_of_loadHistory
    (hload : ((loadHistory dir counters).run start).value = .ok h) :
    ∃ found loaded, files start.disk dir = .ok found ∧
      loaded.map (·.port) = found.map (·.2.physical) ∧ (loaded.map (·.port)).Nodup ∧
      h = .assemble loaded := by
  rw [loadHistory, Inspection.value_run_bind_eq_ok] at hload
  obtain ⟨found, hfound, hload⟩ := hload
  by_cases hnone : found.isEmpty = true
  · rw [if_pos hnone, Inspection.throw_bind] at hload
    exact nomatch hload
  · simp only [if_neg hnone, Inspection.value_run_bind_eq_ok] at hload
    obtain ⟨-, -, loaded, hloaded, hpure⟩ := hload
    obtain ⟨hports, hnodup, -⟩ := ports_of_streams hloaded
    exact ⟨found, loaded, hfound, hports, hnodup, (Except.ok.inj hpure).symm⟩

end Summary

namespace Project

variable {p : Project} {d : Disk} {t : Topology}

/-- In the topology of a project those ports took part that have summary files. -/
theorem exists_files_of_topology (ht : (p.topology d).outcome = .ok t) :
    ∃ m found, Summary.files d p.resultsDir = .ok found ∧
      t = .ofRun m (found.map (·.2.physical)) := by
  simp only [topology, Attempt.outcome_bind, Attempt.outcome_of, Outcome.bind_eq_ok,
    Outcome.mapError_eq_ok_iff, Attempt.outcome_pure, Except.ok.injEq] at ht
  obtain ⟨base, -, found, hfound, -, -, rfl⟩ := ht
  exact ⟨base.mapping, found, hfound, rfl⟩

/-- The topology and the history of a project on one disk come from the same streams. -/
theorem exists_streams (ht : (p.topology d).outcome = .ok t)
    (hh : ((Summary.loadHistory p.resultsDir counters).on d).outcome = .ok h) :
    ∃ m streams, (streams.map (·.port)).Nodup ∧ t = .ofRun m (streams.map (·.port)) ∧
      h = .assemble streams := by
  have hload : ((Summary.loadHistory p.resultsDir counters).run (.still d)).value = .ok h := hh
  obtain ⟨m, found, hfound, rfl⟩ := exists_files_of_topology ht
  obtain ⟨found', loaded, hfound', hports, hnodup, rfl⟩ :=
    Summary.exists_streams_of_loadHistory hload
  rw [Scene.disk_still, hfound] at hfound'
  obtain rfl := Except.ok.inj hfound'
  exact ⟨m, loaded, hnodup, by rw [hports], rfl⟩

end Project

end TrafficCheck
