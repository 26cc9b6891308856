import Mathlib.Data.List.Sort
import TrafficCheck.Proofs.Mapping
import TrafficCheck.Proofs.Tables
import TrafficCheck.Topology

/-!
# Ports of a run

Which ports took part in a run is named in any order and any number of times. The topology of the
run lists them in one way only: first those that play a role, in the order of the mapping, then the
others in ascending order.

## Main definitions

* `PortMapping.Arranges`: a list has the ports that took part, in the order of a topology.

## Main statements

* `PortMapping.Arranges.unique`: the ports that took part have one such list.
* `Topology.arranges_ofRun`: the topology of a run has it.
* `Topology.run_ports_canonical`: what this means for runs that name the same ports.
-/

namespace TrafficCheck

/-- A part of a list without repetition is known by its members. -/
theorem eq_filter_of_sublist {α : Type} {l whole : List α} {p : α → Bool} (hsub : l.Sublist whole)
    (hnodup : whole.Nodup) (hmem : ∀ a ∈ whole, a ∈ l ↔ p a = true) : l = whole.filter p := by
  have hself : l.filter p = l :=
    List.filter_eq_self.2 fun a ha => (hmem a (hsub.subset ha)).1 ha
  have hpart : l.Sublist (whole.filter p) := hself ▸ hsub.filter p
  have hperm : l.Perm (whole.filter p) := by
    refine (List.perm_ext_iff_of_nodup (hnodup.sublist hsub) (hnodup.filter p)).2 fun a => ?_
    rw [List.mem_filter]
    constructor
    · exact fun ha => ⟨hsub.subset ha, (hmem a (hsub.subset ha)).1 ha⟩
    · exact fun ha => (hmem a ha.1).2 ha.2
  exact hpart.eq_of_length hperm.length_eq

namespace PortMapping

variable {m : PortMapping} {taken taken' listed listed' : List PhysicalPort} {port : PhysicalPort}

theorem mem_physicalPorts_iff : port ∈ m.physicalPorts ↔ (m.logicalFor? port).isSome = true := by
  simp [physicalPorts, logicalFor?]

/-- A list has the ports that took part in a run, each of them once: first those that play a role,
in the order in which they were mapped, then the others in ascending order. -/
structure Arranges (m : PortMapping) (taken listed : List PhysicalPort) : Prop where
  nodup : listed.Nodup
  mem_iff : ∀ port, port ∈ listed ↔ port ∈ taken
  parts : ∃ mapped others, listed = mapped ++ others ∧ mapped.Sublist m.physicalPorts ∧
    others.Pairwise (· < ·) ∧ ∀ port ∈ others, port ∉ m.physicalPorts

namespace Arranges

/-- The parts of a list that arranges some ports: the mapped ones of them, and the others. -/
theorem exists_others (h : m.Arranges taken listed) :
    ∃ others, listed = m.physicalPorts.filter (fun port => port ∈ taken) ++ others ∧
      others.Pairwise (· < ·) ∧ ∀ port, port ∈ others ↔ port ∈ taken ∧ port ∉ m.physicalPorts := by
  obtain ⟨mapped, others, rfl, hmapped, hothers, hunmapped⟩ := h.parts
  refine ⟨others, ?_, hothers, ?_⟩
  · rw [← eq_filter_of_sublist hmapped m.physical_nodup]
    intro port hport
    rw [decide_eq_true_eq, ← h.mem_iff, List.mem_append]
    exact ⟨.inl, fun hmem => hmem.resolve_right fun hother => hunmapped port hother hport⟩
  · intro port
    rw [← h.mem_iff, List.mem_append]
    constructor
    · exact fun hother => ⟨.inr hother, hunmapped port hother⟩
    · exact fun hmem => hmem.1.resolve_left fun hin => hmem.2 (hmapped.subset hin)

/-- The same ports are arranged in one way, however often and in whatever order they are named. -/
theorem unique (h : m.Arranges taken listed) (h' : m.Arranges taken' listed')
    (hsame : ∀ port, port ∈ taken ↔ port ∈ taken') : listed = listed' := by
  obtain ⟨others, rfl, hsorted, hmem⟩ := h.exists_others
  obtain ⟨others', rfl, hsorted', hmem'⟩ := h'.exists_others
  have hothers : others = others' :=
    hsorted.eq_of_mem_iff hsorted' fun port => by rw [hmem, hmem', hsame]
  simp only [hothers, hsame]

end Arranges

/-- Where all mapped ports and no others took part, the mapping itself arranges them. -/
theorem arranges_physicalPorts (hall : ∀ port, port ∈ m.physicalPorts ↔ port ∈ taken) :
    m.Arranges taken m.physicalPorts where
  nodup := m.physical_nodup
  mem_iff := hall
  parts := ⟨m.physicalPorts, [], by simp, List.Sublist.refl _, .nil, by simp⟩

end PortMapping

namespace Topology

variable {m : PortMapping} {ports : List PhysicalPort} {port : PhysicalPort}

/-- Behind the mapped ports stand those that took part and play no role. -/
theorem mem_keys_unmapped :
    port ∈ (Table.ofList ((unmapped m ports).map fun port => (port, ()))).keys ↔
      port ∈ ports ∧ port ∉ m.physicalPorts := by
  rw [Table.mem_keys_iff, Table.contains_ofList_map, PortMapping.mem_physicalPorts_iff]
  simp [unmapped]

/-- The topology of a run has exactly the ports that took part. -/
theorem mem_ports_ofRun : port ∈ (ofRun m ports).ports ↔ port ∈ ports := by
  rw [ofRun, List.mem_append, mem_keys_unmapped, List.mem_filter, List.contains_iff_mem]
  tauto

/-- The topology of a run arranges its ports. -/
theorem arranges_ofRun (m : PortMapping) (ports : List PhysicalPort) :
    m.Arranges ports (ofRun m ports).ports where
  nodup := by
    refine List.nodup_append.2 ⟨m.physical_nodup.filter _, Table.keys_nodup _, ?_⟩
    rintro port hmapped _ hother rfl
    exact (mem_keys_unmapped.1 hother).2 (List.mem_of_mem_filter hmapped)
  mem_iff := fun _ => mem_ports_ofRun
  parts := ⟨_, _, rfl, List.filter_sublist, Table.ordered _, fun _ h => (mem_keys_unmapped.1 h).2⟩

/-- The ports of a run depend only on which ports took part. The topology of the run has each of
them once, first those that play a role in the order of the mapping, then the others in ascending
order. Lists that name the same ports give the same topology, and a list that names all mapped ports
and no others gives that of the mapping. -/
theorem run_ports_canonical (m : PortMapping) (ports : List PhysicalPort) :
    (ofRun m ports).mapping = m ∧ m.Arranges ports (ofRun m ports).ports ∧
    (∀ ports', (∀ port, port ∈ ports' ↔ port ∈ ports) → ofRun m ports' = ofRun m ports) ∧
    ((∀ port, port ∈ ports ↔ port ∈ m.physicalPorts) → ofRun m ports = ofMapping m) := by
  refine ⟨rfl, arranges_ofRun m ports, ?same, ?all⟩
  case same =>
    intro ports' hsame
    exact congrArg (Topology.mk m) ((arranges_ofRun m ports').unique (arranges_ofRun m ports) hsame)
  case all =>
    intro hall
    have hmapping := PortMapping.arranges_physicalPorts fun port => (hall port).symm
    exact congrArg (Topology.mk m) ((arranges_ofRun m ports).unique hmapping fun _ => Iff.rfl)

/-- Of four ports two play a role: the server port is mapped first and stays first, and of the
others port 7 comes before port 9, whichever was named first. -/
theorem run_ports_of_reordered :
    let m : PortMapping :=
      ⟨[(⟨.server, some 1⟩, ⟨"10.0.0.1", 4⟩), (⟨.client, some 1⟩, ⟨"10.0.0.1", 3⟩)],
        by decide, by decide, by decide⟩
    let ports : List PhysicalPort :=
      [⟨"10.0.0.2", 9⟩, ⟨"10.0.0.1", 3⟩, ⟨"10.0.0.1", 4⟩, ⟨"10.0.0.1", 7⟩]
    let renamed := ports.reverse ++ ports
    (∀ port, port ∈ renamed ↔ port ∈ ports) ∧ ofRun m renamed = ofRun m ports ∧
      (ofRun m ports).ports =
        [⟨"10.0.0.1", 4⟩, ⟨"10.0.0.1", 3⟩, ⟨"10.0.0.1", 7⟩, ⟨"10.0.0.2", 9⟩] ∧
      ofRun m [⟨"10.0.0.1", 3⟩, ⟨"10.0.0.1", 4⟩] = ofMapping m := by
  intro m ports renamed
  have hsame : ∀ port, port ∈ renamed ↔ port ∈ ports := by simp [renamed]
  obtain ⟨-, -, hrenamed, -⟩ := run_ports_canonical m ports
  obtain ⟨-, -, -, hmapping⟩ := run_ports_canonical m [⟨"10.0.0.1", 3⟩, ⟨"10.0.0.1", 4⟩]
  refine ⟨hsame, hrenamed renamed hsame, by decide, hmapping fun port => ?_⟩
  simp [m, PortMapping.physicalPorts, or_comm]

end Topology

end TrafficCheck
