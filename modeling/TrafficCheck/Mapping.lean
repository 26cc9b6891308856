import TrafficCheck.Port

/-!
# Port mappings

Which physical port plays which role. A mapping keeps its pairs in the order in which they were
entered; every role in it has a number, and neither a role nor a physical port occurs twice.

## Main definitions

* `PortMapping.insert`: the mapping with one more pair, or the reason why the pair does not fit.
* `PortMapping.physicalFor?`, `PortMapping.logicalFor?`: the two directions of a mapping.
-/

namespace TrafficCheck

/-- Pairs of a role and the port that plays it, oldest first. -/
structure PortMapping where
  pairs : List (LogicalPort × PhysicalPort)
  numbered : ∀ pair ∈ pairs, pair.1.number.isSome
  logical_nodup : (pairs.map (·.1)).Nodup
  physical_nodup : (pairs.map (·.2)).Nodup

namespace PortMapping

/-- Why a pair does not fit into a mapping. -/
inductive Conflict where
  | unnumbered (port : LogicalPort)
  | duplicateLogical (port : LogicalPort)
  | duplicatePhysical (port : PhysicalPort)
  deriving DecidableEq, Repr

/-- The wording of a conflict. -/
def Conflict.message : Conflict → String
  | .unnumbered port => s!"Logical port '{port.description}' must have a number to be mapped"
  | .duplicateLogical port => s!"{port.description} mapped to more than one physical port"
  | .duplicatePhysical port => s!"{port.text} mapped to more than one logical port"

/-- The mapping without pairs. -/
def empty : PortMapping := ⟨[], by simp, by simp, by simp⟩

instance : Inhabited PortMapping := ⟨empty⟩

/-- The mapping with one more pair at its end. A role without a number does not fit, nor does a role
or a port that is already mapped; the first of these reasons is given. -/
def insert (m : PortMapping) (logical : LogicalPort) (physical : PhysicalPort) :
    Except Conflict PortMapping :=
  if hn : logical.number.isSome then
    if hl : logical ∈ m.pairs.map (·.1) then .error (.duplicateLogical logical)
    else if hp : physical ∈ m.pairs.map (·.2) then .error (.duplicatePhysical physical)
    else .ok {
      pairs := m.pairs ++ [(logical, physical)]
      numbered := by
        intro pair h
        rcases List.mem_append.1 h with h | h
        · exact m.numbered pair h
        · rw [List.mem_singleton.1 h]; exact hn
      logical_nodup := by
        rw [List.map_append, List.nodup_append]
        refine ⟨m.logical_nodup, by simp, ?_⟩
        rintro a ha b hb rfl
        simp only [List.map_cons, List.map_nil, List.mem_singleton] at hb
        exact hl (hb ▸ ha)
      physical_nodup := by
        rw [List.map_append, List.nodup_append]
        refine ⟨m.physical_nodup, by simp, ?_⟩
        rintro a ha b hb rfl
        simp only [List.map_cons, List.map_nil, List.mem_singleton] at hb
        exact hp (hb ▸ ha) }
  else .error (.unnumbered logical)

/-- The port that plays a role. -/
def physicalFor? (m : PortMapping) (logical : LogicalPort) : Option PhysicalPort :=
  (m.pairs.find? fun pair => pair.1 = logical).map (·.2)

/-- The role that a port plays. -/
def logicalFor? (m : PortMapping) (physical : PhysicalPort) : Option LogicalPort :=
  (m.pairs.find? fun pair => pair.2 = physical).map (·.1)

/-- The mapped ports, oldest first. -/
def physicalPorts (m : PortMapping) : List PhysicalPort := m.pairs.map (·.2)

/-- How many pairs a mapping holds. -/
def size (m : PortMapping) : Nat := m.pairs.length

end PortMapping

end TrafficCheck
