import TrafficCheck.Log
import TrafficCheck.Mapping
import TrafficCheck.Table

/-!
# Topologies

A topology is a port mapping together with the physical ports that took part in a run. Mapped ports
come first, in the order of the mapping; the others follow in ascending order.

## Main definitions

* `Topology.ofMapping`: every mapped port took part.
* `Topology.ofRun`: the ports named took part, mapped or not.
-/

namespace TrafficCheck

/-- A mapping and the ports of a run. -/
structure Topology where
  mapping : PortMapping
  ports : List PhysicalPort

namespace Topology

/-- The topology in which exactly the mapped ports took part. -/
def ofMapping (m : PortMapping) : Topology := ⟨m, m.physicalPorts⟩

/-- The named ports that play no role, as often and in the order in which they are named. -/
def unmapped (m : PortMapping) (ports : List PhysicalPort) : List PhysicalPort :=
  ports.filter fun port => (m.logicalFor? port).isNone

/-- The topology in which exactly the named ports took part. -/
def ofRun (m : PortMapping) (ports : List PhysicalPort) : Topology where
  mapping := m
  ports :=
    m.physicalPorts.filter (fun port => ports.contains port) ++
      (Table.ofList ((unmapped m ports).map fun port => (port, ()))).keys

/-- One warning for every mention of a port that plays no role. -/
def warnings (m : PortMapping) (ports : List PhysicalPort) : List Record :=
  (unmapped m ports).map fun port => ⟨.warn, s!"No logical port found for {port.text}"⟩

end Topology

end TrafficCheck
