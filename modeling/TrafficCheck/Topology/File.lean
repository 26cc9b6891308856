import TrafficCheck.Disk
import TrafficCheck.Topology
import TrafficCheck.Yaml.View

/-!
# Topology files

A topology file lists the mapped ports of a project, each with its role, the address of its
appliance and its number there.

## Main definitions

* `TopologyFile.entries?`: the ports a YAML text lists.
* `Topology.ofYaml`: the topology that a YAML text describes.
* `Topology.load`: the topology of a file.
-/

namespace TrafficCheck

/-- Why there is no topology. -/
inductive TopologyError where
  | conflict (c : PortMapping.Conflict)
  | invalidAppliance (appliance : String) (port : LogicalPort)
  /-- The text describes no topology; the path is empty where the text is not known to be a file. -/
  | unparsed (file : Path)
  | unreadable (file : Path) (failure : Failure)

/-- The wording of an error. -/
def TopologyError.message : TopologyError → String
  | .conflict c => c.message
  | .invalidAppliance appliance port =>
    s!"No valid physical port IP address '{appliance}' for {port.description}"
  | .unparsed file => s!"Topology parse error in {file.text}: no list of ports"
  | .unreadable file failure => s!"IO error reading topology {file.text}: {failure.message}"

namespace TopologyFile

/-- A listed port. -/
structure Entry where
  kind : PortKind
  number : UInt32
  appliance : String
  port : UInt32

/-- Numbers of 32 bits are below this limit. -/
def wordLimit : Nat := UInt32.size

/-- The port that an item lists. -/
def entry? (item : Yaml.View) : Option Entry := do
  let fields ← item.fields? ["kind", "number", "appliance", "port"]
  let kind ← PortKind.ofName? (← (← fields.lookup "kind").word?)
  let number ← (← fields.lookup "number").natural? wordLimit
  let appliance ← (← fields.lookup "appliance").text?
  let port ← (← fields.lookup "port").natural? wordLimit
  return ⟨kind, .ofNat number, appliance, .ofNat port⟩

/-- The ports that a YAML text lists; a text without the list lists none. -/
def entries? (yaml : String) : Option (List Entry) := do
  let fields ← (← Yaml.View.ofText? yaml).fields? ["ports"]
  match fields.lookup "ports" with
  | some list => (← list.items?).mapM entry?
  | none => return []

/-- One part of an address: a number below 256 without a needless zero before it. -/
def isOctet (cs : List Char) : Bool :=
  match Decimal.natural? cs with
  | some n => n < 256 && (cs.length = 1 || cs.head? != some '0')
  | none => false

/-- Whether a text is an address of four parts, separated by dots. -/
def isAddress (s : String) : Bool :=
  let parts := s.toList.splitOn '.'
  parts.length = 4 && parts.all isOctet

end TopologyFile

namespace Topology

/-- The mapping with one more listed port, whose appliance needs a valid address. -/
def addEntry (m : PortMapping) (e : TopologyFile.Entry) : Attempt TopologyError PortMapping := do
  let logical : LogicalPort := ⟨e.kind, some e.number⟩
  if TopologyFile.isAddress e.appliance then
    let physical : PhysicalPort := ⟨e.appliance, e.port⟩
    Attempt.note .debug s!"{logical.description} - {physical.text}"
    Attempt.of ((m.insert logical physical).mapError .conflict)
  else throw (.invalidAppliance e.appliance logical)

/-- The topology that a YAML text describes. The path names the text in errors. -/
def ofYaml (file : Path) (yaml : String) : Attempt TopologyError Topology :=
  match TopologyFile.entries? yaml with
  | some entries => return .ofMapping (← entries.foldlM addEntry .empty)
  | none => throw (.unparsed file)

/-- The topology of a file. -/
def load (d : Disk) (file : Path) : Attempt TopologyError Topology :=
  match d.readText file with
  | .ok yaml => ofYaml file yaml
  | .error failure => throw (.unreadable file failure)

end Topology

end TrafficCheck
