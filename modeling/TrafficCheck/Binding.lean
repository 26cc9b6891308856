import TrafficCheck.Evaluation
import TrafficCheck.History
import TrafficCheck.Topology
import TrafficCheck.Variable

/-!
# Bindings

At each tick the variables of an assertion are bound to counter values. A variable of a single port
has one value, shared by all evaluations; any other variable has a value on each port it covers.

## Main definitions

* `Topology.bind`: the values of all variables at a tick, or why there are none.
* `Program.evaluateTick`: the outcome of a program over bound values.
-/

namespace TrafficCheck

/-- Why variables cannot be bound. -/
inductive Unresolved where
  | unmapped (role : LogicalPort)
  | noSamples (port : PhysicalPort)
  deriving DecidableEq, Repr

/-- The wording of the reason. -/
def Unresolved.message : Unresolved → String
  | .unmapped role => s!"with non-configured {role.description}"
  | .noSamples port => s!"with no samples for physical port {port.text}"

/-- The values on one port. -/
structure PortBinding where
  label : String
  values : Table String Float

/-- The values at one tick: those of single ports, and those on each port that variables cover. -/
structure TickBinding where
  shared : Table String Float
  ports : List PortBinding

/-- The value of a variable on a port: the counter itself, or its growth if the variable has a
modifier. -/
def Variable.value? (v : Variable) (h : History) (tick : Nat) (port : PhysicalPort) :
    Option Float :=
  match v.modifier with
  | some m => h.windowed? tick port v.counter m.window
  | none => h.value? tick port v.counter

/-- The values bound so far and the value of one more variable on a port. -/
def Variable.bindOn (v : Variable) (h : History) (tick : Nat) (port : PhysicalPort) (key : String)
    (bound : Table String Float) : Except Unresolved (Table String Float) :=
  match v.value? h tick port with
  | some x => .ok (bound.insert key x)
  | none => .error (.noSamples port)

namespace Topology

variable (t : Topology) (h : History) (tick : Nat)

/-- The shared values bound so far and, if the variable names a single port, its value. -/
def bindShared (bound : Table String Float) (e : String × Variable) :
    Except Unresolved (Table String Float) :=
  match e.2.scope.role? with
  | none => .ok bound
  | some role =>
    match t.mapping.physicalFor? role with
    | some port => e.2.bindOn h tick port e.1 bound
    | none => .error (.unmapped role)

/-- The values of the variables that cover a port, under the label of its role or, if it plays none,
its own text. -/
def bindPort (vs : Table String Variable) (port : PhysicalPort) :
    Except Unresolved PortBinding := do
  let role := t.mapping.logicalFor? port
  let values ← vs.entries.foldlM (fun bound e =>
    if e.2.scope.covers role then e.2.bindOn h tick port e.1 bound else .ok bound) .empty
  return ⟨(role.map (·.label)).getD port.text, values⟩

/-- The values of all variables at a tick. Variables of single ports are bound first, in the order
of their keys; then the ports follow in the order of the topology, and those that no variable covers
are left out. -/
def bind (vs : Table String Variable) : Except Unresolved TickBinding := do
  let shared ← vs.entries.foldlM (t.bindShared h tick) .empty
  let ports ← t.ports.mapM (t.bindPort h tick vs)
  return ⟨shared, ports.filter fun port => port.values.size != 0⟩

end Topology

/-- What was seen at a tick: a value and the trace of the values read for it. -/
structure Observation where
  value : Value
  trace : String

namespace TickBinding

/-- The value of a key for an evaluation over all ports: the shared one, else that of the first port
that has one, else zero. -/
def merged (b : TickBinding) (key : String) : Float :=
  ((b.shared.get? key).or (b.ports.findSome? fun port => port.values.get? key)).getD 0

/-- The value of a key for an evaluation on one port: that of the port, else the shared one, else
zero. -/
def onPort (b : TickBinding) (port : PortBinding) (key : String) : Float :=
  ((port.values.get? key).or (b.shared.get? key)).getD 0

end TickBinding

namespace Program

/-- The outcome of a program over all ports at once. -/
def observeMerged (p : Program) (b : TickBinding) : Except AssertionError Observation :=
  (p.evaluate b.merged).map fun e => ⟨e.value, e.reads.trace⟩

/-- The outcome of a program on one port, whose label leads the trace. -/
def observeOn (p : Program) (b : TickBinding) (port : PortBinding) :
    Except AssertionError Observation :=
  (p.evaluate (b.onPort port)).map fun e => ⟨e.value, s!"{port.label}: {e.reads.trace}"⟩

/-- The outcome of a program on some ports in turn: the first one that is not true, else the
last. -/
def observeEach (p : Program) (b : TickBinding) (port : PortBinding) :
    List PortBinding → Except AssertionError Observation
  | [] => p.observeOn b port
  | next :: rest => do
    let o ← p.observeOn b port
    if o.value.isTrue then observeEach p b next rest else return o

/-- The outcome of a program at a tick: on each port in turn, or over all ports at once if its
variables reach over both kinds of ports or no port is covered. -/
def evaluateTick (p : Program) (b : TickBinding) (multiport : Bool) :
    Except AssertionError Observation :=
  match multiport, b.ports with
  | false, port :: rest => p.observeEach b port rest
  | _, _ => p.observeMerged b

end Program

end TrafficCheck
