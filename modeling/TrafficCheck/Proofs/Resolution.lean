import TrafficCheck.Proofs.Assembly
import TrafficCheck.Proofs.Binding
import TrafficCheck.Proofs.RunPorts
import TrafficCheck.Proofs.Streams

/-!
# Resolvability

Whether the variables of an assertion can be bound in a run, and why not, is the same at every tick.
It is said by the mapping and by the ports of the streams that make up the run: every sample of an
assembled history shows just these ports, so that neither a tick nor a window can lack a port of the
topology, and only a variable that names a port can ask for another one.

## Main definitions

* `Variable.obstacle?`: why a variable cannot be bound in a run of some streams.

## Main statements

* `Topology.error?_bind_assemble`: the first obstacle in the order of keys decides.
* `Topology.resolvability_of_run`: resolvability is the same at every tick of a run.
-/

namespace TrafficCheck

namespace Variable

variable {v : Variable} {h : History} {tick : Nat} {port : PhysicalPort}

/-- Why a variable cannot be bound in a run of some streams: no port plays the role that it names,
or the port that does so has no stream. -/
def obstacle? (m : PortMapping) (streams : List Stream) (v : Variable) : Option Unresolved :=
  v.scope.role?.bind fun role =>
    match m.physicalFor? role with
    | none => some (.unmapped role)
    | some port => if ∃ s ∈ streams, s.port = port then none else some (.noSamples port)

/-- There is an obstacle just for a variable of a single port, if that port is unmapped or has no
stream. -/
theorem isSome_obstacle?_iff {m : PortMapping} {streams : List Stream} :
    (v.obstacle? m streams).isSome = true ↔ ∃ k number, v.scope = .exact k number ∧
      ∀ port, m.physicalFor? ⟨k, some number⟩ = some port → ∀ s ∈ streams, s.port ≠ port := by
  unfold obstacle?
  cases hscope : v.scope with
  | any => simp [Scope.role?]
  | kind k => simp [Scope.role?]
  | exact k number =>
    cases hport : m.physicalFor? ⟨k, some number⟩ with
    | none => simp [Scope.role?, hport]
    | some port => simp [Scope.role?, hport]

theorem obstacle?_of_isWildcard {m : PortMapping} {streams : List Stream}
    (hv : v.scope.isWildcard = true) : v.obstacle? m streams = none := by
  unfold obstacle?
  cases hscope : v.scope with
  | any | kind k => rfl
  | exact k number => simp [hscope, Scope.isWildcard] at hv

end Variable

namespace Topology

variable {m : PortMapping} {ports : List PhysicalPort} {port : PhysicalPort} {t : Topology}
  {h : History} {tick : Nat} {vs vs' : Table String Variable} {streams : List Stream}

/-- In a run of some streams a variable of a single port fails in its obstacle. -/
theorem error?_bindShared_assemble (htick : tick < (History.assemble streams).size)
    (bound : Table String Float) (e : String × Variable) :
    Outcome.error? ((ofRun m ports).bindShared (.assemble streams) tick bound e) =
      e.2.obstacle? m streams := by
  rw [error?_bindShared, Variable.obstacle?]
  simp only [History.isSome_snapshot?_assemble htick]
  rfl

/-- In a run of some streams binding ends, at every tick, in the first obstacle in the order of
keys. -/
theorem error?_bind_assemble (htick : tick < (History.assemble streams).size) :
    Outcome.error? ((ofRun m (streams.map (·.port))).bind (.assemble streams) tick vs) =
      vs.values.findSome? (Variable.obstacle? m streams) := by
  have hports : ∀ port ∈ (ofRun m (streams.map (·.port))).ports,
      Outcome.error? ((ofRun m (streams.map (·.port))).bindPort (.assemble streams) tick vs port) =
        none := by
    intro port hport
    rw [mem_ports_ofRun, List.mem_map] at hport
    have hsnapshot := (History.isSome_snapshot?_assemble htick).2 hport
    rw [error?_bindPort, Option.isNone_eq_false_iff.2 hsnapshot, Bool.and_false]
    rfl
  rw [error?_bind, List.findSome?_eq_none_iff.2 hports, Option.or_none, Table.values,
    List.findSome?_map]
  simp only [error?_bindShared_assemble htick]
  rfl

/-- Variables that leave their port open may be left out in looking for an obstacle. -/
theorem findSome?_obstacle?_filter (vs : List Variable) :
    (vs.filter fun v => !v.scope.isWildcard).findSome? (Variable.obstacle? m streams) =
      vs.findSome? (Variable.obstacle? m streams) := by
  induction vs with
  | nil => rfl
  | cons v rest ih =>
    cases hv : v.scope.isWildcard with
    | true =>
      have hnone : v.obstacle? m streams = none := Variable.obstacle?_of_isWildcard hv
      simp [hv, hnone, ih]
    | false => simp [hv, List.findSome?_cons, ih]

/-- In a run of some streams it is the same at every tick whether variables can be bound, and why
not. What variables there are that leave their port open makes no difference. They cannot be bound
just if one of them names a single port that is unmapped or has no stream, and the reason is that of
such a variable. The topology and the history of a project are those of such a run. -/
theorem resolvability_of_run (vs : Table String Variable) (m : PortMapping)
    (streams : List Stream) :
    (∃ answer : Option Unresolved,
      (∀ tick, tick < (History.assemble streams).size →
        Outcome.error? ((ofRun m (streams.map (·.port))).bind (.assemble streams) tick vs) =
          answer) ∧
      (∀ vs' : Table String Variable,
        (vs'.values.filter fun v => !v.scope.isWildcard) =
          (vs.values.filter fun v => !v.scope.isWildcard) →
        ∀ tick, tick < (History.assemble streams).size →
          Outcome.error? ((ofRun m (streams.map (·.port))).bind (.assemble streams) tick vs') =
            answer) ∧
      (∀ reason, answer = some reason → ∃ v ∈ vs.values, v.obstacle? m streams = some reason) ∧
      (answer.isSome = true ↔ ∃ v ∈ vs.values, ∃ k number, v.scope = .exact k number ∧
        ∀ port, m.physicalFor? ⟨k, some number⟩ = some port → ∀ s ∈ streams, s.port ≠ port)) ∧
    ∀ (p : Project) (d : Disk) (counters : NameSet) (t : Topology) (h : History),
      (p.topology d).outcome = .ok t →
      ((Summary.loadHistory p.resultsDir counters).on d).outcome = .ok h →
      ∃ m streams, (streams.map (·.port)).Nodup ∧ t = ofRun m (streams.map (·.port)) ∧
        h = .assemble streams := by
  refine ⟨⟨vs.values.findSome? (Variable.obstacle? m streams), ?_, ?_, ?_, ?_⟩, ?_⟩
  · exact fun tick htick => error?_bind_assemble htick
  · intro vs' hsame tick htick
    rw [error?_bind_assemble htick, ← findSome?_obstacle?_filter, hsame,
      findSome?_obstacle?_filter]
  · intro reason hreason
    exact List.exists_of_findSome?_eq_some hreason
  · simp only [List.findSome?_isSome_iff, Variable.isSome_obstacle?_iff]
  · intro p d counters t h ht hh
    exact Project.exists_streams ht hh

/-- A mapped server port without a stream is missed at each of the three ticks of a run. -/
theorem unresolved_without_server_stream :
    let client : PhysicalPort := ⟨"10.0.0.1", 1⟩
    let server : PhysicalPort := ⟨"10.0.0.1", 2⟩
    let mapping : PortMapping := ⟨[(⟨.client, some 1⟩, client), (⟨.server, some 1⟩, server)],
      by decide, by decide, by decide⟩
    let streams : List Stream := [⟨client, #[.empty, .empty]⟩]
    let vs : Table String Variable := Table.ofList
      [("cport.x", ⟨.kind .client, "x", none⟩), ("sport1.x", ⟨.exact .server 1, "x", some .sec⟩)]
    ∀ tick, tick < 3 →
      Outcome.error? ((ofRun mapping (streams.map (·.port))).bind (.assemble streams) tick vs) =
        some (.noSamples server) := by
  intro client server mapping streams vs tick htick
  obtain ⟨⟨answer, hanswer, -, hreason, hsome⟩, -⟩ := resolvability_of_run vs mapping streams
  obtain ⟨reason, rfl⟩ := Option.isSome_iff_exists.1 <| hsome.2
    ⟨⟨.exact .server 1, "x", some .sec⟩, by decide, .server, 1, rfl, by decide⟩
  -- The reason is that of the only variable with an obstacle.
  have hobstacle : ∀ v ∈ vs.values, v.obstacle? mapping streams = some reason →
      reason = .noSamples server := by
    intro v hv hv'
    have hall : ∀ v ∈ vs.values, v.obstacle? mapping streams = none ∨
        v.obstacle? mapping streams = some (.noSamples server) := by decide
    rcases hall v hv with hnone | hserver
    · exact absurd (hv'.symm.trans hnone) (by simp)
    · exact Option.some.inj (hv'.symm.trans hserver)
  obtain ⟨v, hv, hv'⟩ := hreason reason rfl
  rw [hanswer tick htick, hobstacle v hv hv']

end Topology

end TrafficCheck
