import TrafficCheck.Proofs.Dependence
import TrafficCheck.Proofs.RunPorts
import TrafficCheck.Proofs.Snapshots

/-!
# Isolation of the kinds of ports

An assertion on client ports alone is decided by the client ports. What the other ports of a run
are, mapped to the other kind or not mapped at all, and what their counters are, makes no difference
to it: they are not evaluated on, have no default value and are not missed.

## Main definitions

* `PortMapping.plays`: whether a port plays a role of a kind.

## Main statements

* `Topology.bind_isolated`: bindings depend on the ports of one kind.
* `Topology.filter_ports_ofRun`: the ports of one kind in the topology of a run.
* `Assertion.check_isolated`: checks depend on the ports of one kind.
-/

namespace TrafficCheck

namespace PortMapping

/-- Whether a port plays a role of a kind. -/
def plays (m : PortMapping) (k : PortKind) (port : PhysicalPort) : Bool :=
  (m.logicalFor? port).any fun role => role.kind = k

variable {m : PortMapping} {k : PortKind} {port : PhysicalPort}

theorem plays_iff : m.plays k port = true ↔ ∃ role, (role, port) ∈ m.pairs ∧ role.kind = k := by
  simp [plays, Option.any_eq_true, logicalFor?_eq_some_iff]

/-- The port of a variable of a single port plays a role of the kind of that variable. -/
theorem plays_of_role? {s : Scope} {role : LogicalPort} (hkind : s.kind? = some k)
    (hrole : s.role? = some role) (hport : m.physicalFor? role = some port) :
    m.plays k port = true := by
  cases s with
  | any | kind l => simp [Scope.role?] at hrole
  | exact l number =>
    obtain rfl := Option.some.inj hkind
    obtain rfl := Option.some.inj hrole
    exact plays_iff.2 ⟨_, physicalFor?_eq_some_iff.1 hport, rfl⟩

/-- Ports that a variable of a kind covers play a role of that kind. -/
theorem plays_of_covers {s : Scope} (hkind : s.kind? = some k)
    (hcovers : s.covers (m.logicalFor? port) = true) : m.plays k port = true := by
  cases s with
  | any => simp [Scope.kind?] at hkind
  | kind l =>
    obtain rfl := Option.some.inj hkind
    exact hcovers
  | exact l number => simp [Scope.covers] at hcovers

end PortMapping

namespace Topology

variable {m : PortMapping} {t t' : Topology} {k : PortKind} {h h' : History} {tick : Nat}
  {vs : Table String Variable} {port : PhysicalPort}

/-! ## Bindings of one kind -/

theorem bind_eq (t : Topology) (h : History) (tick : Nat) (vs : Table String Variable) :
    t.bind h tick vs = vs.entries.foldlM (t.bindShared h tick) .empty >>= fun shared =>
      ((t.ports.mapM (t.bindPort h tick vs)).map
        (List.filter fun port => port.values.size != 0)).map (TickBinding.mk shared) := by
  unfold bind
  refine congrArg (_ >>= ·) (funext fun shared => ?_)
  cases t.ports.mapM (t.bindPort h tick vs) <;> rfl

section Kind

variable (hkind : ∀ v ∈ vs.values, v.scope.kind? = some k)
include hkind

/-- A port that plays no role of the kind of all variables has no values, and none are missed. -/
theorem bindPort_of_not_plays (hport : t.mapping.plays k port = false) :
    ∃ pb, t.bindPort h tick vs port = .ok pb ∧ (pb.values.size != 0) = false := by
  have hnone : ∀ (bound : Table String Float) (e : String × Variable), e ∈ vs.entries →
      (if e.2.scope.covers (t.mapping.logicalFor? port) then e.2.bindOn h tick port e.1 bound
        else .ok bound) = (pure bound : Except Unresolved _) := by
    intro bound e he
    refine if_neg fun hcovers => ?_
    have hplays := PortMapping.plays_of_covers (hkind e.2 (List.mem_map_of_mem he)) hcovers
    rw [hport] at hplays
    exact absurd hplays (by simp)
  refine ⟨⟨((t.mapping.logicalFor? port).map (·.label)).getD port.text, .empty⟩, ?_, rfl⟩
  rw [bindPort, Outcome.foldlM_congr hnone, List.foldlM_pure, List.foldl_fixed]
  rfl

variable (hmapping : t.mapping = t'.mapping)
  (hsnapshots : ∀ tick port, t.mapping.plays k port = true →
    h.snapshot? tick port = h'.snapshot? tick port)
include hmapping hsnapshots

theorem bindShared_isolated (bound : Table String Float) {e : String × Variable}
    (he : e ∈ vs.entries) : t.bindShared h tick bound e = t'.bindShared h' tick bound e := by
  refine bindShared_congr hmapping (fun role port hrole hport => ?_) bound
  have hplays := PortMapping.plays_of_role? (hkind e.2 (List.mem_map_of_mem he)) hrole hport
  exact e.2.value?_congr (fun tick => hsnapshots tick port hplays) tick

omit hkind in
theorem bindPort_isolated (hport : t.mapping.plays k port = true) :
    t.bindPort h tick vs port = t'.bindPort h' tick vs port :=
  bindPort_congr hmapping fun v _ _ => v.value?_congr (fun tick => hsnapshots tick port hport) tick

/-- Topologies with one mapping and the same ports of a kind bind variables of that kind alike in
histories that agree on these ports. -/
theorem bind_isolated (hports : t.ports.filter (t.mapping.plays k) =
    t'.ports.filter (t.mapping.plays k)) : t.bind h tick vs = t'.bind h' tick vs := by
  have hleft : ∀ port ∈ t.ports, t.mapping.plays k port = false →
      ∃ pb, t.bindPort h tick vs port = .ok pb ∧ (pb.values.size != 0) = false :=
    fun port _ hport => bindPort_of_not_plays hkind hport
  have hright : ∀ port ∈ t'.ports, t.mapping.plays k port = false →
      ∃ pb, t'.bindPort h' tick vs port = .ok pb ∧ (pb.values.size != 0) = false :=
    fun port _ hport => bindPort_of_not_plays hkind (hmapping ▸ hport)
  have hboth : ∀ port ∈ t'.ports.filter (t.mapping.plays k),
      t.bindPort h tick vs port = t'.bindPort h' tick vs port :=
    fun port hport => bindPort_isolated hmapping hsnapshots (List.mem_filter.1 hport).2
  rw [bind_eq, bind_eq, Outcome.map_filter_mapM hleft, Outcome.map_filter_mapM hright, hports,
    Outcome.mapM_congr hboth,
    Outcome.foldlM_congr fun bound e he => bindShared_isolated hkind hmapping hsnapshots bound he]

end Kind

/-! ## Ports of one kind -/

/-- The topology of a run has the ports of a kind that took part, in the order of the mapping. -/
theorem filter_ports_ofRun (m : PortMapping) (ports : List PhysicalPort) (k : PortKind) :
    (ofRun m ports).ports.filter (m.plays k) =
      m.physicalPorts.filter fun port => (ports.filter (m.plays k)).contains port := by
  have hnone : (Table.ofList ((unmapped m ports).map fun port => (port, ()))).keys.filter
      (m.plays k) = [] := by
    rw [List.filter_eq_nil_iff]
    intro port hport hplays
    obtain ⟨role, hrole, -⟩ := PortMapping.plays_iff.1 hplays
    exact (mem_keys_unmapped.1 hport).2 (List.mem_map_of_mem hrole)
  rw [ofRun, List.filter_append, hnone, List.append_nil, List.filter_filter]
  refine List.filter_congr fun port _ => ?_
  rw [Bool.eq_iff_iff]
  simp [and_comm]

end Topology

namespace Assertion

variable {a : Assertion} {k : PortKind} {m : PortMapping} {ports ports' : List PhysicalPort}
  {h h' : History}

/-- An assertion all of whose variables are tied to ports of one kind is checked alike, down to the
records and the error, in runs of one length that have the same ports of that kind and agree on
them. -/
theorem check_isolated (hkind : ∀ v ∈ a.inputs.values, v.scope.kind? = some k)
    (hports : ports.filter (m.plays k) = ports'.filter (m.plays k)) (hsize : h.size = h'.size)
    (hsnapshots : ∀ tick port, m.plays k port = true →
      h.snapshot? tick port = h'.snapshot? tick port) :
    a.check ⟨m, ports⟩ h = a.check ⟨m, ports'⟩ h' ∧
      a.check (.ofRun m ports) h = a.check (.ofRun m ports') h' := by
  have hcheck : ∀ t t' : Topology, t.mapping = m → t'.mapping = m →
      t.ports.filter (m.plays k) = t'.ports.filter (m.plays k) → a.check t h = a.check t' h' := by
    rintro t t' rfl hmapping hfilter
    refine check_congr_of_observe hsize fun tick _ => ?_
    rw [observe, observe, Topology.bind_isolated hkind hmapping.symm hsnapshots hfilter]
  refine ⟨hcheck _ _ rfl rfl hports, hcheck _ _ rfl rfl ?_⟩
  rw [Topology.filter_ports_ofRun, Topology.filter_ports_ofRun, hports]

/-- An assertion on client ports is checked alike in a run of a client and a server and in one of
the same client and a port without a role. -/
theorem client_check_ignores_other_ports :
    let client : PhysicalPort := ⟨"10.0.0.1", 1⟩
    let server : PhysicalPort := ⟨"10.0.0.1", 2⟩
    let stranger : PhysicalPort := ⟨"10.0.0.2", 1⟩
    let mapping : PortMapping := ⟨[(⟨.server, some 1⟩, server), (⟨.client, some 1⟩, client)],
      by decide, by decide, by decide⟩
    let sample (x : Float) (other : PhysicalPort) : Sample :=
      Table.ofList [(client, Table.ofList [("x", x)]), (other, Table.ofList [("x", 7)])]
    let h : History := ⟨#[sample 4 server, sample 2 server]⟩
    let h' : History := ⟨#[sample 4 stranger, sample 2 stranger]⟩
    ∃ a, read "ANY cport.x + cport1.x@sec < 9" "rules" 1 = .ok a ∧
      a.check (.ofRun mapping [client, server]) h =
        a.check (.ofRun mapping [stranger, client]) h' := by
  intro client server stranger mapping sample h h'
  obtain ⟨a, hread⟩ : ∃ a, read "ANY cport.x + cport1.x@sec < 9" "rules" 1 = .ok a := ⟨_, rfl⟩
  have hkind : ∀ v ∈ a.inputs.values, v.scope.kind? = some .client := by
    cases hread
    decide
  have hsample : ∀ x other, other ≠ client →
      (sample x other).get? client = some (Table.ofList [("x", x)]) := by
    intro x other hother
    rw [Table.get?_ofList (by simpa using hother.symm)]
    rfl
  have hsnapshots : ∀ tick port, mapping.plays .client port = true →
      h.snapshot? tick port = h'.snapshot? tick port := by
    intro tick port hplays
    obtain ⟨role, hpair, hrole⟩ := PortMapping.plays_iff.1 hplays
    have hport : port = client := by
      rcases List.mem_cons.1 hpair with heq | hpair
      · obtain rfl := (Prod.mk.inj heq).1
        exact absurd hrole (by decide)
      · exact (Prod.mk.inj (List.mem_singleton.1 hpair)).2
    rw [hport]
    match tick with
    | 0 => exact (hsample 4 server (by decide)).trans (hsample 4 stranger (by decide)).symm
    | 1 => exact (hsample 2 server (by decide)).trans (hsample 2 stranger (by decide)).symm
    | n + 2 =>
      rw [History.snapshot?_of_size_le (Nat.le_add_left 2 n),
        History.snapshot?_of_size_le (Nat.le_add_left 2 n)]
  have hports : [client, server].filter (mapping.plays .client) =
      [stranger, client].filter (mapping.plays .client) := by decide
  have hsize : h.size = h'.size := rfl
  exact ⟨a, hread, (check_isolated hkind hports hsize hsnapshots).2⟩

end Assertion

end TrafficCheck
