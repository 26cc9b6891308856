import Mathlib.Data.List.Forall2
import TrafficCheck.Binding
import TrafficCheck.Proofs.Tables

/-!
# Bound values

What binding gives to each variable: a variable of a single port has the value on the port that
plays its role, and any other variable has a value on each port it covers. The bound ports are those
that some variable covers, in the order of the topology.

## Main definitions

* `Variable.sharedValue?`, `Variable.portValue?`: the value of a variable by its scope.

## Main statements

* `Topology.get?_shared`, `Topology.get?_port`: what is bound under a key.
* `Topology.forall₂_ports`: which ports are bound.
* `Topology.findSome?_ports`: the first port on which a variable is bound.
-/

namespace TrafficCheck

namespace Variable

variable (t : Topology) (h : History) (tick : Nat)

/-- The value of a variable of a single port, on the port that plays its role. -/
def sharedValue? (v : Variable) : Option Float :=
  v.scope.role?.bind fun role => (t.mapping.physicalFor? role).bind (v.value? h tick)

/-- The value of a variable on a port, if it leaves its port open and covers that one. -/
def portValue? (v : Variable) (port : PhysicalPort) : Option Float :=
  if v.scope.covers (t.mapping.logicalFor? port) then v.value? h tick port else none

variable {v : Variable} {port : PhysicalPort} {key : String} {bound bound' : Table String Float}

/-- Binding one more variable on a port gives its key a value and leaves all others alone. -/
theorem get?_bindOn (hbind : v.bindOn h tick port key bound = .ok bound') (other : String) :
    bound'.get? other = if other = key then v.value? h tick port else bound.get? other := by
  unfold bindOn at hbind
  split at hbind
  · next x hx =>
    obtain rfl := Except.ok.inj hbind
    rw [Table.get?_insert, hx]
  · exact absurd hbind (by simp)

theorem exists_value?_of_bindOn (hbind : v.bindOn h tick port key bound = .ok bound') :
    ∃ x, v.value? h tick port = some x := by
  unfold bindOn at hbind
  split at hbind
  · next x hx => exact ⟨x, hx⟩
  · exact absurd hbind (by simp)

end Variable

namespace Topology

variable {t : Topology} {h : History} {tick : Nat} {vs : Table String Variable} {v : Variable}
  {port : PhysicalPort} {pb : PortBinding} {b : TickBinding} {key : String}

/-! ## One port -/

/-- Whether some variable covers a port. -/
def isCovered (t : Topology) (vs : List Variable) (port : PhysicalPort) : Bool :=
  vs.any fun v => v.scope.covers (t.mapping.logicalFor? port)

theorem values_bindPort (hport : t.bindPort h tick vs port = .ok pb) :
    vs.entries.foldlM (fun bound e =>
      if e.2.scope.covers (t.mapping.logicalFor? port) then e.2.bindOn h tick port e.1 bound
      else .ok bound) .empty = .ok pb.values := by
  simp only [bindPort, Outcome.bind_eq_ok, Outcome.pure_eq, Except.ok.injEq] at hport
  obtain ⟨values, hvalues, rfl⟩ := hport
  exact hvalues

/-- What is bound on a port under a key. -/
theorem get?_port (hport : t.bindPort h tick vs port = .ok pb) (key : String) :
    pb.values.get? key = (vs.get? key).bind fun v => v.portValue? t h tick port := by
  have hget := Table.foldlM_get? (fun v => v.portValue? t h tick port) ?step vs.keys_nodup
    (values_bindPort hport) key
  case step =>
    intro bound e bound' hstep other
    by_cases hcovers : e.2.scope.covers (t.mapping.logicalFor? port) = true
    · rw [if_pos hcovers] at hstep
      obtain ⟨x, hx⟩ := Variable.exists_value?_of_bindOn h tick hstep
      rw [Variable.get?_bindOn h tick hstep]
      simp [Variable.portValue?, hcovers, hx]
    · rw [if_neg hcovers] at hstep
      obtain rfl := Except.ok.inj hstep
      simp [Variable.portValue?, hcovers]
  rw [Table.get?_empty, Option.or_none] at hget
  exact hget

/-- A variable has a value on every bound port that it covers. -/
theorem exists_portValue? (hport : t.bindPort h tick vs port = .ok pb)
    (hkey : vs.get? key = some v) (hcovers : v.scope.covers (t.mapping.logicalFor? port) = true) :
    ∃ x, v.portValue? t h tick port = some x := by
  obtain ⟨bound, bound', hstep⟩ :=
    Outcome.step_of_foldlM (values_bindPort hport) (Table.mem_entries_iff.2 hkey)
  rw [if_pos hcovers] at hstep
  rw [Variable.portValue?, if_pos hcovers]
  exact Variable.exists_value?_of_bindOn h tick hstep

/-- A port has values just if some variable covers it. -/
theorem size_port_ne_zero_iff (hport : t.bindPort h tick vs port = .ok pb) :
    pb.values.size ≠ 0 ↔ t.isCovered vs.values port = true := by
  rw [Table.size_ne_zero_iff, isCovered, List.any_eq_true]
  constructor
  · rintro ⟨key, x, hx⟩
    rw [get?_port hport, Option.bind_eq_some_iff] at hx
    obtain ⟨v, hkey, hvalue⟩ := hx
    rw [Variable.portValue?] at hvalue
    split at hvalue
    · next hcovers => exact ⟨v, Table.mem_values_iff.2 ⟨key, hkey⟩, hcovers⟩
    · exact absurd hvalue (by simp)
  · rintro ⟨v, hv, hcovers⟩
    obtain ⟨key, hkey⟩ := Table.mem_values_iff.1 hv
    obtain ⟨x, hx⟩ := exists_portValue? hport hkey hcovers
    exact ⟨key, x, by simp [get?_port hport, hkey, hx]⟩

/-! ## All ports -/

theorem bind_eq_ok_iff : t.bind h tick vs = .ok b ↔
    ∃ ports, vs.entries.foldlM (t.bindShared h tick) .empty = .ok b.shared ∧
      t.ports.mapM (t.bindPort h tick vs) = .ok ports ∧
      b.ports = ports.filter fun port => port.values.size != 0 := by
  simp only [bind, Outcome.bind_eq_ok, Outcome.pure_eq, Except.ok.injEq]
  constructor
  · rintro ⟨shared, hshared, ports, hports, rfl⟩
    exact ⟨ports, hshared, hports, rfl⟩
  · rintro ⟨ports, hshared, hports, hb⟩
    exact ⟨_, hshared, ports, hports, by simp [← hb]⟩

/-- What is bound for all evaluations under a key. -/
theorem get?_shared (hbind : t.bind h tick vs = .ok b) (key : String) :
    b.shared.get? key = (vs.get? key).bind fun v => v.sharedValue? t h tick := by
  obtain ⟨ports, hshared, -, -⟩ := bind_eq_ok_iff.1 hbind
  have hget := Table.foldlM_get? (fun v => v.sharedValue? t h tick) ?step vs.keys_nodup hshared key
  case step =>
    intro bound e bound' hstep other
    unfold bindShared at hstep
    split at hstep
    · next hrole =>
      obtain rfl := Except.ok.inj hstep
      simp [Variable.sharedValue?, hrole]
    · next role hrole =>
      split at hstep
      · next port hport =>
        obtain ⟨x, hx⟩ := Variable.exists_value?_of_bindOn h tick hstep
        rw [Variable.get?_bindOn h tick hstep]
        simp [Variable.sharedValue?, hrole, hport, hx]
      · exact absurd hstep (by simp)
  rw [Table.get?_empty, Option.or_none] at hget
  exact hget

/-- The bound ports are the covered ones in the order of the topology. -/
theorem forall₂_ports (hbind : t.bind h tick vs = .ok b) :
    List.Forall₂ (fun port pb => t.bindPort h tick vs port = .ok pb)
      (t.ports.filter (t.isCovered vs.values)) b.ports := by
  obtain ⟨ports, -, hports, hb⟩ := bind_eq_ok_iff.1 hbind
  rw [hb]
  refine List.rel_filter ?_ (Outcome.mapM_eq_ok_iff.1 hports)
  intro port pb hport
  simp [← size_port_ne_zero_iff hport]

/-- Among the values on some ports, leaving out ports without any makes no difference to the first
value of a key. -/
theorem findSome?_of_forall₂ {all : List PhysicalPort} {ports : List PortBinding}
    (hports : List.Forall₂ (fun port pb => t.bindPort h tick vs port = .ok pb) all ports)
    (hkey : vs.get? key = some v) :
    (ports.filter fun pb => pb.values.size != 0).findSome? (fun pb => pb.values.get? key) =
      all.findSome? (v.portValue? t h tick) := by
  induction hports with
  | nil => rfl
  | @cons port pb _ _ hport _ ih =>
    have hget : pb.values.get? key = v.portValue? t h tick port := by
      rw [get?_port hport, hkey, Option.bind_some]
    -- A port that is left out has no value under any key, so none under this one.
    by_cases hsize : pb.values.size = 0
    · have hnone : v.portValue? t h tick port = none := by
        rw [← hget, Option.eq_none_iff_forall_ne_some]
        intro x hx
        exact Table.size_ne_zero_iff.2 ⟨key, x, hx⟩ hsize
      rw [List.filter_cons_of_neg (by simp [hsize]), ih, List.findSome?_cons, hnone]
    · rw [List.filter_cons_of_pos (by simp [hsize]), List.findSome?_cons, List.findSome?_cons, ih,
        hget]

/-- The first bound port with a value for a key is the first port of the topology on which its
variable has one. -/
theorem findSome?_ports (hbind : t.bind h tick vs = .ok b) (hkey : vs.get? key = some v) :
    b.ports.findSome? (fun pb => pb.values.get? key) =
      t.ports.findSome? (v.portValue? t h tick) := by
  obtain ⟨ports, -, hports, hb⟩ := bind_eq_ok_iff.1 hbind
  rw [hb]
  exact findSome?_of_forall₂ (Outcome.mapM_eq_ok_iff.1 hports) hkey

end Topology

end TrafficCheck
