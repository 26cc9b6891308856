import TrafficCheck.Proofs.Binding
import TrafficCheck.Proofs.EveryPort

/-!
# The two ways of evaluation agree

An evaluation over all ports looks a key up among the shared values first, one on a single port
among the values of the port. The order makes no difference for what is bound at a tick, since a
variable is tied to a single port or leaves its port open: no key has values of both kinds. With one
port or none the two evaluations are therefore the same but for the label in the trace.

## Main definitions

* `TickBinding.IsSeparate`: no key has a shared value and one on a port.
* `Observation.behind`: an observation with the labels of some ports before its trace.

## Main statements

* `Topology.isSeparate_bind`: what is bound at a tick is separate.
* `Topology.merged_of_isWildcard`: where an evaluation over all ports reads a variable.
* `Topology.evaluations_agree`: when and how both evaluations agree.
-/

namespace TrafficCheck

theorem or_comm_of_none {α : Type} {x y : Option α} (h : x.isSome = true → y = none) :
    x.or y = y.or x := by
  cases x with
  | none => simp
  | some a => simp [h rfl]

/-- A search for the first value can look for the first element with one, if it is known which
elements have values. -/
theorem findSome?_eq_bind_find? {α β : Type} {f : α → Option β} {q : α → Bool} {l : List α}
    (h : ∀ a ∈ l, (f a).isSome = q a) : l.findSome? f = (l.find? q).bind f := by
  induction l with
  | nil => rfl
  | cons a l ih =>
    have ha := h a (by simp)
    rw [List.findSome?_cons, List.find?_cons, ih fun b hb => h b (by simp [hb]), ← ha]
    cases hf : f a <;> simp [hf]

namespace TickBinding

variable {b : TickBinding} {port : PortBinding}

/-- No key has a shared value and a value on a port. -/
def IsSeparate (b : TickBinding) : Prop :=
  ∀ port ∈ b.ports, ∀ key, ¬(b.shared.contains key = true ∧ port.values.contains key = true)

theorem IsSeparate.get?_eq_none (h : b.IsSeparate) (hport : port ∈ b.ports) {key : String}
    (hshared : (b.shared.get? key).isSome = true) : port.values.get? key = none := by
  rw [← Option.not_isSome_iff_eq_none]
  exact fun hvalue => h port hport key ⟨hshared, hvalue⟩

/-- On a port, the shared values may be looked up first. -/
theorem IsSeparate.onPort_eq (h : b.IsSeparate) (hport : port ∈ b.ports) (key : String) :
    b.onPort port key = ((b.shared.get? key).or (port.values.get? key)).getD 0 := by
  rw [onPort, or_comm_of_none (h.get?_eq_none hport)]

/-- Over all ports, the shared values may be looked up last. -/
theorem IsSeparate.merged_eq (h : b.IsSeparate) (key : String) :
    b.merged key =
      ((b.ports.findSome? fun port => port.values.get? key).or (b.shared.get? key)).getD 0 := by
  have hnone : (b.shared.get? key).isSome = true →
      b.ports.findSome? (fun port => port.values.get? key) = none := by
    intro hshared
    rw [List.findSome?_eq_none_iff]
    exact fun port hport => h.get?_eq_none hport hshared
  rw [merged, or_comm_of_none hnone]

/-- The only port of a binding is seen as all ports are. -/
theorem IsSeparate.onPort_eq_merged (h : b.IsSeparate) (hports : b.ports = [port]) :
    b.onPort port = b.merged := by
  funext key
  rw [h.onPort_eq (by simp [hports]), merged, hports]
  simp

end TickBinding

/-! ## One port or none -/

/-- An observation with the labels of some ports before its trace. -/
def Observation.behind (ports : List PortBinding) (o : Observation) : Observation :=
  ⟨o.value, String.join (ports.map fun port => port.label ++ ": ") ++ o.trace⟩

/-- With at most one port, an evaluation on this port differs from one over all ports only in the
label before the trace. -/
theorem Program.evaluateTick_of_length_le_one {b : TickBinding} (h : b.IsSeparate)
    (hports : b.ports.length ≤ 1) (p : Program) :
    p.evaluateTick b false = (p.evaluateTick b true).map (Observation.behind b.ports) := by
  match hlist : b.ports with
  | [] =>
    have hsame : p.evaluateTick b false = p.evaluateTick b true := by simp [evaluateTick, hlist]
    rw [hsame]
    cases p.evaluateTick b true <;> simp [Observation.behind]
  | [port] =>
    have hmerged : p.evaluateTick b true = p.observeMerged b := rfl
    rw [evaluateTick_of_ports hlist, hmerged, observeEach, observeOn_eq, observeMerged,
      h.onPort_eq_merged hlist]
    cases p.evaluate b.merged with
    | error e => rfl
    | ok r =>
      simp [Observation.behind, PortBinding.observation, String.join]
      rfl
  | _ :: _ :: _ => simp [hlist] at hports

namespace Topology

variable {t : Topology} {h : History} {tick : Nat} {vs : Table String Variable} {b : TickBinding}
  {v : Variable} {key : String}

/-! ## What is bound at a tick -/

/-- A variable has a shared value if it is tied to a single port, and values on ports if it is
not. -/
theorem isSeparate_bind (hbind : t.bind h tick vs = .ok b) : b.IsSeparate := by
  have hdescribes := describes_bind hbind
  rintro pb hpb key ⟨hshared, hvalue⟩
  obtain ⟨v, k, number, hkey, hscope⟩ := (hdescribes.contains_shared_iff key).1 hshared
  obtain ⟨port, hport⟩ := exists_of_forall₂ hdescribes.ports.flip hpb
  obtain ⟨w, hkey', happlies⟩ := (hport.contains_iff key).1 hvalue
  obtain rfl := Option.some.inj (hkey.symm.trans hkey')
  simp [Variable.Applies, hscope] at happlies

/-- Where something is bound, a variable has a value on every port of the run to which it
applies. -/
theorem isSome_portValue? (hbind : t.bind h tick vs = .ok b) (hkey : vs.get? key = some v)
    {port : PhysicalPort} (hport : port ∈ t.ports) :
    (v.portValue? t h tick port).isSome = decide (v.Applies t.mapping port) := by
  have hcovers : decide (v.Applies t.mapping port) =
      v.scope.covers (t.mapping.logicalFor? port) := by
    rw [Bool.eq_iff_iff, decide_eq_true_iff, Variable.applies_iff]
  rw [hcovers, Variable.portValue?]
  split
  · next happlies =>
    have hlacks := not_lacks_of_bind hbind (Table.mem_values_iff.2 ⟨key, hkey⟩) (.noSamples port)
    rw [happlies, Variable.isSome_value?, Option.isSome_iff_ne_none]
    exact fun hnone =>
      hlacks (.inr ⟨port, .inr ⟨hport, Variable.applies_iff.2 happlies⟩, hnone, rfl⟩)
  · next happlies => simpa using happlies

/-- An evaluation over all ports reads a variable that leaves its port open on the first port of the
run to which it applies, and reads zero if there is none. -/
theorem merged_of_isWildcard (hbind : t.bind h tick vs = .ok b) (hkey : vs.get? key = some v)
    (hwildcard : v.scope.isWildcard = true) :
    match t.ports.find? fun port => v.Applies t.mapping port with
    | some port => v.value? h tick port = some (b.merged key)
    | none => b.merged key = 0 := by
  have hshared : v.sharedValue? t h tick = none := by
    cases hscope : v.scope with
    | any | kind k => simp [Variable.sharedValue?, hscope, Scope.role?]
    | exact k number => simp [hscope, Scope.isWildcard] at hwildcard
  have hmerged : b.merged key =
      ((t.ports.find? fun port => v.Applies t.mapping port).bind
        (v.portValue? t h tick)).getD 0 := by
    rw [TickBinding.merged, get?_shared hbind, hkey, Option.bind_some, hshared, Option.none_or,
      findSome?_ports hbind hkey, findSome?_eq_bind_find? fun port hport =>
        isSome_portValue? hbind hkey hport]
  cases hfind : t.ports.find? fun port => v.Applies t.mapping port with
  | none => simp [hmerged, hfind]
  | some port =>
    have happlies : v.Applies t.mapping port := by simpa using List.find?_some hfind
    have hsome := isSome_portValue? hbind hkey (List.mem_of_find?_eq_some hfind)
    obtain ⟨x, hx⟩ := Option.isSome_iff_exists.1 (hsome.trans (decide_eq_true happlies))
    have hvalue : v.value? h tick port = some x := by
      rwa [Variable.portValue?, if_pos (Variable.applies_iff.1 happlies)] at hx
    simp [hmerged, hfind, hx, hvalue]

/-- Evaluations over all ports and on single ports agree on what is bound at a tick. No key has both
a shared value and one on a port, so that it does not matter which is looked up first. With at most
one port both evaluations of any program have the same value or the same error, and only the label
of the port before the trace tells them apart. With any number of ports, an evaluation over all of
them reads every variable that leaves its port open on the first port of the run to which it
applies, and reads zero only if there is no such port. -/
theorem evaluations_agree (hbind : t.bind h tick vs = .ok b) :
    (∀ port ∈ b.ports, ∀ key, ¬(b.shared.contains key = true ∧ port.values.contains key = true)) ∧
    ((∀ key, b.merged key =
        ((b.ports.findSome? fun port => port.values.get? key).or (b.shared.get? key)).getD 0) ∧
      ∀ port ∈ b.ports, ∀ key,
        b.onPort port key = ((b.shared.get? key).or (port.values.get? key)).getD 0) ∧
    (b.ports.length ≤ 1 → ∀ p : Program,
      p.evaluateTick b false = (p.evaluateTick b true).map (Observation.behind b.ports)) ∧
    (∀ p : Program, p.evaluateTick b true =
      (p.evaluate b.merged).map fun r => ⟨r.value, r.reads.trace⟩) ∧
    ∀ key v, vs.get? key = some v → v.scope.isWildcard = true →
      match t.ports.find? fun port => v.Applies t.mapping port with
      | some port => v.value? h tick port = some (b.merged key)
      | none => b.merged key = 0 := by
  have hseparate := isSeparate_bind hbind
  exact ⟨hseparate, ⟨hseparate.merged_eq, fun port hport => hseparate.onPort_eq hport⟩,
    Program.evaluateTick_of_length_le_one hseparate, fun p => rfl,
    fun key v => merged_of_isWildcard hbind⟩

/-- A client port is the only one that contributes, and is read behind the server port that is
listed first, whose counter is shared. -/
theorem evaluations_agree_on_client_port :
    let server : PhysicalPort := ⟨"10.0.0.2", 1⟩
    let client : PhysicalPort := ⟨"10.0.0.1", 1⟩
    let t : Topology := ofRun ⟨[(⟨.server, some 1⟩, server), (⟨.client, some 1⟩, client)],
      by decide, by decide, by decide⟩ [client, server]
    let h : History := ⟨#[Table.ofList [(client, Table.ofList [("x", 5)]),
      (server, Table.ofList [("y", 2)])]]⟩
    let vs : Table String Variable := Table.ofList [("cport.x", ⟨.kind .client, "x", none⟩),
      ("sport1.y", ⟨.exact .server 1, "y", none⟩)]
    ∃ b, t.bind h 0 vs = .ok b ∧ b.ports.length ≤ 1 ∧
      (∀ p : Program, p.evaluateTick b false =
        (p.evaluateTick b true).map (Observation.behind b.ports)) ∧
      t.ports = [server, client] ∧ b.merged "cport.x" = 5 := by
  intro server client t h vs
  have hsize : (t.bind h 0 vs).map (fun b => b.ports.length) = .ok 1 := by
    simp only [t, h, vs, server, client]
    rfl
  cases hbind : t.bind h 0 vs with
  | error reason => simp [hbind] at hsize
  | ok b =>
    rw [hbind] at hsize
    have hlength : b.ports.length ≤ 1 := Nat.le_of_eq (Except.ok.inj hsize)
    obtain ⟨-, -, hlabel, -, hfirst⟩ := evaluations_agree hbind
    have hread : Variable.value? ⟨.kind .client, "x", none⟩ h 0 client =
        some (b.merged "cport.x") := hfirst "cport.x" ⟨.kind .client, "x", none⟩ rfl rfl
    have hvalue : Variable.value? ⟨.kind .client, "x", none⟩ h 0 client = some 5 := by
      simp only [h, server, client]
      rfl
    exact ⟨b, rfl, hlength, hlabel hlength, rfl, Option.some.inj (hread.symm.trans hvalue)⟩

end Topology

end TrafficCheck
