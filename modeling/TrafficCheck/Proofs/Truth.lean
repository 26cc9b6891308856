import TrafficCheck.Proofs.Bound
import TrafficCheck.Proofs.Collection
import TrafficCheck.Proofs.Meaning
import TrafficCheck.Proofs.Postorder
import TrafficCheck.Proofs.Verdict

/-!
# Truth at a tick

When an expression holds at a tick, said of its tree, of the ports of a topology and of the counters
of a history alone. An assertion that was read from a writing of the tree observes just this.

## Main definitions

* `Expression.contributors`: the ports that an expression reads over.
* `Expression.Holds`: the truth of an expression at a tick.

## Main statements

* `Assertion.Expresses.observe_isTrue_iff`: an observation is true just if the expression holds.
* `Assertion.Expresses.exists_observe`: where there is no division by zero there is an observation.
-/

namespace TrafficCheck

/-! ## Valuations -/

/-- The valuation in which every counter reference has the value of the variable that it means. -/
def Valuation.of (value : Variable → Float) : Valuation := fun name modifier =>
  match Variable.read name modifier with
  | .ok v => value v
  | .error _ => 0

/-- The value of a variable for an evaluation on one port: on that port if the variable covers it,
else on the port of its own role, else zero. -/
def Variable.valueOn (t : Topology) (h : History) (tick : Nat) (port : PhysicalPort)
    (v : Variable) : Float :=
  ((v.portValue? t h tick port).or (v.sharedValue? t h tick)).getD 0

/-- The value of a variable for an evaluation over all ports: on the port of its own role, else on
the first port of the topology with a value for it, else zero. -/
def Variable.mergedValue (t : Topology) (h : History) (tick : Nat) (v : Variable) : Float :=
  ((v.sharedValue? t h tick).or (t.ports.findSome? (v.portValue? t h tick))).getD 0

namespace Expression

/-- The ports of a topology that some variable of an expression covers. -/
def contributors (e : Expression) (t : Topology) : List PhysicalPort :=
  t.ports.filter (t.isCovered e.inputs)

/-- The valuations that count at a tick: one for each contributing port, or a single one over all
ports if there is none or the variables reach over both kinds of ports. -/
def valuations (e : Expression) (t : Topology) (h : History) (tick : Nat) : List Valuation :=
  if Variable.isMultiport e.inputs || (e.contributors t).isEmpty then
    [.of (Variable.mergedValue t h tick)]
  else (e.contributors t).map fun port => .of (Variable.valueOn t h tick port)

/-- Whether an expression is true at a tick. -/
def Holds (e : Expression) (t : Topology) (h : History) (tick : Nat) : Prop :=
  ∀ f ∈ e.valuations t h tick, e.IsTrue f

/-- Whether no evaluation of an expression at a tick divides by zero. -/
def Defined (e : Expression) (t : Topology) (h : History) (tick : Nat) : Prop :=
  ∀ f ∈ e.valuations t h tick, ∃ v, e.value? f = some v

variable {e : Expression} {t : Topology} {h : History} {tick : Nat} {vs : Table String Variable}
  {b : TickBinding} {port : PhysicalPort} {pb : PortBinding}

/-! ## Lookups -/

/-- A lookup gives every counter of an expression the value it has in a valuation. -/
def Agrees (e : Expression) (f : Valuation) (lookup : String → Float) : Prop :=
  ∀ c ∈ e.references, Valuation.keyed lookup c.1 c.2 = f c.1 c.2

theorem isCovered_collect (hcollect : Variable.collect e.postorder = .ok vs)
    (he : ∀ t ∈ e.postorder, t.WellNamed) :
    t.isCovered vs.values port = t.isCovered e.inputs port := by
  rw [Bool.eq_iff_iff]
  simp only [Topology.isCovered, List.any_eq_true, mem_values_collect_iff hcollect he]

theorem agrees_onPort (hcollect : Variable.collect e.postorder = .ok vs)
    (he : ∀ t ∈ e.postorder, t.WellNamed) (hbind : t.bind h tick vs = .ok b)
    (hport : t.bindPort h tick vs port = .ok pb) :
    e.Agrees (.of (Variable.valueOn t h tick port)) (b.onPort pb) := by
  rintro ⟨name, modifier⟩ hc
  obtain ⟨v, hread, hkey⟩ := Variable.get?_collect hcollect he (mem_references_iff.1 hc)
  simp [Valuation.keyed, Valuation.of, TickBinding.onPort, Variable.valueOn, hread, hkey,
    Topology.get?_port hport, Topology.get?_shared hbind]

theorem agrees_merged (hcollect : Variable.collect e.postorder = .ok vs)
    (he : ∀ t ∈ e.postorder, t.WellNamed) (hbind : t.bind h tick vs = .ok b) :
    e.Agrees (.of (Variable.mergedValue t h tick)) b.merged := by
  rintro ⟨name, modifier⟩ hc
  obtain ⟨v, hread, hkey⟩ := Variable.get?_collect hcollect he (mem_references_iff.1 hc)
  simp [Valuation.keyed, Valuation.of, TickBinding.merged, Variable.mergedValue, hread, hkey,
    Topology.findSome?_ports hbind, Topology.get?_shared hbind]

/-- The lookups at a tick are the valuations that count. -/
theorem forall₂_lookups (hcollect : Variable.collect e.postorder = .ok vs)
    (he : ∀ t ∈ e.postorder, t.WellNamed) (hbind : t.bind h tick vs = .ok b) :
    List.Forall₂ e.Agrees (e.valuations t h tick)
      (b.lookups (Variable.isMultiport vs.values)) := by
  have hports := Topology.forall₂_ports hbind
  have hcovered : t.isCovered vs.values = t.isCovered e.inputs :=
    funext fun port => isCovered_collect hcollect he
  rw [hcovered] at hports
  have hempty : b.ports.isEmpty = (e.contributors t).isEmpty := by
    have hlength := hports.length_eq
    rw [Bool.eq_iff_iff, List.isEmpty_iff_length_eq_zero, List.isEmpty_iff_length_eq_zero,
      contributors, hlength]
  rw [valuations, TickBinding.lookups, isMultiport_collect hcollect he, hempty]
  split
  · exact .cons (agrees_merged hcollect he hbind) .nil
  · rw [List.forall₂_map_left_iff, List.forall₂_map_right_iff]
    exact hports.imp fun port pb hport => agrees_onPort hcollect he hbind hport

end Expression

/-! ## Observations -/

/-- Properties that agree on related elements hold of all elements of related lists alike. -/
theorem forall_iff_of_forall₂ {α β : Type} {R : α → β → Prop} {P : α → Prop} {Q : β → Prop}
    {l : List α} {l' : List β} (hl : List.Forall₂ R l l') (hiff : ∀ a b, R a b → (P a ↔ Q b)) :
    (∀ a ∈ l, P a) ↔ ∀ b ∈ l', Q b := by
  induction hl with
  | nil => simp
  | cons hab _ ih => rw [List.forall_mem_cons, List.forall_mem_cons, hiff _ _ hab, ih]

namespace Assertion

/-- An assertion evaluates the postorder of an expression over the variables of that expression. -/
structure Expresses (a : Assertion) (e : Expression) : Prop where
  program : a.program = e.postorder
  inputs : Variable.collect e.postorder = .ok a.inputs
  multiport : a.multiport = Variable.isMultiport a.inputs.values
  names : ∀ t ∈ e.postorder, t.WellNamed

variable {expression file : String} {line tick : Nat} {r : Rule} {ts : List Token} {a : Assertion}
  {e : Expression} {t : Topology} {h : History} {b : TickBinding} {o : Observation}

/-- An assertion read from a rule and a writing of an expression has that rule and expresses that
expression. -/
theorem expresses_of_read (htokens : Token.ofAssertion expression = .ok (r, ts))
    (he : Written Operator.loosest e ts) (hread : read expression file line = .ok a) :
    a.Expresses e ∧ a.rule = r ∧ a.isActive = true := by
  obtain ⟨r', ts', program, inputs, htokens', hcompile, hinputs, rfl⟩ := read_eq_ok_iff.1 hread
  rw [htokens] at htokens'
  obtain ⟨rfl, rfl⟩ := Prod.mk.inj (Except.ok.inj htokens')
  have harrange : Program.arrange expression ts = .ok e.postorder := Program.arrange_written he
  have hprogram : e.postorder = program := by
    rw [(Program.compile_eq_ok_iff.1 hcompile).1] at harrange
    exact (Except.ok.inj harrange).symm
  subst hprogram
  have hnames : ∀ t ∈ e.postorder, t.WellNamed := by
    intro t ht
    have hmem := (Program.arrange_perm harrange).mem_iff.1 ht
    exact Token.wellNamed_of_ofAssertion htokens t (List.mem_filter.1 hmem).1
  exact ⟨⟨rfl, hinputs, rfl, hnames⟩, rfl, by simp [isActive]⟩

theorem Expresses.forall₂_lookups (ha : a.Expresses e) (hbind : t.bind h tick a.inputs = .ok b) :
    List.Forall₂ e.Agrees (e.valuations t h tick) (b.lookups a.multiport) := by
  rw [ha.multiport]
  exact Expression.forall₂_lookups ha.inputs ha.names hbind

/-- An observation is true just if the expression holds. -/
theorem Expresses.observe_isTrue_iff (ha : a.Expresses e) (hbind : t.bind h tick a.inputs = .ok b)
    (hobserve : a.observe t h tick = .ok (.evaluated o)) :
    o.value.isTrue = true ↔ e.Holds t h tick := by
  have htick : a.program.evaluateTick b a.multiport = .ok o := by
    simp only [observe, hbind] at hobserve
    cases heval : a.program.evaluateTick b a.multiport with
    | error cause => exact absurd hobserve (by simp [heval])
    | ok o' => simpa [heval] using hobserve
  rw [Program.evaluateTick_isTrue_iff htick, ha.program]
  refine (forall_iff_of_forall₂ (ha.forall₂_lookups hbind) ?_).symm
  intro f lookup hagrees
  exact (Program.isTrueUnder_postorder_iff hagrees).symm

/-- Where no evaluation divides by zero there is an observation. -/
theorem Expresses.exists_observe (ha : a.Expresses e) (hbind : t.bind h tick a.inputs = .ok b)
    (hdefined : e.Defined t h tick) : ∃ o, a.observe t h tick = .ok (.evaluated o) := by
  have hvalues : ∀ lookup ∈ b.lookups a.multiport,
      ∃ r, Program.evaluate lookup e.postorder = .ok r := by
    refine (forall_iff_of_forall₂ (ha.forall₂_lookups hbind) ?_).1 hdefined
    intro f lookup hagrees
    exact (Program.exists_evaluate_postorder_iff hagrees).symm
  simp only [observe, hbind]
  cases heval : a.program.evaluateTick b a.multiport with
  | ok o => exact ⟨o, rfl⟩
  | error cause =>
    obtain ⟨lookup, hlookup, herror⟩ := Program.evaluateTick_eq_error heval
    obtain ⟨r, hr⟩ := hvalues lookup hlookup
    rw [ha.program, hr] at herror
    exact absurd herror (by simp)

end Assertion

end TrafficCheck
