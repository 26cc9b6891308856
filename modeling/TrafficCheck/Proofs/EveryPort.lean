import TrafficCheck.Proofs.Ticks

/-!
# Evaluation on every port

Unless its variables reach over both kinds of ports, a program is evaluated on the contributing
ports in turn. The first port on which it is not true decides the tick, and the last port does if
there is none; what stands behind the deciding port is not looked at. So a tick is true just if the
program is true on all its ports, in whatever order and however often they are listed.

## Main definitions

* `PortBinding.observation`: what an evaluation on a port shows.
* `Program.Decides`: the port that decides a tick.

## Main statements

* `Program.observeEach_of_split`: ports on which a program is true are passed by.
* `Program.evaluateTick_of_decides`: what the deciding port shows is the result of the tick.
* `Program.tick_is_conjunction`: a tick is a conjunction over its ports.
-/

namespace TrafficCheck

/-- What an evaluation on a port shows: its value, and its trace behind the label of the port. -/
def PortBinding.observation (port : PortBinding) (r : Evaluation) : Observation :=
  ⟨r.value, s!"{port.label}: {r.reads.trace}"⟩

namespace Program

variable {p : Program} {b : TickBinding} {port next : PortBinding}
  {ports before after rest : List PortBinding}

/-- The ports of a tick are cut at the one that decides it: the program is true on all ports before,
and not true on this one unless it is the last. -/
structure Decides (p : Program) (b : TickBinding) (before : List PortBinding) (port : PortBinding)
    (after : List PortBinding) : Prop where
  ports_eq : b.ports = before ++ port :: after
  true_before : ∀ q ∈ before, p.IsTrueUnder (b.onPort q)
  not_true : after ≠ [] → ¬p.IsTrueUnder (b.onPort port)

/-! ## Ports in turn -/

theorem observeOn_eq (p : Program) (b : TickBinding) (port : PortBinding) :
    p.observeOn b port = (p.evaluate (b.onPort port)).map port.observation := rfl

/-- A port on which the program is true is passed by, if there is another one. -/
theorem observeEach_of_isTrue (h : p.IsTrueUnder (b.onPort port)) :
    p.observeEach b port (next :: rest) = p.observeEach b next rest := by
  obtain ⟨r, hr, htrue⟩ := h
  rw [observeEach, observeOn_eq, hr, Outcome.map_ok, Outcome.ok_bind]
  exact if_pos htrue

/-- A port on which the program fails or is false ends the evaluation. -/
theorem observeEach_of_not_isTrue (h : ¬p.IsTrueUnder (b.onPort port)) :
    p.observeEach b port rest = p.observeOn b port := by
  cases rest with
  | nil => rfl
  | cons next rest =>
    rw [observeEach]
    cases hobserve : p.observeOn b port with
    | error e => rfl
    | ok o =>
      have hfalse : ¬o.value.isTrue = true := mt (observeOn_isTrue_iff hobserve).1 h
      exact if_neg hfalse

/-- All ports before the first one on which the program is not true are passed by. -/
theorem observeEach_of_split (hbefore : ∀ q ∈ before, p.IsTrueUnder (b.onPort q))
    (hsplit : next :: rest = before ++ port :: after) :
    p.observeEach b next rest = p.observeEach b port after := by
  induction before generalizing next rest with
  | nil =>
    obtain ⟨rfl, rfl⟩ := List.cons.inj hsplit
    rfl
  | cons q before ih =>
    obtain ⟨rfl, hrest⟩ := List.cons.inj hsplit
    obtain ⟨hq, hbefore⟩ := List.forall_mem_cons.1 hbefore
    cases rest with
    | nil => exact absurd hrest (by simp)
    | cons q' rest =>
      rw [observeEach_of_isTrue hq]
      exact ih hbefore hrest

/-! ## The deciding port -/

theorem evaluateTick_of_ports (h : b.ports = next :: rest) :
    p.evaluateTick b false = p.observeEach b next rest := by
  simp [evaluateTick, h]

/-- Every tick with a port has one that decides it. -/
theorem exists_decides (p : Program) (h : b.ports ≠ []) :
    ∃ before port after, p.Decides b before port after := by
  have hsplit : ∀ ports : List PortBinding, ports ≠ [] → ∃ before port after,
      ports = before ++ port :: after ∧ (∀ q ∈ before, p.IsTrueUnder (b.onPort q)) ∧
        (after ≠ [] → ¬p.IsTrueUnder (b.onPort port)) := by
    intro ports hne
    induction ports with
    | nil => exact absurd rfl hne
    | cons port rest ih =>
      by_cases hport : p.IsTrueUnder (b.onPort port) ∧ rest ≠ []
      · obtain ⟨before, q, after, rfl, hbefore, hq⟩ := ih hport.2
        exact ⟨port :: before, q, after, rfl, List.forall_mem_cons.2 ⟨hport.1, hbefore⟩, hq⟩
      · exact ⟨[], port, rest, rfl, by simp, fun hrest htrue => hport ⟨htrue, hrest⟩⟩
  obtain ⟨before, port, after, hports, hbefore, hport⟩ := hsplit b.ports h
  exact ⟨before, port, after, hports, hbefore, hport⟩

/-- The result of a tick is what its deciding port shows. -/
theorem evaluateTick_of_decides (h : p.Decides b before port after) :
    p.evaluateTick b false = (p.evaluate (b.onPort port)).map port.observation := by
  obtain ⟨next, rest, hports⟩ : ∃ next rest, b.ports = next :: rest :=
    List.exists_cons_of_ne_nil (by simp [h.ports_eq])
  rw [evaluateTick_of_ports hports,
    observeEach_of_split h.true_before (hports.symm.trans h.ports_eq)]
  by_cases hafter : after = []
  · rw [hafter]
    rfl
  · exact observeEach_of_not_isTrue (h.not_true hafter)

/-! ## All ports -/

/-- Where the program fails on no port, the tick has a result, which is true just if the program is
true on every port. -/
theorem exists_evaluateTick (h : b.ports ≠ [])
    (hports : ∀ port ∈ b.ports, ∃ r, p.evaluate (b.onPort port) = .ok r) :
    ∃ o, p.evaluateTick b false = .ok o ∧
      (o.value.isTrue = true ↔ ∀ port ∈ b.ports, p.IsTrueUnder (b.onPort port)) := by
  obtain ⟨before, port, after, hdecides⟩ := exists_decides p h
  obtain ⟨r, hr⟩ := hports port (by simp [hdecides.ports_eq])
  have htick : p.evaluateTick b false = .ok (port.observation r) := by
    rw [evaluateTick_of_decides hdecides, hr, Outcome.map_ok]
  refine ⟨_, htick, ?_⟩
  rw [evaluateTick_isTrue_iff htick]
  simp [TickBinding.lookups, h]

/-- A tick over ports of one kind is a conjunction over its ports. Some port decides it, and the
result is the error of the program on that port, or its value there under the label of the port. If
the program fails on no port, the tick is true just if the program is true on every port, and so it
is for every list of the same ports, in any order and with any repetitions. -/
theorem tick_is_conjunction (p : Program) (b : TickBinding) (h : b.ports ≠ []) :
    (∃ before port after, p.Decides b before port after) ∧
    (∀ before port after, p.Decides b before port after →
      p.evaluateTick b false = (p.evaluate (b.onPort port)).map port.observation) ∧
    ((∀ port ∈ b.ports, ∃ r, p.evaluate (b.onPort port) = .ok r) →
      ∃ o, p.evaluateTick b false = .ok o ∧
        (o.value.isTrue = true ↔ ∀ port ∈ b.ports, p.IsTrueUnder (b.onPort port)) ∧
        ∀ ports : List PortBinding, (∀ port, port ∈ ports ↔ port ∈ b.ports) →
          ∃ o', p.evaluateTick { b with ports } false = .ok o' ∧
            o'.value.isTrue = o.value.isTrue) := by
  refine ⟨exists_decides p h, fun before port after => evaluateTick_of_decides, fun hports => ?_⟩
  obtain ⟨o, htick, htrue⟩ := exists_evaluateTick h hports
  refine ⟨o, htick, htrue, fun ports hsame => ?_⟩
  obtain ⟨q, hq⟩ := List.exists_mem_of_ne_nil _ h
  have hne : ports ≠ [] := List.ne_nil_of_mem ((hsame q).2 hq)
  -- What the program sees on a port does not depend on the other ports.
  obtain ⟨o', htick', htrue'⟩ := exists_evaluateTick (b := { b with ports }) hne
    fun port hport => hports port ((hsame port).1 hport)
  refine ⟨o', htick', ?_⟩
  rw [Bool.eq_iff_iff, htrue, htrue']
  exact forall_congr' fun port => imp_congr_left (hsame port)

/-- The second of three ports decides with a false value, although the program would divide by zero
on the third. Without the third port, it makes no difference that the others change places and one
of them is listed twice. -/
theorem tick_is_decided_by_second_port :
    let port (label : String) (x : Float) : PortBinding := ⟨label, Table.ofList [("x", x)]⟩
    let p : Program := [.number 6, .reference "x" none, .op .divide, .number 1, .op .greater]
    let b : TickBinding := ⟨.empty, [port "cport1" 2, port "cport2" 9, port "cport3" 0]⟩
    let b' : TickBinding := ⟨.empty, [port "cport1" 2, port "cport2" 9]⟩
    b.ports ≠ [] ∧ p.evaluateTick b false = .ok ⟨.truth false, "cport2: x=9"⟩ ∧
      b'.ports ≠ [] ∧ ∃ o o', p.evaluateTick b' false = .ok o ∧
        p.evaluateTick
          { b' with ports := [port "cport2" 9, port "cport1" 2, port "cport2" 9] } false = .ok o' ∧
        o'.value.isTrue = o.value.isTrue := by
  intro port p b b'
  have hb : b.ports ≠ [] := by simp [b]
  have hb' : b'.ports ≠ [] := by simp [b']
  have htrue : p.evaluate (b.onPort (port "cport1" 2)) = .ok ⟨.truth true, [("x", 2)]⟩ := by
    simp only [p, b, port]
    rfl
  have hfalse : p.evaluate (b.onPort (port "cport2" 9)) = .ok ⟨.truth false, [("x", 9)]⟩ := by
    simp only [p, b, port]
    rfl
  have hdecides : p.Decides b [port "cport1" 2] (port "cport2" 9) [port "cport3" 0] := by
    refine ⟨rfl, ?_, fun _ => ?_⟩
    · rw [List.forall_mem_singleton]
      exact ⟨_, htrue, rfl⟩
    · rintro ⟨r, hr, hrtrue⟩
      obtain rfl := Except.ok.inj (hfalse.symm.trans hr)
      exact absurd hrtrue (by decide)
  have hresults : ∀ q ∈ b'.ports, ∃ r, p.evaluate (b'.onPort q) = .ok r :=
    List.forall_mem_cons.2 ⟨⟨_, htrue⟩, List.forall_mem_singleton.2 ⟨_, hfalse⟩⟩
  obtain ⟨o, htick, -, hsame⟩ := (tick_is_conjunction p b' hb').2.2 hresults
  obtain ⟨o', htick', hvalue⟩ :=
    hsame [port "cport2" 9, port "cport1" 2, port "cport2" 9] fun q => by grind
  refine ⟨hb, ?_, hb', o, o', htick, htick', hvalue⟩
  rw [(tick_is_conjunction p b hb).2.1 _ _ _ hdecides, hfalse]
  simp only [port]
  rfl

end Program

end TrafficCheck
