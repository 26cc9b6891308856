import TrafficCheck.Proofs.Lifecycle

/-!
# Roles that no port plays

A variable that names a role which no port plays cannot be bound at any tick. Variables are bound
when a tick is evaluated, so an assertion on such a variable is ignored just if its rule comes to
evaluate a tick or the history is empty; where the rule selects no tick the assertion passes.

## Main definitions

* `Rule.Idle`: the rule selects no tick in a run of a given length.

## Main statements

* `Topology.exists_bind_eq_error`: an unmapped role cannot be bound.
* `Assertion.check_of_unmapped`: what a check makes of an assertion on an unmapped role.
-/

namespace TrafficCheck

/-! ## Idle rules -/

namespace Rule

variable {r : Rule} {n : Nat}

/-- Whether a rule selects no tick in a run of `n` samples, since the run has no forward tick or the
span lies outside of it. -/
def Idle (r : Rule) (n : Nat) : Prop :=
  match r with
  | .last | .anyExceptLast => False
  | .any => n ≤ 1
  | .span s => n ≤ 1 ∨ n / 2 < s.first ∨ s.last = 0

instance : (r : Rule) → (n : Nat) → Decidable (r.Idle n)
  | .last, _ | .anyExceptLast, _ => inferInstanceAs (Decidable False)
  | .any, n => inferInstanceAs (Decidable (n ≤ 1))
  | .span s, n => inferInstanceAs (Decidable (n ≤ 1 ∨ n / 2 < s.first ∨ s.last = 0))

theorem idle_iff : r.Idle n ↔ ∀ tick, ¬r.Selects n tick := by
  cases r with
  | last => simp [Idle, Selects]
  | anyExceptLast =>
    simp only [Idle, Selects, false_iff]
    exact fun hnone => hnone 0 (.inl rfl)
  | any =>
    simp only [Idle, Selects]
    constructor
    · intro hidle tick
      omega
    · intro hnone
      have hfirst := hnone 1
      omega
  | span s =>
    have hspan := s.first_le_last
    simp only [Idle, Selects]
    constructor
    · intro hidle tick
      omega
    · intro hnone
      -- The first tick of the first second that the span and the run can share.
      have hfirst := hnone (2 * max 1 s.first - 1)
      omega

theorem checkpoints_eq_nil_iff : r.checkpoints n = [] ↔ r.Idle n := by
  rw [idle_iff, List.eq_nil_iff_forall_not_mem]
  constructor
  · intro hnone tick htick
    exact hnone (tick, r.asked tick) (mem_checkpoints_iff.2 ⟨htick, rfl⟩)
  · intro hnone c hc
    exact hnone c.1 (mem_checkpoints_iff.1 hc).1

end Rule

/-! ## Runs without bindings -/

namespace Window

variable {ε : Type} {observe : Nat → Except ε TickResult} {len : Nat} {r : Rule}

theorem scan_of_unresolved (hobserve : ∀ tick, ∃ reason, observe tick = .ok (.unresolved reason))
    {checkpoints : List (Nat × Bool)} (hne : checkpoints ≠ []) :
    ∃ reason, scan len observe checkpoints = .ok (.ignored reason) := by
  obtain ⟨c, rest, rfl⟩ := List.exists_cons_of_ne_nil hne
  obtain ⟨reason, hreason⟩ := hobserve c.1
  exact ⟨reason, by rw [scan, hreason]; rfl⟩

/-- A rule that cannot be evaluated anywhere is ignored as soon as it selects a tick. -/
theorem run_of_unresolved (hobserve : ∀ tick, ∃ reason, observe tick = .ok (.unresolved reason))
    (hrun : len = 0 ∨ ¬r.Idle len) : ∃ reason, run r len observe = .ok (.ignored reason) := by
  by_cases hlen : len = 0
  · exact ⟨_, by rw [run, if_pos hlen]; rfl⟩
  · have hcheckpoints := mt Rule.checkpoints_eq_nil_iff.1 (hrun.resolve_left hlen)
    obtain ⟨reason, hscan⟩ := scan_of_unresolved hobserve hcheckpoints
    exact ⟨reason, by rw [run, if_neg hlen, hscan]⟩

/-- An idle rule passes without any evaluation. -/
theorem run_of_idle (hlen : 1 ≤ len) (hidle : r.Idle len) :
    run r len observe = .ok .passed := by
  rw [run, if_neg (Nat.ne_of_gt hlen), Rule.checkpoints_eq_nil_iff.2 hidle]
  rfl

end Window

/-! ## Unmapped roles -/

variable {t : Topology} {h : History} {tick : Nat} {v : Variable} {k : PortKind} {number : UInt32}

/-- A role that no port plays cannot be bound. -/
theorem Topology.exists_bind_eq_error {vs : Table String Variable} (hv : v ∈ vs.values)
    (hscope : v.scope = .exact k number)
    (hunmapped : t.mapping.physicalFor? ⟨k, some number⟩ = none) :
    ∃ reason, t.bind h tick vs = .error reason := by
  obtain ⟨e, he, rfl⟩ := List.mem_map.1 hv
  cases hbind : t.bind h tick vs with
  | error reason => exact ⟨reason, rfl⟩
  | ok b =>
    rw [bind, Outcome.bind_eq_ok] at hbind
    obtain ⟨shared, hshared, -⟩ := hbind
    obtain ⟨bound, bound', hstep⟩ := Outcome.step_of_foldlM hshared he
    exact absurd hstep (by simp [bindShared, hscope, Scope.role?, hunmapped])

namespace Assertion

variable {a : Assertion}

theorem exists_observe_eq_unresolved (hv : v ∈ a.inputs.values) (hscope : v.scope = .exact k number)
    (hunmapped : t.mapping.physicalFor? ⟨k, some number⟩ = none) (tick : Nat) :
    ∃ reason, a.observe t h tick = .ok (.unresolved reason) := by
  obtain ⟨reason, hbind⟩ := Topology.exists_bind_eq_error hv hscope hunmapped
  exact ⟨reason.message, by rw [observe, hbind]⟩

/-- An active assertion with a variable of an unmapped role is ignored, and counts as neither passed
nor failed, where the history is empty or the rule selects a tick. Where the rule selects no tick of
a run it stays as it is and counts as passed. -/
theorem check_of_unmapped (hactive : a.isActive = true) (hv : v ∈ a.inputs.values)
    (hscope : v.scope = .exact k number)
    (hunmapped : t.mapping.physicalFor? ⟨k, some number⟩ = none) (h : History) :
    ∃ a', (a.check t h).outcome = .ok a' ∧
      (h.size = 0 ∨ ¬a.rule.Idle h.size → (∃ reason, a'.outcome = .ignored reason) ∧
        AssertionSet.tally a.file [a'] = ⟨a.file, 0, 0, 1⟩) ∧
      (1 ≤ h.size → a.rule.Idle h.size → a' = a ∧ a'.outcome = .passed ∧
        AssertionSet.tally a.file [a'] = ⟨a.file, 1, 0, 0⟩) := by
  have hobserve := exists_observe_eq_unresolved (t := t) (h := h) hv hscope hunmapped
  rw [outcome_check hactive, verdict]
  by_cases hidle : 1 ≤ h.size ∧ a.rule.Idle h.size
  · have hpassed : a.outcome = .passed := by simp [outcome, isActive_iff.1 hactive]
    rw [Window.run_of_idle hidle.1 hidle.2]
    refine ⟨a, rfl, ?_, fun _ _ => ⟨rfl, hpassed, by simp [AssertionSet.tally, hpassed]⟩⟩
    rintro (hempty | hbusy)
    · omega
    · exact absurd hidle.2 hbusy
  · have hbusy : h.size = 0 ∨ ¬a.rule.Idle h.size := by
      rw [not_and] at hidle
      exact (Nat.eq_zero_or_pos h.size).imp_right hidle
    obtain ⟨reason, hrun⟩ := Window.run_of_unresolved hobserve hbusy
    have hignored := outcome_settle hactive (.ignored reason)
    rw [hrun]
    refine ⟨(a.settle (.ignored reason)).value, rfl,
      fun _ => ⟨⟨reason, hignored⟩, by simp [AssertionSet.tally, hignored]⟩, ?_⟩
    intro hsize hnone
    exact absurd ⟨hsize, hnone⟩ hidle

/-- A role that no port plays is noticed at the third tick, the first one of the span. -/
theorem check_of_unmapped_in_late_span :
    let port : PhysicalPort := ⟨"10.0.0.1", 3⟩
    let mapping : PortMapping := ⟨[(⟨.client, some 1⟩, port)], by decide, by decide, by decide⟩
    let sample (x : Float) : Sample := Table.ofList [(port, Table.ofList [("x", x)])]
    let h : History := ⟨#[sample 0, sample 1, sample 2, sample 3, sample 4]⟩
    ∃ a a', read "SPAN[2:9] cport1.x - sport3.x@sec < 5" "rules" 1 = .ok a ∧
      (a.check (.ofMapping mapping) h).outcome = .ok a' ∧
      ∃ reason, a'.outcome = .ignored reason := by
  intro port mapping sample h
  obtain ⟨a, hread⟩ : ∃ a, read "SPAN[2:9] cport1.x - sport3.x@sec < 5" "rules" 1 = .ok a :=
    ⟨_, rfl⟩
  have hv : (⟨.exact .server 3, "x", some .sec⟩ : Variable) ∈ a.inputs.values := by
    cases hread
    decide
  have hrule : a.rule = .span ⟨2, 9, by decide, by decide⟩ := by cases hread; rfl
  have hactive : a.isActive = true := by cases hread; rfl
  have hbusy : ¬a.rule.Idle h.size := by rw [hrule]; decide
  obtain ⟨a', hcheck, hignored, -⟩ :=
    check_of_unmapped (t := .ofMapping mapping) hactive hv rfl (by decide) h
  exact ⟨a, a', hread, hcheck, (hignored (.inr hbusy)).1⟩

/-- A history of the final sample alone has no forward tick, so that an assertion on a role that no
port plays passes. -/
theorem unmapped_passes_on_single_sample :
    let port : PhysicalPort := ⟨"10.0.0.1", 3⟩
    let mapping : PortMapping := ⟨[(⟨.client, some 1⟩, port)], by decide, by decide, by decide⟩
    let h : History := ⟨#[Table.ofList [(port, Table.ofList [("x", 5)])]]⟩
    ∃ a v, read "ANY cport3.x == 5" "a.assertions" 1 = .ok a ∧ a.isActive = true ∧
      v ∈ a.inputs.values ∧ v.scope = .exact .client 3 ∧
      mapping.physicalFor? ⟨.client, some 3⟩ = none ∧
      (a.check (.ofMapping mapping) h).outcome = .ok a ∧ a.outcome = .passed := by
  intro port mapping h
  refine ⟨_, ⟨.exact .client 3, "x", none⟩, rfl, rfl, by decide, rfl, by decide, ?_, rfl⟩
  rfl

end Assertion

end TrafficCheck
