import TrafficCheck.Proofs.Dependence

/-!
# Reading the final sample

A plain counter at a forward tick is read from the sample of that tick. The growth of a counter is
read from two samples, and the earlier one is the final sample where a whole window lies between
index 0 and the tick: the window of a modifier reaches the final sample at just one tick.

## Main definitions

* `History.SameRun`: histories that differ in their final samples at most.
* `Variable.ReachesFinal`: the tick at which a variable is read from the final sample as well.

## Main statements

* `Assertion.check_ignores_final_iff`: for which run lengths and modifiers the rules that do not
  select the final sample do not depend on it either.
-/

namespace TrafficCheck

namespace History

variable {h h' : History} {tick window : Nat} {port : PhysicalPort} {counter : String}

/-- Histories of one length that show the same samples at all forward ticks. -/
structure SameRun (h h' : History) : Prop where
  size_eq : h.size = h'.size
  sample_eq : ∀ tick, 1 ≤ tick → h.samples[tick]? = h'.samples[tick]?

/-- Another final sample makes a history of the same run. -/
theorem sameRun_cons (final final' : Sample) (forward : List Sample) :
    SameRun ⟨(final :: forward).toArray⟩ ⟨(final' :: forward).toArray⟩ where
  size_eq := by simp [size]
  sample_eq := by
    intro tick htick
    obtain ⟨k, rfl⟩ := Nat.exists_eq_add_of_le' htick
    simp

theorem SameRun.value?_eq (hrun : h.SameRun h') (htick : 1 ≤ tick) :
    h.value? tick port counter = h'.value? tick port counter := by
  rw [value?, value?, hrun.sample_eq tick htick]

/-- A window that does not end at the tick itself starts behind the final sample or is
extrapolated. -/
theorem SameRun.windowed?_eq (hrun : h.SameRun h') (htick : 1 ≤ tick) (hwindow : window ≠ tick) :
    h.windowed? tick port counter window = h'.windowed? tick port counter window := by
  rw [windowed?, windowed?, hrun.value?_eq htick]
  by_cases hlt : tick < window
  · simp only [hlt, if_true]
  · have hstart : 1 ≤ tick - window := by omega
    simp only [hlt, if_false, hrun.value?_eq hstart]

end History

namespace Variable

variable {v : Variable} {h h' : History} {tick : Nat}

/-- Whether the growth of a counter is taken from the final sample at a forward tick. -/
def ReachesFinal (v : Variable) (tick : Nat) : Prop := ∃ m, v.modifier = some m ∧ m.window = tick

theorem value?_eq_of_sameRun (hrun : h.SameRun h') (htick : 1 ≤ tick) (hv : ¬v.ReachesFinal tick)
    (port : PhysicalPort) : v.value? h tick port = v.value? h' tick port := by
  unfold value?
  split
  · next m hm => exact hrun.windowed?_eq htick fun hwindow => hv ⟨m, hm, hwindow⟩
  · exact hrun.value?_eq htick

end Variable

namespace Assertion

variable {r : Rule} {n : Nat}

/-- Where no window reaches the final sample at a selected tick, a check of a rule that does not
select the final sample does not depend on it, down to the records and the error. -/
theorem check_eq_of_sameRun {a : Assertion} {t : Topology} {h h' : History}
    (hr : a.rule.finalExpectation = none) (hrun : h.SameRun h')
    (hv : ∀ v ∈ a.inputs.values, ∀ tick, a.rule.Selects h.size tick → ¬v.ReachesFinal tick) :
    a.check t h = a.check t h' := by
  refine check_congr hrun.size_eq ?_
  intro tick htick v hmem port
  have hpos := (Rule.forward_of_selects hr htick).1
  exact Variable.value?_eq_of_sameRun hrun hpos (hv v hmem tick htick) port

/-! ## A check that depends on the final sample -/

namespace Steady

/-- The single port of the runs below. -/
def port : PhysicalPort := ⟨"10.0.0.1", 1⟩

/-- The topology of that port. -/
def topology : Topology :=
  ⟨⟨[(⟨.client, some 1⟩, port)], by decide, by decide, by decide⟩, [port]⟩

/-- A sample of one counter. -/
def sample (x : Float) : Sample := Table.ofList [(port, Table.ofList [("x", x)])]

/-- A run of `n` samples in which the counter stays at zero, while the final sample shows `x`. -/
def history (n : Nat) (x : Float) : History :=
  ⟨(sample x :: List.replicate (n - 1) (sample 0)).toArray⟩

/-- The counter of the port with a modifier. -/
def input (m : Modifier) : Variable := ⟨.exact .client 1, "x", some m⟩

/-- The binding key of the counter. -/
def key (m : Modifier) : String := Token.bindingKey "cport1.x" (some m)

/-- The assertion that the counter does not grow. -/
def assertion (r : Rule) (m : Modifier) : Assertion where
  file := "steady"
  line := 1
  expression := r.text ++ " cport1.x@" ++ m.keyword ++ " == 0"
  rule := r
  program := [.reference "cport1.x" (some m), .number 0, .op .equal]
  inputs := Table.empty.insert (key m) (input m)
  multiport := false
  state := .active

variable {m : Modifier} {tick : Nat} {x y : Float}

theorem size_history (hn : 1 ≤ n) (x : Float) : (history n x).size = n := by
  simp only [history, History.size, List.size_toArray, List.length_cons, List.length_replicate]
  omega

theorem sameRun_history (n : Nat) (x y : Float) : (history n x).SameRun (history n y) :=
  History.sameRun_cons (sample x) (sample y) (List.replicate (n - 1) (sample 0))

theorem value?_final (n : Nat) (x : Float) : (history n x).value? 0 port "x" = some x := by
  simp [History.value?, history, sample, Table.ofList, Table.get?_insert]

theorem value?_forward (x : Float) (htick : 1 ≤ tick) (hlt : tick < n) :
    (history n x).value? tick port "x" = some 0 := by
  obtain ⟨k, rfl⟩ := Nat.exists_eq_add_of_le' htick
  have hk : k < n - 1 := by omega
  simp [History.value?, history, sample, Table.ofList, Table.get?_insert, hk]

/-- A counter that stays at zero has no growth, extrapolated or not. -/
theorem extrapolated_eq_zero (m : Modifier) :
    ∀ tick < m.window, ((0 : Float) / (tick + 1).toFloat * m.window.toFloat == 0) = true := by
  cases m <;> decide +kernel

theorem value?_before (x : Float) (htick : 1 ≤ tick) (hlt : tick < n) (hwindow : tick ≠ m.window) :
    ∃ y, (input m).value? (history n x) tick port = some y ∧ (y == 0) = true := by
  have hvalue := value?_forward x htick hlt
  rcases Nat.lt_or_gt_of_ne hwindow with hshort | hlong
  · refine ⟨_, ?_, extrapolated_eq_zero m tick hshort⟩
    simp [input, Variable.value?, History.windowed?, hvalue, hshort]
  · have hearlier : (history n x).value? (tick - m.window) port "x" = some 0 :=
      value?_forward x (by omega) (by omega)
    refine ⟨0 - 0, ?_, by decide⟩
    simp [input, Variable.value?, History.windowed?, hvalue, hearlier, Nat.not_lt_of_gt hlong]

theorem value?_window (x : Float) (hlt : m.window < n) :
    (input m).value? (history n x) m.window port = some (0 - x) := by
  have hpos : 1 ≤ m.window := by cases m <;> decide
  simp [input, Variable.value?, History.windowed?, value?_forward x hpos hlt, value?_final]

/-- The counter is bound for all evaluations, and no port is covered. -/
theorem bind_assertion {h : History} (hvalue : (input m).value? h tick port = some y) :
    topology.bind h tick (assertion r m).inputs = .ok ⟨Table.empty.insert (key m) y, []⟩ := by
  have hshared : topology.bindShared h tick .empty (key m, input m) =
      .ok (Table.empty.insert (key m) y) := by
    change (input m).bindOn h tick port (key m) .empty = _
    rw [Variable.bindOn, hvalue]
  have hports : topology.bindPort h tick (assertion r m).inputs port = .ok ⟨"cport1", .empty⟩ := rfl
  have hentries : (assertion r m).inputs.entries = [(key m, input m)] := rfl
  have hlist : topology.ports = [port] := rfl
  have hsize : (Table.empty : Table String Float).size = 0 := rfl
  simp [Topology.bind, hentries, hshared, hlist, hports, hsize]

theorem observe_assertion {h : History} (hvalue : (input m).value? h tick port = some y) :
    (assertion r m).observe topology h tick =
      .ok (.evaluated ⟨.truth (y == 0), Reads.trace [(key m, y)]⟩) := by
  have hevaluate : ∀ lookup, (assertion r m).program.evaluate lookup =
      .ok ⟨.truth (lookup (key m) == 0), [(key m, lookup (key m))]⟩ := fun _ => rfl
  have hmerged : TickBinding.merged ⟨Table.empty.insert (key m) y, []⟩ (key m) = y := by
    simp [TickBinding.merged, Table.get?_insert]
  rw [observe, bind_assertion hvalue]
  simp [Program.evaluateTick, Program.observeMerged, hevaluate, hmerged]

/-- A run that ends at zero is as expected at every tick. -/
theorem expected_of_zero (hpos : 1 ≤ tick) (hlt : tick < n) :
    Window.Expected ((assertion r m).observe topology (history n 0)) (tick, true) := by
  have hvalue : ∃ y, (input m).value? (history n 0) tick port = some y ∧ (y == 0) = true := by
    by_cases hwindow : tick = m.window
    · subst hwindow
      exact ⟨_, value?_window 0 hlt, by decide⟩
    · exact value?_before 0 hpos hlt hwindow
  obtain ⟨y, hy, hzero⟩ := hvalue
  exact ⟨_, observe_assertion hy, by simp [Value.isTrue, hzero]⟩

/-- A run that ends elsewhere is not as expected where the window reaches the final sample. -/
theorem not_expected_of_one (hlt : m.window < n) :
    ¬Window.Expected ((assertion r m).observe topology (history n 1)) (m.window, true) := by
  rintro ⟨o, hobserve, htrue⟩
  have hnonzero : ((0 : Float) - 1 == 0) = false := by decide
  rw [observe_assertion (value?_window 1 hlt)] at hobserve
  obtain rfl := TickResult.evaluated.inj (Except.ok.inj hobserve)
  exact absurd htrue (by simp [Value.isTrue, hnonzero])

/-- Where a window reaches the final sample at a selected tick, the check depends on it. -/
theorem outcome_ne (hr : r.finalExpectation = none) (hselects : r.Selects n m.window) :
    ((assertion r m).check topology (history n 0)).outcome ≠
      ((assertion r m).check topology (history n 1)).outcome := by
  obtain ⟨-, hlt, hasked⟩ := Rule.forward_of_selects hr hselects
  have hsize (x : Float) : (history n x).size = n := size_history (by omega) x
  have hpos (x : Float) : 0 < (history n x).size := by rw [hsize]; omega
  intro heq
  -- The run that ends at zero passes, so the other one would have to pass as well.
  have hpasses : ∃ b, ((assertion r m).check topology (history n 0)).outcome = .ok b ∧
      b.outcome = .passed := by
    rw [check_passes_iff rfl (hpos 0), hsize]
    rintro ⟨tick, b⟩ hc
    obtain ⟨htick, hb⟩ : r.Selects n tick ∧ b = r.asked tick := Rule.mem_checkpoints_iff.1 hc
    obtain ⟨hone, hbound, htrue⟩ := Rule.forward_of_selects hr htick
    rw [hb, htrue]
    exact expected_of_zero hone hbound
  rw [heq, check_passes_iff rfl (hpos 1), hsize] at hpasses
  have hcheckpoint : (m.window, true) ∈ r.checkpoints n :=
    Rule.mem_checkpoints_iff.2 ⟨hselects, hasked.symm⟩
  exact not_expected_of_one hlt (hpasses _ hcheckpoint)

end Steady

/-- Rules over forward ticks do not depend on the final sample in runs of a given length, for all
assertions with some allowed modifiers, just if the rule selects no tick that lies one window of an
allowed modifier behind the final sample. -/
theorem check_ignores_final_iff (hr : r = .any ∨ ∃ s, r = .span s) (n : Nat)
    (allowed : Modifier → Prop) :
    (∀ a : Assertion, a.rule = r → a.isActive = true →
        (∀ v ∈ a.inputs.values, ∀ m, v.modifier = some m → allowed m) →
        ∀ (t : Topology) (h h' : History), h.size = n → h.SameRun h' →
          (a.check t h).outcome = (a.check t h').outcome) ↔
      ∀ m, allowed m → ¬r.Selects n m.window := by
  have hfinal : r.finalExpectation = none := by
    rcases hr with rfl | ⟨s, rfl⟩ <;> rfl
  constructor
  · intro hsame m hallowed hselects
    have hpos : 1 ≤ n := by
      obtain ⟨hone, hlt, -⟩ := Rule.forward_of_selects hfinal hselects
      omega
    have hinputs : ∀ v ∈ (Steady.assertion r m).inputs.values, ∀ m', v.modifier = some m' →
        allowed m' := by
      intro v hv m' hm'
      obtain rfl := List.mem_singleton.1 hv
      obtain rfl := Option.some.inj hm'
      exact hallowed
    exact Steady.outcome_ne hfinal hselects (hsame _ rfl rfl hinputs _ _ _
      (Steady.size_history hpos 0) (Steady.sameRun_history n 0 1))
  · rintro hwindows a rfl - hinputs t h h' rfl hrun
    rw [check_eq_of_sameRun hfinal hrun]
    rintro v hv tick htick ⟨m, hm, rfl⟩
    exact hwindows m (hinputs v hv m hm) htick

/-- From the third tick on, the growth over a second is taken from forward ticks alone. -/
theorem check_ignores_final_of_late_span :
    ∃ a, read "SPAN[2:3] cport1.x@sec < 100" "growth" 1 = .ok a ∧
      (a.check Steady.topology (Steady.history 7 0)).outcome =
        (a.check Steady.topology (Steady.history 7 9)).outcome := by
  refine ⟨_, rfl, ?_⟩
  have hwindows : ∀ m, m = Modifier.sec →
      ¬Rule.Selects (.span ⟨2, 3, by decide, by decide⟩) 7 m.window := by
    rintro m rfl
    simp [Rule.Selects, Modifier.window]
  refine (check_ignores_final_iff (.inr ⟨_, rfl⟩) 7 (· = .sec)).2 hwindows _ rfl rfl ?_
    Steady.topology _ _ (Steady.size_history (by decide) 0) (Steady.sameRun_history 7 0 9)
  intro v hv m hm
  obtain rfl := List.mem_singleton.1 hv
  exact (Option.some.inj hm).symm

/-- The growth of a counter over the second up to the second tick is taken from the final sample: a
counter that grows at each tick passes if the final sample shows zero and fails if it shows where
the counter ended. -/
theorem growth_depends_on_final_sample :
    let h (x : Float) : History := ⟨#[Steady.sample x, Steady.sample 1, Steady.sample 2]⟩
    (h 0).SameRun (h 2) ∧
    ∃ a, read "ANY cport1.x@sec > 0" "a.assertions" 1 = .ok a ∧
      (a.check Steady.topology (h 0)).outcome.map outcome = .ok .passed ∧
      (a.check Steady.topology (h 2)).outcome.map outcome =
        .ok (.failed (a.failureMessage 1 "cport1.x@sec=0")) := by
  intro h
  let a : Assertion := {
    file := "a.assertions", line := 1, expression := "ANY cport1.x@sec > 0", rule := .any
    program := [.reference "cport1.x" (some .sec), .number 0, .op .greater]
    inputs := Table.empty.insert (Steady.key .sec) (Steady.input .sec)
    multiport := false, state := .active }
  have hread : read "ANY cport1.x@sec > 0" "a.assertions" 1 = .ok a := rfl
  have hpassed : a.verdict Steady.topology (h 0) = .ok .passed :=
    Outcome.toOption_eq_some_iff.1 (by decide +kernel)
  have hfailed : a.verdict Steady.topology (h 2) = .ok (.failed 2 1 "cport1.x@sec=0") :=
    Outcome.toOption_eq_some_iff.1 (by decide +kernel)
  have hactive : a.isActive = true := rfl
  refine ⟨History.sameRun_cons _ _ _, a, hread, ?_, ?_⟩
  · simp [outcome_check hactive, hpassed, outcome_settle hactive]
  · simp [outcome_check hactive, hfailed, outcome_settle hactive]

end Assertion

end TrafficCheck
