import TrafficCheck.Assertion
import TrafficCheck.Proofs.Outcome

/-!
# Verdicts

How a scan over checkpoints ends, and what a check makes of the verdict.

## Main statements

* `Window.scan_cases`: a scan runs up to its first checkpoint that is not as expected.
* `Assertion.read_eq_ok_iff`: what an assertion consists of that was read from a line.
* `Assertion.outcome_check`, `Assertion.outcome_settle`: what a check makes of a verdict.
-/

namespace TrafficCheck

namespace Window

variable {ε : Type} {observe : Nat → Except ε TickResult} {len : Nat}
  {checkpoints before after : List (Nat × Bool)} {c : Nat × Bool}

/-- The evaluation at a checkpoint has the truth value it should have. -/
def Expected (observe : Nat → Except ε TickResult) (c : Nat × Bool) : Prop :=
  ∃ o, observe c.1 = .ok (.evaluated o) ∧ o.value.isTrue = c.2

/-- Either all checkpoints are as expected or there is a first one that is not. -/
theorem exists_first_unexpected (observe : Nat → Except ε TickResult)
    (checkpoints : List (Nat × Bool)) :
    (∀ c ∈ checkpoints, Expected observe c) ∨
      ∃ before c after, checkpoints = before ++ c :: after ∧
        (∀ d ∈ before, Expected observe d) ∧ ¬Expected observe c := by
  induction checkpoints with
  | nil => exact .inl (by simp)
  | cons c rest ih =>
    by_cases hc : Expected observe c
    · rcases ih with hall | ⟨before, d, after, rfl, hbefore, hd⟩
      · exact .inl (by simpa [hc] using hall)
      · exact .inr ⟨c :: before, d, after, rfl, by simpa [hc] using hbefore, hd⟩
    · exact .inr ⟨[], c, rest, rfl, by simp, hc⟩

/-- Checkpoints that are as expected are passed by. -/
theorem scan_expected (h : ∀ c ∈ before, Expected observe c) :
    scan len observe (before ++ after) = scan len observe after := by
  induction before with
  | nil => rfl
  | cons c rest ih =>
    obtain ⟨o, hobserve, htruth⟩ := h c (by simp)
    have hrest := ih fun d hd => h d (by simp [hd])
    simp [scan, hobserve, htruth, hrest]

/-- A scan passes if all checkpoints are as expected; else the first one that is not decides. -/
theorem scan_cases (len : Nat) (observe : Nat → Except ε TickResult)
    (checkpoints : List (Nat × Bool)) :
    ((∀ c ∈ checkpoints, Expected observe c) ∧ scan len observe checkpoints = .ok .passed) ∨
      ∃ before c after, checkpoints = before ++ c :: after ∧
        (∀ d ∈ before, Expected observe d) ∧ ¬Expected observe c ∧
        match observe c.1 with
        | .ok (.evaluated o) =>
          scan len observe checkpoints = .ok (.failed c.1 (elapsedAt len c.1) o.trace)
        | .ok (.unresolved reason) => scan len observe checkpoints = .ok (.ignored reason)
        | .error e => scan len observe checkpoints = .error e := by
  rcases exists_first_unexpected observe checkpoints with
    hall | ⟨before, c, after, rfl, hbefore, hc⟩
  · left
    refine ⟨hall, ?_⟩
    rw [← List.append_nil checkpoints, scan_expected hall]
    rfl
  · right
    refine ⟨before, c, after, rfl, hbefore, hc, ?_⟩
    rw [scan_expected hbefore, scan]
    cases hobserve : observe c.1 with
    | error e => rfl
    | ok result =>
      cases result with
      | unresolved reason => rfl
      | evaluated o =>
        have htruth : ¬o.value.isTrue = c.2 := fun htruth => hc ⟨o, hobserve, htruth⟩
        simp [htruth]

/-- An error of a whole run is that of an observation. -/
theorem run_eq_error {r : Rule} {e : ε} (h : run r len observe = .error e) :
    ∃ tick, observe tick = .error e := by
  unfold run at h
  split at h
  · exact absurd h (by simp)
  · rcases scan_cases len observe (r.checkpoints len) with ⟨-, hpassed⟩ | ⟨_, c, _, -, -, -, hc⟩
    · exact absurd h (by simp [hpassed])
    · refine ⟨c.1, ?_⟩
      rw [h] at hc
      split at hc
      · exact absurd hc (by simp)
      · exact absurd hc (by simp)
      · next e' hobserve =>
        obtain rfl := Except.error.inj hc
        exact hobserve

end Window

namespace Attempt

variable {ε α β : Type}

@[simp] theorem outcome_pure (a : α) : (pure a : Attempt ε α).outcome = .ok a := rfl

@[simp] theorem outcome_of (r : Except ε α) : (Attempt.of r).outcome = r := rfl

@[simp] theorem outcome_bind (x : Attempt ε α) (f : α → Attempt ε β) :
    (x >>= f).outcome = (x.outcome >>= fun a => (f a).outcome) := by
  rw [outcome, ExceptT.run_bind, Logged.value_bind]
  change _ = (x.run.value >>= _)
  cases x.run.value <;> rfl

end Attempt

namespace Assertion

variable {expression file : String} {line : Nat} {a : Assertion} {t : Topology} {h : History}

/-- What an assertion consists of that was read from a line. -/
theorem read_eq_ok_iff :
    read expression file line = .ok a ↔
      ∃ r tokens program inputs, Token.ofAssertion expression = .ok (r, tokens) ∧
        Program.compile expression tokens = .ok program ∧
        Variable.collect program = .ok inputs ∧
        a = ⟨file, line, expression, r, program, inputs, Variable.isMultiport inputs.values,
          .active⟩ := by
  simp only [read, Outcome.bind_eq_ok, Outcome.pure_eq, Except.ok.injEq, Prod.exists]
  constructor
  · rintro ⟨r, tokens, htokens, program, hprogram, inputs, hinputs, ha⟩
    exact ⟨r, tokens, program, inputs, htokens, hprogram, hinputs, ha.symm⟩
  · rintro ⟨r, tokens, program, inputs, htokens, hprogram, hinputs, rfl⟩
    exact ⟨r, tokens, htokens, program, hprogram, inputs, hinputs, rfl⟩

/-- Checking an active assertion gives the verdict of its rule a place in its state. -/
theorem outcome_check (ha : a.isActive = true) :
    (a.check t h).outcome = (a.verdict t h).map fun v => (a.settle v).value := by
  rw [check, if_pos ha, Attempt.outcome_bind, Attempt.outcome_of]
  cases a.verdict t h <;> rfl

/-- The outcome of a check over samples is that of the scan over the checkpoints of its rule. -/
theorem outcome_check_of_size_pos (ha : a.isActive = true) (hsize : 0 < h.size) :
    (a.check t h).outcome =
      ((Window.scan h.size (a.observe t h) (a.rule.checkpoints h.size)).mapError
        (.inFile a.file a.line)).map fun v => (a.settle v).value := by
  rw [outcome_check ha, verdict, Window.run, if_neg (Nat.ne_of_gt hsize)]

/-- An assertion that is no longer active is left alone, and nothing is told of it. -/
theorem check_of_not_active (ha : ¬a.isActive = true) : a.check t h = pure a := if_neg ha

theorem outcome_check_of_not_active (ha : ¬a.isActive = true) :
    (a.check t h).outcome = .ok a := by
  rw [check_of_not_active ha, Attempt.outcome_pure]

/-- What a check says of an active assertion that was settled by a verdict. -/
theorem outcome_settle (ha : a.isActive = true) (v : Verdict) :
    (a.settle v).value.outcome = match v with
      | .passed => .passed
      | .failed _ elapsed trace => .failed (a.failureMessage elapsed trace)
      | .ignored reason => .ignored reason := by
  have hstate : a.state = .active := by simpa [isActive] using ha
  cases v with
  | passed => simp [settle, outcome, hstate]
  | failed tick elapsed trace => simp [settle, fail, outcome, ha]
  | ignored reason => simp [settle, ignore, outcome, ha]

/-- A check over samples passes just if every checkpoint of the rule is as expected. -/
theorem check_passes_iff (ha : a.isActive = true) (hsize : 0 < h.size) :
    (∃ a', (a.check t h).outcome = .ok a' ∧ a'.outcome = .passed) ↔
      ∀ c ∈ a.rule.checkpoints h.size, Window.Expected (a.observe t h) c := by
  rw [outcome_check_of_size_pos ha hsize]
  rcases Window.scan_cases h.size (a.observe t h) (a.rule.checkpoints h.size) with
    ⟨hall, hpassed⟩ | ⟨before, c, after, hsplit, -, hc, hscan⟩
  · rw [hpassed]
    exact iff_of_true ⟨_, rfl, by rw [outcome_settle ha]⟩ hall
  · refine iff_of_false ?_ fun hall => hc (hall c (by simp [hsplit]))
    rintro ⟨a', ha', houtcome⟩
    split at hscan <;> rw [hscan] at ha'
    · obtain rfl := Except.ok.inj ha'
      exact absurd houtcome (by simp [outcome_settle ha])
    · obtain rfl := Except.ok.inj ha'
      exact absurd houtcome (by simp [outcome_settle ha])
    · exact absurd ha' (by simp)

end Assertion

end TrafficCheck
