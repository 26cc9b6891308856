import TrafficCheck.Proofs.Loading
import TrafficCheck.Proofs.Visits

/-!
# The life of an assertion

An assertion is ignored, failed and checked in any order and any number of times. It leaves the
active state at most once, and from then on nothing is evaluated or told for it, while every check
answers what its state says. A check that errs leaves the assertion active, and one that passes
leaves it as it was, so that it passes again.

## Main definitions

* `Assertion.checkRecorded`: a check and the ticks that were evaluated for it.
* `Assertion.Call`, `Assertion.perform`: what can be asked of an assertion, and what comes of it.
* `Assertion.OneWay`: what holds of a single call.

## Main statements

* `Assertion.afterCalls_of_not_active`, `Assertion.eq_of_afterCalls_active`: what calls can change.
* `Assertion.exists_states_eq`: the states that an assertion goes through.
* `Assertion.state_is_one_way`: what holds of every call in a sequence.
-/

namespace TrafficCheck

/-- The state that an outcome tells of. -/
def Outcome.state : Outcome → AssertionState
  | .passed => .active
  | .failed message => .failed message
  | .ignored reason => .ignored reason

namespace Assertion

variable {a a' : Assertion} {t : Topology} {h : History} {len : Nat}

theorem isActive_iff : a.isActive = true ↔ a.state = .active := by simp [isActive]

theorem state_outcome (a : Assertion) : a.outcome.state = a.state := by
  unfold outcome
  split <;> simp [Outcome.state, *]

/-- Nothing but the state of an assertion changes. -/
theorem eq_of_asRead_of_state (hread : a'.asRead = a.asRead) (hstate : a'.state = a.state) :
    a' = a := by
  cases a
  cases a'
  simp_all [asRead]

/-! ## Checks that are repeated -/

/-- A check that leaves an assertion active leaves all of it as it was. -/
theorem eq_of_check_active (hcheck : (a.check t h).outcome = .ok a') (ha' : a'.state = .active) :
    a' = a := by
  by_cases ha : a.isActive = true
  · exact eq_of_asRead_of_state (asRead_check hcheck) (ha'.trans (isActive_iff.1 ha).symm)
  · rw [outcome_check_of_not_active ha] at hcheck
    exact (Except.ok.inj hcheck).symm

/-- What a check makes of an assertion is left alone by the same check. -/
theorem check_again (hcheck : (a.check t h).outcome = .ok a') :
    (a'.check t h).outcome = .ok a' := by
  by_cases ha' : a'.isActive = true
  · have heq := eq_of_check_active hcheck (isActive_iff.1 ha')
    rw [← heq] at hcheck
    exact hcheck
  · exact outcome_check_of_not_active ha'

/-! ## Recorded checks -/

/-- The check of an assertion on a run of `len` samples whose ticks are evaluated by `observe`. -/
def checkBy {m : Type → Type} [Monad m] (a : Assertion) (len : Nat)
    (observe : Nat → m TickResult) : m (Logged Assertion) :=
  if a.isActive then do return a.settle (← Window.run a.rule len observe)
  else return pure a

/-- A check, and the ticks that were evaluated for it in order. -/
def checkRecorded (a : Assertion) (t : Topology) (h : History) :
    Attempt AssertionError Assertion × List Nat :=
  let (settled, ticks) := (a.checkBy h.size (Window.recorded (a.observe t h))).run.run []
  (Attempt.of (settled.mapError (.inFile a.file a.line)) >>= fun x => ExceptT.lift x, ticks)

theorem run_checkBy_recorded (ha : a.isActive = true)
    (observe : Nat → Except AssertionError TickResult) :
    (a.checkBy len (Window.recorded observe)).run.run [] =
      ((Window.run a.rule len observe).map a.settle,
        (Window.runRecorded a.rule len observe).2) := by
  have hrun := Window.fst_runRecorded a.rule len observe
  simp only [checkBy, if_pos ha, ← hrun]
  rw [ExceptT.run_bind, StateT.run_bind]
  unfold Window.runRecorded
  cases (Window.run a.rule len (Window.recorded observe)).run.run [] with
  | mk verdict ticks => cases verdict <;> rfl

/-- Recording does not change a check. -/
theorem fst_checkRecorded (a : Assertion) (t : Topology) (h : History) :
    (a.checkRecorded t h).1 = a.check t h := by
  unfold checkRecorded
  by_cases ha : a.isActive = true
  · rw [run_checkBy_recorded ha, check, if_pos ha, verdict]
    cases Window.run a.rule h.size (a.observe t h) <;> rfl
  · rw [checkBy, if_neg ha, check_of_not_active ha]
    rfl

/-- For an assertion that is no longer active nothing is evaluated. -/
theorem snd_checkRecorded_of_not_active (ha : ¬a.isActive = true) :
    (a.checkRecorded t h).2 = [] := by
  rw [checkRecorded, checkBy, if_neg ha]
  rfl

/-! ## Calls -/

/-- What can be asked of an assertion. -/
inductive Call where
  | ignore (reason : String)
  | fail (message : String)
  | check (t : Topology) (h : History)

/-- What comes of a call: the assertion after it, the answer of a check, the records that were told,
and the ticks that were evaluated. -/
structure Effect where
  after : Assertion
  answer : Option (Except AssertionError Outcome)
  records : List Record
  ticks : List Nat

/-- What comes of a call. A check that errs leaves the assertion as it was. -/
def perform (a : Assertion) : Call → Effect
  | .ignore reason => ⟨a.ignore reason, none, [], []⟩
  | .fail message => ⟨a.fail message, none, [], []⟩
  | .check t h =>
    let (checked, ticks) := a.checkRecorded t h
    { after := checked.outcome.toOption.getD a
      answer := some (checked.outcome.map outcome)
      records := checked.log
      ticks := ticks }

/-- The assertion after a sequence of calls. -/
def afterCalls (a : Assertion) (calls : List Call) : Assertion :=
  calls.foldl (fun a c => (a.perform c).after) a

/-- The states of an assertion before each call of a sequence and after the last one. -/
def states (a : Assertion) : List Call → List AssertionState
  | [] => [a.state]
  | c :: rest => a.state :: (a.perform c).after.states rest

variable {c : Call} {calls : List Call}

theorem perform_check (a : Assertion) (t : Topology) (h : History) :
    a.perform (.check t h) =
      { after := (a.check t h).outcome.toOption.getD a
        answer := some ((a.check t h).outcome.map outcome)
        records := (a.check t h).log
        ticks := (a.checkRecorded t h).2 } := by
  rw [← fst_checkRecorded]
  rfl

/-! ## Single calls -/

theorem asRead_perform (a : Assertion) (c : Call) : (a.perform c).after.asRead = a.asRead := by
  cases c with
  | ignore reason => exact asRead_ignore a reason
  | fail message => exact asRead_fail a message
  | check t h =>
    rw [perform_check]
    cases hcheck : (a.check t h).outcome with
    | error e => rfl
    | ok a' => exact asRead_check hcheck

/-- A call changes nothing of an assertion that is no longer active, tells nothing and evaluates
nothing. -/
theorem perform_of_not_active (ha : a.state ≠ .active) (c : Call) :
    ∃ answer, a.perform c = ⟨a, answer, [], []⟩ ∧ ∀ r, answer = some r → r = .ok a.outcome := by
  have hactive : ¬a.isActive = true := mt isActive_iff.1 ha
  cases c with
  | ignore reason => exact ⟨none, by simp [perform, ignore, hactive], by simp⟩
  | fail message => exact ⟨none, by simp [perform, fail, hactive], by simp⟩
  | check t h =>
    have hlog : (a.check t h).log = [] := by
      rw [check_of_not_active hactive]
      rfl
    refine ⟨some (.ok a.outcome), ?_, fun r hr => (Option.some.inj hr).symm⟩
    rw [perform_check, outcome_check_of_not_active hactive, hlog,
      snd_checkRecorded_of_not_active hactive]
    rfl

/-- An outcome that a check answers is that of the assertion it leaves. -/
theorem exists_check_of_answer {o : Outcome}
    (ho : (a.perform (.check t h)).answer = some (.ok o)) :
    ∃ a', (a.check t h).outcome = .ok a' ∧ (a.perform (.check t h)).after = a' ∧
      a'.outcome = o := by
  rw [perform_check] at ho ⊢
  cases hcheck : (a.check t h).outcome with
  | error e => exact absurd ho (by simp [hcheck])
  | ok a' =>
    refine ⟨a', rfl, rfl, ?_⟩
    simpa [hcheck] using ho

/-! ## Sequences of calls -/

theorem asRead_afterCalls (a : Assertion) (calls : List Call) :
    (a.afterCalls calls).asRead = a.asRead := by
  induction calls generalizing a with
  | nil => rfl
  | cons c rest ih => exact (ih (a.perform c).after).trans (asRead_perform a c)

/-- Once an assertion has left the active state no call changes it. -/
theorem afterCalls_of_not_active (ha : a.state ≠ .active) (calls : List Call) :
    a.afterCalls calls = a := by
  induction calls with
  | nil => rfl
  | cons c rest ih =>
    obtain ⟨answer, hperform, -⟩ := perform_of_not_active ha c
    rw [afterCalls, List.foldl_cons, hperform]
    exact ih

/-- An assertion that is active after some calls is as it was before them. -/
theorem eq_of_afterCalls_active (h : (a.afterCalls calls).state = .active) :
    a.afterCalls calls = a := by
  by_cases ha : a.state = .active
  · exact eq_of_asRead_of_state (asRead_afterCalls a calls) (h.trans ha.symm)
  · exact afterCalls_of_not_active ha calls

theorem states_of_not_active (ha : a.state ≠ .active) (calls : List Call) :
    a.states calls = List.replicate (calls.length + 1) a.state := by
  induction calls with
  | nil => rfl
  | cons c rest ih =>
    obtain ⟨answer, hperform, -⟩ := perform_of_not_active ha c
    rw [states, hperform, ih, List.length_cons]
    rfl

/-- An assertion is active up to some call and in one and the same other state from then on. -/
theorem exists_states_eq (a : Assertion) (calls : List Call) :
    ∃ before after left, left ≠ .active ∧
      a.states calls = List.replicate before .active ++ List.replicate after left := by
  induction calls generalizing a with
  | nil =>
    by_cases ha : a.state = .active
    · exact ⟨1, 0, .failed "", by simp, by simp [states, ha]⟩
    · exact ⟨0, 1, a.state, ha, rfl⟩
  | cons c rest ih =>
    by_cases ha : a.state = .active
    · obtain ⟨before, after, left, hleft, hstates⟩ := ih (a.perform c).after
      exact ⟨before + 1, after, left, hleft, by rw [states, ha, hstates]; rfl⟩
    · exact ⟨0, rest.length + 2, a.state, ha, states_of_not_active ha (c :: rest)⟩

/-! ## The one way -/

/-- What holds of a call to an assertion: nothing but its state can change; once it is not active,
nothing changes, is told or is evaluated, and a check answers what the state says; an answer tells
of the state behind the call; a check that errs starts from the active state and stays there; and a
check that passed passes again, however many calls later, unless the assertion has left the active
state in between. -/
structure OneWay (a : Assertion) (c : Call) : Prop where
  checks : ∀ t h, c = .check t h →
    (a.perform c).answer = some ((a.check t h).outcome.map outcome) ∧
      (a.perform c).records = (a.check t h).log
  keeps : (a.perform c).after.asRead = a.asRead
  settled : a.state ≠ .active → (a.perform c).after = a ∧ (a.perform c).records = [] ∧
    (a.perform c).ticks = [] ∧ ∀ r, (a.perform c).answer = some r → r = .ok a.outcome
  tells : ∀ o, (a.perform c).answer = some (.ok o) → (a.perform c).after.state = o.state
  errs : ∀ e, (a.perform c).answer = some (.error e) →
    a.state = .active ∧ (a.perform c).after.state = .active
  passes : (a.perform c).answer = some (.ok .passed) → (a.perform c).after.state = .active ∧
    ∀ later, ((a.perform c).after.afterCalls later).state = .active →
      (((a.perform c).after.afterCalls later).perform c).answer = some (.ok .passed)

theorem oneWay (a : Assertion) (c : Call) : OneWay a c where
  checks := by
    rintro t h rfl
    rw [perform_check]
    exact ⟨rfl, rfl⟩
  keeps := asRead_perform a c
  settled := by
    intro ha
    obtain ⟨answer, hperform, hanswer⟩ := perform_of_not_active ha c
    rw [hperform]
    exact ⟨rfl, rfl, rfl, hanswer⟩
  tells := by
    intro o ho
    cases c with
    | ignore reason | fail message => exact absurd ho (by simp [perform])
    | check t h =>
      obtain ⟨a', -, hafter, rfl⟩ := exists_check_of_answer ho
      rw [hafter, state_outcome]
  errs := by
    intro e he
    have hactive : a.state = .active := by
      refine Decidable.byContradiction fun ha => ?_
      obtain ⟨answer, hperform, hanswer⟩ := perform_of_not_active ha c
      rw [hperform] at he
      exact absurd (hanswer _ he) (by simp)
    refine ⟨hactive, ?_⟩
    cases c with
    | ignore reason | fail message => exact absurd he (by simp [perform])
    | check t h =>
      rw [perform_check] at he ⊢
      cases hcheck : (a.check t h).outcome with
      | error e' => simpa [Except.toOption] using hactive
      | ok a' => exact absurd he (by simp [hcheck])
  passes := by
    intro hpassed
    cases c with
    | ignore reason | fail message => exact absurd hpassed (by simp [perform])
    | check t h =>
      obtain ⟨a', hcheck, hafter, houtcome⟩ := exists_check_of_answer hpassed
      have hstate : a'.state = .active := by rw [← state_outcome, houtcome]; rfl
      obtain rfl := eq_of_check_active hcheck hstate
      rw [hafter]
      refine ⟨hstate, ?_⟩
      intro later hlater
      rw [eq_of_afterCalls_active hlater]
      exact hpassed

/-- However an assertion is ignored, failed and checked, it goes through the active state first and
through at most one other state from then on, and what holds of a single call holds of every call of
the sequence, made to what the calls before it have left. -/
theorem state_is_one_way (a : Assertion) (calls : List Call) :
    (∃ before after left, left ≠ .active ∧
      a.states calls = List.replicate before .active ++ List.replicate after left) ∧
    ∀ before c later, calls = before ++ c :: later →
      OneWay (a.afterCalls before) c ∧
      ((a.afterCalls before).state ≠ .active → a.afterCalls calls = a.afterCalls before) := by
  refine ⟨exists_states_eq a calls, ?_⟩
  rintro before c later rfl
  refine ⟨oneWay _ c, fun hleft => ?_⟩
  rw [afterCalls, List.foldl_append]
  exact afterCalls_of_not_active hleft (c :: later)

end Assertion

end TrafficCheck
