import TrafficCheck.Assertion
import TrafficCheck.Proofs.Outcome

/-!
# Evaluations at a tick

At a tick a program is evaluated under several lookups in turn, as long as its values are true. The
result is true just if it is true under all of them, and an error is that of one evaluation.

## Main definitions

* `TickBinding.lookups`: the lookups under which programs are evaluated at a tick.

## Main statements

* `Program.evaluateTick_isTrue_iff`: when the result at a tick is true.
* `Program.evaluateTick_eq_error`: where an error at a tick comes from.
-/

namespace TrafficCheck

/-- The lookups under which a program is evaluated at a tick, in order. -/
def TickBinding.lookups (b : TickBinding) (multiport : Bool) : List (String → Float) :=
  if multiport || b.ports.isEmpty then [b.merged] else b.ports.map b.onPort

namespace Program

variable {p : Program} {b : TickBinding} {multiport : Bool} {port : PortBinding}
  {rest : List PortBinding} {lookup : String → Float} {o : Observation} {e : AssertionError}

/-- Whether a program has a true value under a lookup. -/
def IsTrueUnder (p : Program) (lookup : String → Float) : Prop :=
  ∃ r, p.evaluate lookup = .ok r ∧ r.value.isTrue = true

/-! ## Single evaluations -/

/-- An observation that keeps the value of an evaluation is true just if that evaluation is. -/
theorem isTrue_iff_of_map {observe : Evaluation → Observation}
    (hvalue : ∀ r, (observe r).value = r.value) (h : (p.evaluate lookup).map observe = .ok o) :
    o.value.isTrue = true ↔ p.IsTrueUnder lookup := by
  cases heval : p.evaluate lookup with
  | error e => exact absurd h (by simp [heval])
  | ok r =>
    rw [heval] at h
    obtain rfl := Except.ok.inj h
    simp [IsTrueUnder, heval, hvalue]

theorem eq_error_of_map {observe : Evaluation → Observation}
    (h : (p.evaluate lookup).map observe = .error e) : p.evaluate lookup = .error e := by
  cases heval : p.evaluate lookup with
  | error e' => simpa [heval] using h
  | ok r => exact absurd h (by simp [heval])

theorem observeMerged_isTrue_iff (h : p.observeMerged b = .ok o) :
    o.value.isTrue = true ↔ p.IsTrueUnder b.merged := isTrue_iff_of_map (fun _ => rfl) h

theorem observeOn_isTrue_iff (h : p.observeOn b port = .ok o) :
    o.value.isTrue = true ↔ p.IsTrueUnder (b.onPort port) := isTrue_iff_of_map (fun _ => rfl) h

theorem observeMerged_eq_error (h : p.observeMerged b = .error e) :
    p.evaluate b.merged = .error e := eq_error_of_map h

theorem observeOn_eq_error (h : p.observeOn b port = .error e) :
    p.evaluate (b.onPort port) = .error e := eq_error_of_map h

/-! ## Evaluations in turn -/

theorem observeEach_isTrue_iff (h : p.observeEach b port rest = .ok o) :
    o.value.isTrue = true ↔ ∀ next ∈ port :: rest, p.IsTrueUnder (b.onPort next) := by
  induction rest generalizing port with
  | nil => simpa using observeOn_isTrue_iff h
  | cons next rest ih =>
    rw [observeEach, Outcome.bind_eq_ok] at h
    obtain ⟨first, hfirst, hrest⟩ := h
    have hiff := observeOn_isTrue_iff hfirst
    split at hrest
    · next htrue =>
      rw [List.forall_mem_cons, ih hrest]
      exact (and_iff_right (hiff.1 htrue)).symm
    · next hfalse =>
      obtain rfl := Except.ok.inj hrest
      rw [List.forall_mem_cons, ← hiff]
      simp [hfalse]

theorem observeEach_eq_error (h : p.observeEach b port rest = .error e) :
    ∃ next ∈ port :: rest, p.evaluate (b.onPort next) = .error e := by
  induction rest generalizing port with
  | nil => exact ⟨port, by simp, observeOn_eq_error h⟩
  | cons next rest ih =>
    cases hfirst : p.observeOn b port with
    | error e' =>
      rw [observeEach, hfirst] at h
      obtain rfl := Except.error.inj h
      exact ⟨port, by simp, observeOn_eq_error hfirst⟩
    | ok first =>
      rw [observeEach, hfirst, Outcome.ok_bind] at h
      split at h
      · obtain ⟨last, hlast, herror⟩ := ih h
        exact ⟨last, List.mem_cons_of_mem _ hlast, herror⟩
      · exact absurd h (by simp)

/-! ## Whole ticks -/

/-- A tick is evaluated on all its ports in turn or once for all of them. -/
theorem evaluateTick_cases (p : Program) (b : TickBinding) (multiport : Bool) :
    (∃ port rest, p.evaluateTick b multiport = p.observeEach b port rest ∧
      b.lookups multiport = (port :: rest).map b.onPort) ∨
    p.evaluateTick b multiport = p.observeMerged b ∧ b.lookups multiport = [b.merged] := by
  cases multiport with
  | true => exact .inr ⟨rfl, rfl⟩
  | false =>
    cases hports : b.ports with
    | nil => exact .inr ⟨by simp [evaluateTick, hports], by simp [TickBinding.lookups, hports]⟩
    | cons port rest =>
      exact .inl ⟨port, rest, by simp [evaluateTick, hports], by simp [TickBinding.lookups, hports]⟩

/-- The result at a tick is true just if the program is true under every lookup. -/
theorem evaluateTick_isTrue_iff (h : p.evaluateTick b multiport = .ok o) :
    o.value.isTrue = true ↔ ∀ lookup ∈ b.lookups multiport, p.IsTrueUnder lookup := by
  rcases evaluateTick_cases p b multiport with ⟨port, rest, htick, hlookups⟩ | ⟨htick, hlookups⟩
  · rw [htick] at h
    rw [hlookups, List.forall_mem_map]
    exact observeEach_isTrue_iff h
  · rw [htick] at h
    rw [hlookups, List.forall_mem_singleton]
    exact observeMerged_isTrue_iff h

/-- An error at a tick is that of the program under one of the lookups. -/
theorem evaluateTick_eq_error (h : p.evaluateTick b multiport = .error e) :
    ∃ lookup ∈ b.lookups multiport, p.evaluate lookup = .error e := by
  rcases evaluateTick_cases p b multiport with ⟨port, rest, htick, hlookups⟩ | ⟨htick, hlookups⟩
  · rw [htick] at h
    obtain ⟨next, hnext, herror⟩ := observeEach_eq_error h
    rw [hlookups]
    exact ⟨b.onPort next, List.mem_map_of_mem hnext, herror⟩
  · rw [htick] at h
    rw [hlookups]
    exact ⟨b.merged, by simp, observeMerged_eq_error h⟩

end Program

/-! ## Observations -/

namespace Assertion

variable {a : Assertion} {t : Topology} {h : History} {tick : Nat} {b : TickBinding}
  {o : Observation} {e : AssertionError}

/-- An error of an observation is that of the program under some lookup. -/
theorem observe_eq_error (hobserve : a.observe t h tick = .error e) :
    ∃ lookup, a.program.evaluate lookup = .error e := by
  unfold observe at hobserve
  split at hobserve
  · next b _ =>
    cases htick : a.program.evaluateTick b a.multiport with
    | ok o => exact absurd hobserve (by simp [htick])
    | error e' =>
      rw [htick] at hobserve
      obtain rfl := Except.error.inj hobserve
      obtain ⟨lookup, -, herror⟩ := Program.evaluateTick_eq_error htick
      exact ⟨lookup, herror⟩
  · exact absurd hobserve (by simp)

end Assertion

end TrafficCheck
