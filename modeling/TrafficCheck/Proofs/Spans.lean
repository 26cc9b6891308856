import Mathlib.Data.List.Sort
import TrafficCheck.Proofs.Schedule
import TrafficCheck.Proofs.Verdict

/-!
# Cutting spans

A span may be cut between two of its seconds. Rounding ticks up to seconds is monotone and leaves
no gap, so the checkpoints of the span are those of the first part followed by those of the second
one, and a run over the span is a run over the first part that goes on with the second one once the
first part has passed.

## Main definitions

* `Span.CutInto`: one span is cut into two.

## Main statements

* `Rule.constrains_span_iff_xor`: each tick of a span belongs to one part.
* `Rule.checkpoints_of_cutInto`: the checkpoints of a span that is cut.
* `Rule.checkpoints_of_covers`: a span over all seconds of a run asks what `ANY` asks.
* `Window.scan_append`: a scan over two lists of checkpoints.
* `Window.spans_compose`: what this means for the results of runs.
-/

namespace TrafficCheck

/-- A span is cut into an early and a late part, of which the late one starts with the second that
follows the end of the early one. -/
structure Span.CutInto (whole early late : Span) : Prop where
  first_eq : early.first = whole.first
  meet : late.first = early.last + 1
  last_eq : late.last = whole.last

namespace Rule

variable {whole early late s : Span} {n : Nat}

/-- A span that is cut constrains the ticks that exactly one of its parts constrains. -/
theorem constrains_span_iff_xor (hcut : whole.CutInto early late) (tick : Nat) :
    (span whole).constrains tick = true ↔
      Xor ((span early).constrains tick = true) ((span late).constrains tick = true) := by
  obtain ⟨hfirst, hmeet, hlast⟩ := hcut
  have hearly := early.first_le_last
  have hlate := late.first_le_last
  simp only [constrains, Bool.and_eq_true, decide_eq_true_eq, Xor]
  omega

/-- A span selects the ticks of its early part, then those of its late part. -/
theorem selectedTicks_of_cutInto (hcut : whole.CutInto early late) (n : Nat) :
    (span whole).selectedTicks n =
      (span early).selectedTicks n ++ (span late).selectedTicks n := by
  obtain ⟨hfirst, hmeet, hlast⟩ := hcut
  refine (pairwise_selectedTicks _ n).eq_of_mem_iff ?ascending ?same
  case ascending =>
    refine List.pairwise_append.2 ⟨pairwise_selectedTicks _ n, pairwise_selectedTicks _ n, ?_⟩
    intro tick htick other hother
    -- The second of `tick` is at most the last one of the early part, that of `other` is not.
    obtain ⟨-, -, -, -, hbelow⟩ := mem_selectedTicks_iff.1 htick
    obtain ⟨-, -, -, habove, -⟩ := mem_selectedTicks_iff.1 hother
    omega
  case same =>
    intro tick
    have hearly := early.first_le_last
    have hlate := late.first_le_last
    simp only [List.mem_append, mem_selectedTicks_iff, Selects]
    omega

/-- The checkpoints of a span are those of its early part, then those of its late part. -/
theorem checkpoints_of_cutInto (hcut : whole.CutInto early late) (n : Nat) :
    (span whole).checkpoints n = (span early).checkpoints n ++ (span late).checkpoints n := by
  simp [checkpoints, finalExpectation, selectedTicks_of_cutInto hcut]

/-- A span over all seconds of a run has the checkpoints of `ANY`. -/
theorem checkpoints_of_covers (hfirst : s.first ≤ 1) (hlast : n / 2 ≤ s.last) :
    (span s).checkpoints n = any.checkpoints n := by
  have hticks : (span s).selectedTicks n = any.selectedTicks n := by
    refine (pairwise_selectedTicks _ n).eq_of_mem_iff (pairwise_selectedTicks _ n) ?_
    intro tick
    simp only [mem_selectedTicks_iff, Selects]
    omega
  simp [checkpoints, finalExpectation, hticks]

end Rule

namespace Window

variable {ε : Type} {whole early late : Span}

/-- A scan goes on behind checkpoints that it passed, and else ends with their result. -/
theorem scan_append (len : Nat) (observe : Nat → Except ε TickResult)
    (before after : List (Nat × Bool)) :
    scan len observe (before ++ after) = match scan len observe before with
      | .ok .passed => scan len observe after
      | result => result := by
  induction before with
  | nil => rfl
  | cons c rest ih =>
    obtain ⟨tick, expected⟩ := c
    rw [List.cons_append, scan, scan]
    cases observe tick with
    | error e => rfl
    | ok seen =>
      cases seen with
      | unresolved reason => rfl
      | evaluated o =>
        by_cases htruth : o.value.isTrue = expected
        · simpa [htruth] using ih
        · simp [htruth]

/-- Spans compose. A run over a span that is cut has the result of its early part, unless that is
passed, and then it has the result of its late part; each tick that the span constrains is
constrained by exactly one of the parts; and a run over a span that covers all seconds has the
result of `ANY`. -/
theorem spans_compose (hcut : whole.CutInto early late) (len : Nat)
    (observe : Nat → Except ε TickResult) :
    (run (.span whole) len observe = match run (.span early) len observe with
      | .ok .passed => run (.span late) len observe
      | result => result) ∧
    (∀ tick, (Rule.span whole).constrains tick = true ↔
      Xor ((Rule.span early).constrains tick = true) ((Rule.span late).constrains tick = true)) ∧
    ∀ s : Span, s.first ≤ 1 → len / 2 ≤ s.last →
      run (.span s) len observe = run .any len observe := by
  refine ⟨?parts, Rule.constrains_span_iff_xor hcut, ?covers⟩
  case parts =>
    unfold run
    split
    · rfl
    · rw [Rule.checkpoints_of_cutInto hcut, scan_append]
  case covers =>
    intro s hfirst hlast
    rw [run, run, Rule.checkpoints_of_covers hfirst hlast]

/-- A failure at tick 5 is the second of the late part `SPAN[3:4]`: the early part passes it by, and
the error at tick 7 is not reached. -/
theorem run_span_failing_late :
    let observe : Nat → Except String TickResult := fun tick =>
      if tick = 7 then .error "no such counter"
      else .ok (.evaluated ⟨.truth (tick ≠ 5), "rx == tx"⟩)
    let whole : Span := ⟨1, 4, by decide, by decide⟩
    let early : Span := ⟨1, 2, by decide, by decide⟩
    let late : Span := ⟨3, 4, by decide, by decide⟩
    whole.CutInto early late ∧ run (.span early) 9 observe = .ok .passed ∧
      run (.span whole) 9 observe = .ok (.failed 5 3 "rx == tx") ∧
      run (.span whole) 9 observe = run .any 9 observe := by
  intro observe whole early late
  have hcut : whole.CutInto early late := ⟨rfl, rfl, rfl⟩
  obtain ⟨hparts, -, hcovers⟩ := spans_compose hcut 9 observe
  have hearly : run (.span early) 9 observe = .ok .passed := rfl
  refine ⟨hcut, hearly, ?_, hcovers whole (by decide) (by decide)⟩
  rw [hparts, hearly]
  rfl

end Window

end TrafficCheck
