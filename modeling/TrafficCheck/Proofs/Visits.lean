import TrafficCheck.Proofs.Schedule
import TrafficCheck.Proofs.Verdict

/-!
# Visited ticks

A rule is run with an evaluation that keeps a list of the ticks it is asked for. The list is the
beginning of the schedule of the rule, up to the first tick that is not as the rule asks, and that
tick decides the result.

## Main definitions

* `Window.runRecorded`: the result of a run and the ticks it visited.
* `Window.FirstUnexpected`: the first selected tick that is not as the rule asks.
* `Window.resultAt`: the result that such a tick gives.

## Main statements

* `Window.run_stops_at_first_unexpected`: which ticks a run visits and how it ends.
-/

namespace TrafficCheck.Window

variable {ε : Type} {observe : Nat → Except ε TickResult} {len n tick : Nat} {r : Rule}
  {checkpoints before after : List (Nat × Bool)} {c : Nat × Bool} {visited : List Nat}

/-! ## Recording -/

/-- An evaluation that keeps a list of the ticks it is asked for, in order. -/
def recorded (observe : Nat → Except ε TickResult) (tick : Nat) :
    ExceptT ε (StateM (List Nat)) TickResult := do
  modify (· ++ [tick])
  ExceptT.mk (pure (observe tick))

/-- The result of a rule and the ticks that were evaluated for it, in order. -/
def runRecorded (r : Rule) (len : Nat) (observe : Nat → Except ε TickResult) :
    Except ε Verdict × List Nat :=
  (run r len (recorded observe)).run.run []

/-- The result of a scan that goes on from some visited ticks. -/
def scanRecorded (len : Nat) (observe : Nat → Except ε TickResult)
    (checkpoints : List (Nat × Bool)) (visited : List Nat) : Except ε Verdict × List Nat :=
  (scan len (recorded observe) checkpoints).run.run visited

/-- The result of a run whose deciding tick is evaluated to `seen`. -/
def resultAt (len tick : Nat) (seen : Except ε TickResult) : Except ε Verdict :=
  match seen with
  | .ok (.evaluated o) =>
    .ok (.failed tick (if tick = 0 then len / 2 else (tick + 1) / 2) o.trace)
  | .ok (.unresolved reason) => .ok (.ignored reason)
  | .error e => .error e

/-- What is evaluated after a recorded tick knows of that tick. -/
theorem run_recorded_bind {α : Type} (observe : Nat → Except ε TickResult) (tick : Nat)
    (next : TickResult → ExceptT ε (StateM (List Nat)) α) (visited : List Nat) :
    (recorded observe tick >>= next).run.run visited = match observe tick with
      | .ok seen => (next seen).run.run (visited ++ [tick])
      | .error e => (.error e, visited ++ [tick]) := by
  unfold recorded
  cases observe tick <;> rfl

/-! ## Scans -/

/-- A tick that is as expected is visited and passed by. -/
theorem scanRecorded_cons_of_expected {rest : List (Nat × Bool)} (hc : Expected observe c) :
    scanRecorded len observe (c :: rest) visited =
      scanRecorded len observe rest (visited ++ [c.1]) := by
  obtain ⟨o, hobserve, htruth⟩ := hc
  rw [scanRecorded, scan, run_recorded_bind, hobserve]
  simp [htruth, scanRecorded]

/-- A tick that is not as expected is visited and gives the result. -/
theorem scanRecorded_cons_of_not_expected {rest : List (Nat × Bool)} (hc : ¬Expected observe c) :
    scanRecorded len observe (c :: rest) visited =
      (resultAt len c.1 (observe c.1), visited ++ [c.1]) := by
  rw [scanRecorded, scan, run_recorded_bind]
  cases hobserve : observe c.1 with
  | error e => rfl
  | ok seen =>
    cases seen with
    | unresolved reason => rfl
    | evaluated o =>
      have htruth : ¬o.value.isTrue = c.2 := fun htruth => hc ⟨o, hobserve, htruth⟩
      simp only [if_neg htruth]
      rfl

/-- Recording does not change the result. -/
theorem fst_scanRecorded (checkpoints : List (Nat × Bool)) (visited : List Nat) :
    (scanRecorded len observe checkpoints visited).1 = scan len observe checkpoints := by
  induction checkpoints generalizing visited with
  | nil => rfl
  | cons c rest ih =>
    by_cases hc : Expected observe c
    · rw [scanRecorded_cons_of_expected hc, ih]
      obtain ⟨o, hobserve, htruth⟩ := hc
      simp [scan, hobserve, htruth]
    · rw [scanRecorded_cons_of_not_expected hc, scan]
      cases hobserve : observe c.1 with
      | error e => rfl
      | ok seen =>
        cases seen with
        | unresolved reason => rfl
        | evaluated o =>
          have htruth : ¬o.value.isTrue = c.2 := fun htruth => hc ⟨o, hobserve, htruth⟩
          simp [resultAt, htruth, elapsedAt, secondOfTick, ticksPerSecond]

/-- A scan visits the checkpoints in order. -/
theorem scanRecorded_append (hbefore : ∀ c ∈ before, Expected observe c) :
    scanRecorded len observe (before ++ after) visited =
      scanRecorded len observe after (visited ++ before.map (·.1)) := by
  induction before generalizing visited with
  | nil => simp
  | cons c rest ih =>
    rw [List.cons_append, scanRecorded_cons_of_expected (hbefore c (by simp)),
      ih fun d hd => hbefore d (by simp [hd])]
    simp

/-- A scan visits all checkpoints and passes, or it visits those up to the first one that is not as
expected, which gives the result. -/
theorem scanRecorded_cases (len : Nat) (observe : Nat → Except ε TickResult)
    (checkpoints : List (Nat × Bool)) :
    ((∀ c ∈ checkpoints, Expected observe c) ∧
      scanRecorded len observe checkpoints [] = (.ok .passed, checkpoints.map (·.1))) ∨
    ∃ before c after, checkpoints = before ++ c :: after ∧
      (∀ d ∈ before, Expected observe d) ∧ ¬Expected observe c ∧
      scanRecorded len observe checkpoints [] =
        (resultAt len c.1 (observe c.1), (before ++ [c]).map (·.1)) := by
  rcases exists_first_unexpected observe checkpoints with
    hall | ⟨before, c, after, rfl, hbefore, hc⟩
  · left
    refine ⟨hall, ?_⟩
    rw [← List.append_nil checkpoints, scanRecorded_append hall]
    simp [scanRecorded, scan]
    rfl
  · right
    refine ⟨before, c, after, rfl, hbefore, hc, ?_⟩
    rw [scanRecorded_append hbefore, scanRecorded_cons_of_not_expected hc]
    simp

/-! ## Runs -/

theorem fst_runRecorded (r : Rule) (len : Nat) (observe : Nat → Except ε TickResult) :
    (runRecorded r len observe).1 = run r len observe := by
  unfold runRecorded run
  split
  · rfl
  · exact fst_scanRecorded (r.checkpoints len) []

/-- A tick is the first one that a rule selects and that is not as the rule asks. -/
structure FirstUnexpected (r : Rule) (n : Nat) (observe : Nat → Except ε TickResult) (tick : Nat) :
    Prop where
  selected : r.Selects n tick
  unexpected : ¬Expected observe (tick, r.asked tick)
  earlier : ∀ other, r.Selects n other → Rule.Precedes other tick →
    Expected observe (other, r.asked other)

theorem resultAt_ne_passed (len tick : Nat) (seen : Except ε TickResult) :
    resultAt len tick seen ≠ .ok .passed := by
  unfold resultAt
  split <;> simp

/-- The checkpoint that a run stops at is the first unexpected tick. -/
theorem FirstUnexpected.eq_of_split (htick : FirstUnexpected r n observe tick)
    (hsplit : r.checkpoints n = before ++ c :: after)
    (hbefore : ∀ d ∈ before, Expected observe d) (hc : ¬Expected observe c) : tick = c.1 := by
  have hmem : (tick, r.asked tick) ∈ r.checkpoints n :=
    Rule.mem_checkpoints_iff.2 ⟨htick.selected, rfl⟩
  rw [hsplit, List.mem_append, List.mem_cons] at hmem
  rcases hmem with hin | heq | hin
  · exact absurd (hbefore _ hin) htick.unexpected
  · rw [← heq]
  · have hselects : r.Selects n c.1 ∧ c.2 = r.asked c.1 :=
      Rule.mem_checkpoints_iff.1 (by simp [hsplit])
    have horder := Rule.pairwise_checkpoints r n
    rw [hsplit, List.pairwise_append, List.pairwise_cons] at horder
    have hexpected := htick.earlier c.1 hselects.1 (horder.2.1.1 _ hin)
    rw [← hselects.2] at hexpected
    exact absurd hexpected hc

/-- The selected ticks in the order of evaluation: forward ticks ascending, then the final
sample. -/
structure IsSchedule (r : Rule) (n : Nat) (schedule : List Nat) : Prop where
  mem_iff : ∀ tick, tick ∈ schedule ↔ r.Selects n tick
  ordered : schedule.Pairwise Rule.Precedes

theorem isSchedule_checkpoints (r : Rule) (n : Nat) :
    IsSchedule r n ((r.checkpoints n).map (·.1)) where
  mem_iff := by
    intro tick
    constructor
    · intro h
      obtain ⟨c, hc, rfl⟩ := List.mem_map.1 h
      exact (Rule.mem_checkpoints_iff.1 hc).1
    · intro h
      exact List.mem_map.2 ⟨(tick, r.asked tick), Rule.mem_checkpoints_iff.2 ⟨h, rfl⟩, rfl⟩
  ordered := List.pairwise_map.2 (Rule.pairwise_checkpoints r n)

theorem IsSchedule.nodup {schedule : List Nat} (h : IsSchedule r n schedule) : schedule.Nodup := by
  refine h.ordered.imp ?_
  rintro tick _ hprecedes rfl
  exact hprecedes.asymm hprecedes

/-- The final sample is visited as the last tick only. -/
theorem final_of_visited (hsplit : r.checkpoints n = before ++ c :: after)
    (hzero : 0 ∈ (before ++ [c]).map (·.1)) : c.1 = 0 := by
  have horder := Rule.pairwise_checkpoints r n
  rw [hsplit, List.pairwise_append] at horder
  obtain ⟨d, hd, hdzero⟩ := List.mem_map.1 hzero
  rcases List.mem_append.1 hd with hin | heq
  · exact absurd hdzero (horder.2.2 d hin c (by simp)).1
  · rw [List.mem_singleton.1 heq] at hdzero
    exact hdzero

/-- A rule over samples visits its schedule from the start, each tick once, up to the first tick
that is not as the rule asks. This tick gives the result, and the run passes if there is none. The
final sample is visited only after all forward ticks were as asked. -/
theorem run_stops_at_first_unexpected (r : Rule) (hn : 1 ≤ n)
    (observe : Nat → Except ε TickResult) :
    ∃ schedule visited result, IsSchedule r n schedule ∧ run r n observe = result ∧
      runRecorded r n observe = (result, visited) ∧ visited <+: schedule ∧ visited.Nodup ∧
      (result = .ok .passed → visited = schedule) ∧
      (result = .ok .passed ↔ ∀ tick, r.Selects n tick → Expected observe (tick, r.asked tick)) ∧
      (result = .ok .passed ∨ ∃ tick, FirstUnexpected r n observe tick) ∧
      (∀ tick, FirstUnexpected r n observe tick →
        visited.getLast? = some tick ∧ result = resultAt n tick (observe tick)) ∧
      (0 ∈ visited → ∀ tick, r.Selects n tick → tick ≠ 0 →
        Expected observe (tick, r.asked tick)) := by
  have hrun : runRecorded r n observe = scanRecorded n observe (r.checkpoints n) [] := by
    rw [runRecorded, run, if_neg (Nat.ne_of_gt hn), scanRecorded]
  have hresult : run r n observe = (scanRecorded n observe (r.checkpoints n) []).1 := by
    rw [fst_scanRecorded, run, if_neg (Nat.ne_of_gt hn)]
  have hschedule := isSchedule_checkpoints r n
  rw [hrun, hresult]
  rcases scanRecorded_cases n observe (r.checkpoints n) with
    ⟨hall, hscan⟩ | ⟨before, c, after, hsplit, hbefore, hc, hscan⟩
  · have hexpected : ∀ tick, r.Selects n tick → Expected observe (tick, r.asked tick) :=
      fun tick htick => hall _ (Rule.mem_checkpoints_iff.2 ⟨htick, rfl⟩)
    refine ⟨_, _, _, hschedule, by rw [hscan], hscan, List.prefix_rfl, hschedule.nodup,
      fun _ => rfl, iff_of_true rfl hexpected, .inl rfl, ?_,
      fun _ tick htick _ => hexpected tick htick⟩
    intro tick htick
    exact absurd (hexpected tick htick.selected) htick.unexpected
  · have hselects : r.Selects n c.1 ∧ c.2 = r.asked c.1 :=
      Rule.mem_checkpoints_iff.1 (by simp [hsplit])
    have hunexpected : ¬Expected observe (c.1, r.asked c.1) := by
      rw [← hselects.2]
      exact hc
    have hnotPassed := resultAt_ne_passed n c.1 (observe c.1)
    have hvisited : (before ++ [c]).map (·.1) <+: (r.checkpoints n).map (·.1) := by
      rw [hsplit]
      exact List.IsPrefix.map _ ⟨after, by simp⟩
    have hfirst : FirstUnexpected r n observe c.1 :=
      ⟨hselects.1, hunexpected, fun other hother hprecedes =>
        hbefore _ (Rule.mem_before_of_precedes hsplit hother hprecedes)⟩
    refine ⟨_, _, _, hschedule, by rw [hscan], hscan, hvisited,
      hschedule.nodup.sublist hvisited.sublist, fun hpassed => absurd hpassed hnotPassed,
      iff_of_false hnotPassed fun hall => hunexpected (hall c.1 hselects.1),
      .inr ⟨c.1, hfirst⟩, ?_, ?_⟩
    · intro tick htick
      obtain rfl := htick.eq_of_split hsplit hbefore hc
      simp
    · intro hzero tick htick hne
      have hfinal := final_of_visited hsplit hzero
      exact hbefore _ (Rule.mem_before_of_precedes hsplit htick ⟨hne, .inl hfinal⟩)

/-- An assertion that is false at the second of three forward ticks fails there, although the final
sample would be as asked. -/
theorem run_stops_at_second_tick :
    let observe (tick : Nat) : Except AssertionError TickResult :=
      .ok (.evaluated ⟨.truth (tick == 1 || tick == 3), "seen"⟩)
    ∃ visited result, runRecorded .anyExceptLast 5 observe = (result, visited) ∧
      visited.getLast? = some 2 ∧ result = .ok (.failed 2 1 "seen") := by
  intro observe
  have hfirst : FirstUnexpected .anyExceptLast 5 observe 2 := by
    refine ⟨.inr (by decide), ?_, ?_⟩
    · rintro ⟨o, hobserve, htruth⟩
      obtain rfl := TickResult.evaluated.inj (Except.ok.inj hobserve)
      exact absurd htruth (by decide)
    · rintro other - ⟨hne, hprecedes⟩
      obtain rfl : other = 1 := by omega
      exact ⟨_, rfl, by decide⟩
  obtain ⟨_, visited, result, -, -, hrun, -, -, -, -, -, hstops, -⟩ :=
    run_stops_at_first_unexpected .anyExceptLast (by decide : 1 ≤ 5) observe
  exact ⟨visited, result, hrun, hstops 2 hfirst⟩

end TrafficCheck.Window
