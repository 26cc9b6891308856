import TrafficCheck.Rule

/-!
# Schedules of rules

Which ticks a rule selects, which truth it asks of them, and in which order they are evaluated:
forward ticks in ascending order, then the final sample.

## Main definitions

* `Rule.Selects`: the ticks that a rule selects.
* `Rule.Means`: what a rule says of the truth at all ticks.
* `Rule.FirstViolation`: the first selected tick that is not as the rule asks.

## Main statements

* `Rule.mem_checkpoints_iff`, `Rule.pairwise_checkpoints`: the checkpoints of a rule and their
  order.
* `Rule.means_iff`: a rule means that every selected tick is as it asks.
-/

namespace TrafficCheck.Rule

variable {r : Rule} {n tick : Nat} {c : Nat × Bool} {truth : Nat → Prop}

/-! ## Meanings -/

/-- Whether a rule selects a tick in a run of `n` samples. -/
def Selects (r : Rule) (n tick : Nat) : Prop :=
  match r with
  | .last => tick = 0
  | .any => 1 ≤ tick ∧ tick + 1 ≤ n
  | .anyExceptLast => tick = 0 ∨ 1 ≤ tick ∧ tick + 2 ≤ n
  | .span s => 1 ≤ tick ∧ tick + 1 ≤ n ∧ s.first ≤ (tick + 1) / 2 ∧ (tick + 1) / 2 ≤ s.last

/-- What a rule says of the truth at the ticks of a run of `n` samples. -/
def Means (r : Rule) (n : Nat) (truth : Nat → Prop) : Prop :=
  match r with
  | .last => truth 0
  | .any => ∀ tick, 1 ≤ tick → tick + 1 ≤ n → truth tick
  | .anyExceptLast => (∀ tick, 1 ≤ tick → tick + 2 ≤ n → truth tick) ∧ ¬truth 0
  | .span s => ∀ tick, 1 ≤ tick → tick + 1 ≤ n →
      s.first ≤ (tick + 1) / 2 → (tick + 1) / 2 ≤ s.last → truth tick

/-- The truth value that a rule asks of a selected tick. -/
def asked (r : Rule) (tick : Nat) : Bool := !(tick = 0 && r = .anyExceptLast)

/-- Whether the truth at a tick is what a rule asks. -/
def Satisfied (r : Rule) (truth : Nat → Prop) (tick : Nat) : Prop :=
  truth tick ↔ r.asked tick = true

/-- A rule means that every selected tick is as it asks. -/
theorem means_iff : r.Means n truth ↔ ∀ tick, r.Selects n tick → r.Satisfied truth tick := by
  cases r with
  | last => simp [Means, Selects, Satisfied, asked]
  | any => simp [Means, Selects, Satisfied, asked]
  | anyExceptLast =>
    simp only [Means, Selects, Satisfied, asked]
    constructor
    · rintro ⟨hforward, hfinal⟩ tick (rfl | ⟨hpos, hlt⟩)
      · simpa using hfinal
      · simpa [Nat.ne_of_gt hpos] using hforward tick hpos hlt
    · intro h
      refine ⟨?_, by simpa using h 0 (.inl rfl)⟩
      intro tick hpos hlt
      simpa [Nat.ne_of_gt hpos] using h tick (.inr ⟨hpos, hlt⟩)
  | span s => simp [Means, Selects, Satisfied, asked]

/-- A rule that asks nothing of the final sample selects forward ticks only, and asks for truth. -/
theorem forward_of_selects (hr : r.finalExpectation = none) (htick : r.Selects n tick) :
    1 ≤ tick ∧ tick < n ∧ r.asked tick = true := by
  cases r with
  | last => exact absurd hr (by simp [finalExpectation])
  | anyExceptLast => exact absurd hr (by simp [finalExpectation])
  | any => exact ⟨htick.1, htick.2, by simp [asked]⟩
  | span s => exact ⟨htick.1, htick.2.1, by simp [asked]⟩

/-! ## Order -/

/-- Whether one tick is evaluated before another; the final sample comes last. -/
def Precedes (tick other : Nat) : Prop := tick ≠ 0 ∧ (other = 0 ∨ tick < other)

theorem Precedes.asymm {tick other : Nat} (h : Precedes tick other) : ¬Precedes other tick := by
  unfold Precedes at *
  omega

/-- A tick is the first one that a rule selects and that is not as the rule asks. -/
structure FirstViolation (r : Rule) (n : Nat) (truth : Nat → Prop) (tick : Nat) : Prop where
  selected : r.Selects n tick
  violated : ¬r.Satisfied truth tick
  earlier : ∀ other, r.Selects n other → Precedes other tick → r.Satisfied truth other

/-! ## Checkpoints -/

theorem mem_selectedTicks_iff : tick ∈ r.selectedTicks n ↔ tick ≠ 0 ∧ r.Selects n tick := by
  simp only [selectedTicks, List.mem_filter, List.mem_range'_1]
  cases r with
  | last => simp [forwardTicks, Selects]
  | any =>
    simp only [forwardTicks, Selects, constrains, and_true]
    omega
  | anyExceptLast =>
    simp only [forwardTicks, Selects, constrains, and_true]
    omega
  | span s =>
    simp only [forwardTicks, Selects, constrains, Bool.and_eq_true, decide_eq_true_eq]
    simp only [secondOfTick, ticksPerSecond]
    omega

/-- The selected ticks ascend. -/
theorem pairwise_selectedTicks (r : Rule) (n : Nat) : (r.selectedTicks n).Pairwise (· < ·) :=
  List.Pairwise.filter _ List.pairwise_lt_range'

theorem mem_forward_iff :
    c ∈ (r.selectedTicks n).map (·, true) ↔ (c.1 ≠ 0 ∧ r.Selects n c.1) ∧ c.2 = true := by
  rw [List.mem_map, ← mem_selectedTicks_iff]
  constructor
  · rintro ⟨tick, htick, rfl⟩
    exact ⟨htick, rfl⟩
  · rintro ⟨htick, htrue⟩
    exact ⟨c.1, htick, by simp [← htrue]⟩

theorem mem_final_iff :
    c ∈ (r.finalExpectation.map fun b => (0, b)).toList ↔
      c.1 = 0 ∧ r.finalExpectation = some c.2 := by
  rw [Option.mem_toList, Option.map_eq_some_iff]
  constructor
  · rintro ⟨b, hb, rfl⟩
    exact ⟨rfl, hb⟩
  · rintro ⟨hzero, hb⟩
    exact ⟨c.2, hb, by simp [← hzero]⟩

/-- The checkpoints of a rule are the ticks it selects, with the truth values it asks for. -/
theorem mem_checkpoints_iff : c ∈ r.checkpoints n ↔ r.Selects n c.1 ∧ c.2 = r.asked c.1 := by
  rw [checkpoints, List.mem_append, mem_forward_iff, mem_final_iff]
  obtain ⟨tick, b⟩ := c
  by_cases htick : tick = 0
  · subst htick
    cases r <;> simp [finalExpectation, Selects, asked, eq_comm]
  · simp [asked, htick]

/-- The checkpoints of a rule stand in the order of evaluation. -/
theorem pairwise_checkpoints (r : Rule) (n : Nat) :
    (r.checkpoints n).Pairwise fun c d => Precedes c.1 d.1 := by
  have hforward : (r.selectedTicks n).Pairwise Precedes := by
    refine (pairwise_selectedTicks r n).imp_of_mem ?_
    intro tick other htick _ hlt
    exact ⟨(mem_selectedTicks_iff.1 htick).1, .inr hlt⟩
  rw [checkpoints, List.pairwise_append]
  refine ⟨?_, ?_, ?_⟩
  · rw [List.pairwise_map]
    exact hforward
  · cases r.finalExpectation <;> simp
  · intro c hc d hd
    exact ⟨(mem_forward_iff.1 hc).1.1, .inl (mem_final_iff.1 hd).1⟩

/-- A selected tick that precedes a checkpoint is one of the checkpoints before it. -/
theorem mem_before_of_precedes {before after : List (Nat × Bool)} {other : Nat}
    (hsplit : r.checkpoints n = before ++ c :: after) (hother : r.Selects n other)
    (hprecedes : Precedes other c.1) : (other, r.asked other) ∈ before := by
  have hmem : (other, r.asked other) ∈ r.checkpoints n := mem_checkpoints_iff.2 ⟨hother, rfl⟩
  -- The order leaves the tick no place but before `c`.
  have horder := pairwise_checkpoints r n
  rw [hsplit, List.pairwise_append, List.pairwise_cons] at horder
  rw [hsplit, List.mem_append, List.mem_cons] at hmem
  rcases hmem with hin | heq | hin
  · exact hin
  · exact absurd hprecedes (by simp [← heq, Precedes])
  · exact absurd hprecedes (horder.2.1.1 _ hin).asymm

/-- A checkpoint behind checkpoints that are as the rule asks is its first violation, unless it is
as the rule asks itself. -/
theorem firstViolation_of_split {before after : List (Nat × Bool)}
    (hsplit : r.checkpoints n = before ++ c :: after)
    (hbefore : ∀ d ∈ before, r.Satisfied truth d.1) (hc : ¬r.Satisfied truth c.1) :
    r.FirstViolation n truth c.1 := by
  have hmem : c ∈ r.checkpoints n := by simp [hsplit]
  refine ⟨(mem_checkpoints_iff.1 hmem).1, hc, ?_⟩
  intro other hother hprecedes
  exact hbefore _ (mem_before_of_precedes hsplit hother hprecedes)

end TrafficCheck.Rule
