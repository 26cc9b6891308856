import TrafficCheck.Proofs.Elapsed
import TrafficCheck.Proofs.Schedule
import TrafficCheck.Proofs.Truth

/-!
# Checks

A check of an assertion decides what its rule means, said of the truth of its expression at the
ticks of a history; where this does not hold the check reports the first tick that violates it.

## Main statements

* `Assertion.Expresses.scan_cases`: how the scan of a rule ends in terms of that truth.
* `Assertion.exists_failureMessage_eq`: what the message of a failure shows and names.
* `Assertion.check_decides_meaning`: a check passes just if the meaning of its rule holds, and what
  it reports where this does not hold.
-/

namespace TrafficCheck.Assertion

open Window (scan elapsedAt Expected)

variable {expression file : String} {line tick n : Nat} {r : Rule} {ts : List Token} {a : Assertion}
  {e : Expression} {t : Topology} {h : History} {b : TickBinding} {c : Nat × Bool}

/-- A tick whose variables are bound is not unresolved. -/
theorem observe_ne_unresolved (hbind : t.bind h tick a.inputs = .ok b) (reason : String) :
    a.observe t h tick ≠ .ok (.unresolved reason) := by
  simp only [observe, hbind]
  cases a.program.evaluateTick b a.multiport <;> simp

/-- A checkpoint that is evaluated is as expected just if the truth of the expression is what the
rule asks. -/
theorem Expresses.expected_iff (ha : a.Expresses e) (hbind : t.bind h c.1 a.inputs = .ok b)
    (hc : c ∈ r.checkpoints n) {o : Observation}
    (hobserve : a.observe t h c.1 = .ok (.evaluated o)) :
    Expected (a.observe t h) c ↔ r.Satisfied (e.Holds t h) c.1 := by
  have hasked := (Rule.mem_checkpoints_iff.1 hc).2
  rw [Rule.Satisfied, ← ha.observe_isTrue_iff hbind hobserve, ← hasked, ← Bool.eq_iff_iff]
  constructor
  · rintro ⟨o', hobserve', htruth⟩
    rw [hobserve] at hobserve'
    obtain rfl := TickResult.evaluated.inj (Except.ok.inj hobserve')
    exact htruth
  · intro htruth
    exact ⟨o, hobserve, htruth⟩

/-- The scan of a rule passes if the rule's meaning holds, fails at its first violation, or stops at
a selected tick whose observation errs. -/
theorem Expresses.scan_cases (ha : a.Expresses e) (r : Rule) (n : Nat)
    (hbinds : ∀ tick, r.Selects n tick → ∃ b, t.bind h tick a.inputs = .ok b) :
    (r.Means n (e.Holds t h) ∧ scan n (a.observe t h) (r.checkpoints n) = .ok .passed) ∨
    (∃ tick o, r.FirstViolation n (e.Holds t h) tick ∧
      a.observe t h tick = .ok (.evaluated o) ∧
      scan n (a.observe t h) (r.checkpoints n) = .ok (.failed tick (elapsedAt n tick) o.trace)) ∨
    ∃ tick cause, r.Selects n tick ∧ a.observe t h tick = .error cause ∧
      scan n (a.observe t h) (r.checkpoints n) = .error cause := by
  have hsatisfied : ∀ c ∈ r.checkpoints n, Expected (a.observe t h) c →
      r.Satisfied (e.Holds t h) c.1 := by
    intro c hc hexpected
    obtain ⟨b, hb⟩ := hbinds c.1 (Rule.mem_checkpoints_iff.1 hc).1
    obtain ⟨o, hobserve, htruth⟩ := hexpected
    exact (ha.expected_iff hb hc hobserve).1 ⟨o, hobserve, htruth⟩
  rcases Window.scan_cases n (a.observe t h) (r.checkpoints n) with
    ⟨hall, hscan⟩ | ⟨before, c, after, hsplit, hbefore, hc, hscan⟩
  · left
    refine ⟨Rule.means_iff.2 ?_, hscan⟩
    intro tick htick
    have hmem : (tick, r.asked tick) ∈ r.checkpoints n := Rule.mem_checkpoints_iff.2 ⟨htick, rfl⟩
    exact hsatisfied (tick, r.asked tick) hmem (hall _ hmem)
  · right
    have hmem : c ∈ r.checkpoints n := by simp [hsplit]
    have hselects := (Rule.mem_checkpoints_iff.1 hmem).1
    obtain ⟨b, hb⟩ := hbinds c.1 hselects
    split at hscan
    · next o hobserve =>
      left
      have hviolated := mt (ha.expected_iff hb hmem hobserve).2 hc
      have hearlier : ∀ d ∈ before, r.Satisfied (e.Holds t h) d.1 := fun d hd =>
        hsatisfied d (by simp [hsplit, hd]) (hbefore d hd)
      exact ⟨c.1, o, Rule.firstViolation_of_split hsplit hearlier hviolated, hobserve, hscan⟩
    · next reason hobserve => exact absurd hobserve (observe_ne_unresolved hb reason)
    · next cause hobserve => exact .inr ⟨c.1, cause, hselects, hobserve, hscan⟩

/-- The message of a failure shows its second, and names the expression, the file and what was
read. -/
theorem exists_failureMessage_eq (a : Assertion) (seconds : Nat) (trace : String) :
    ∃ clock, Elapsed.Shows seconds clock ∧ a.failureMessage seconds trace =
      clock ++ " Assertion failed ('" ++ a.expression ++ "' in " ++ a.file ++ "): " ++ trace :=
  ⟨_, Elapsed.shows_clock seconds, rfl⟩

/-- An assertion names the line and the file that it was read from. -/
theorem names_of_read (hread : read expression file line = .ok a) :
    a.expression = expression ∧ a.file = file := by
  obtain ⟨r, tokens, program, inputs, -, -, -, rfl⟩ := read_eq_ok_iff.1 hread
  exact ⟨rfl, rfl⟩

/-- A check of an assertion that was read from a rule and a writing of an expression decides what
the rule means for the truth of the expression. It passes just if this holds. If not, it fails, and
its message shows the elapsed time of the first selected tick that violates it, where the final
sample counts as the last one, and then names the expression, its file and what was read. -/
theorem check_decides_meaning (htokens : Token.ofAssertion expression = .ok (r, ts))
    (he : Written Operator.loosest e ts) (hread : read expression file line = .ok a)
    (t : Topology) (h : History) (hsize : 0 < h.size)
    (hbinds : ∀ tick, r.Selects h.size tick → ∃ b, t.bind h tick a.inputs = .ok b) :
    ((∀ tick, r.Selects h.size tick → e.Defined t h tick) →
      ∃ a', (a.check t h).outcome = .ok a') ∧
    ∀ a', (a.check t h).outcome = .ok a' →
      (a'.outcome = .passed ↔ r.Means h.size (e.Holds t h)) ∧
      (¬r.Means h.size (e.Holds t h) → ∃ tick o clock,
        r.FirstViolation h.size (e.Holds t h) tick ∧ a.observe t h tick = .ok (.evaluated o) ∧
        Elapsed.Shows (if tick = 0 then h.size / 2 else (tick + 1) / 2) clock ∧
        a'.outcome = .failed
          (clock ++ " Assertion failed ('" ++ expression ++ "' in " ++ file ++ "): " ++
            o.trace)) := by
  obtain ⟨hexpresses, rfl, hactive⟩ := expresses_of_read htokens he hread
  obtain ⟨hexpression, hfile⟩ := names_of_read hread
  rw [outcome_check_of_size_pos hactive hsize]
  rcases hexpresses.scan_cases a.rule h.size hbinds with
    ⟨hmeans, hscan⟩ | ⟨tick, o, hfirst, hobserve, hscan⟩ | ⟨tick, cause, hselects, hobserve, hscan⟩
  · rw [hscan]
    refine ⟨fun _ => ⟨_, rfl⟩, ?_⟩
    rintro a' ha'
    obtain rfl := Except.ok.inj ha'
    rw [outcome_settle hactive]
    exact ⟨iff_of_true rfl hmeans, fun hnot => absurd hmeans hnot⟩
  · have hnot : ¬a.rule.Means h.size (e.Holds t h) := by
      rw [Rule.means_iff]
      intro hall
      exact hfirst.violated (hall tick hfirst.selected)
    rw [hscan]
    refine ⟨fun _ => ⟨_, rfl⟩, ?_⟩
    rintro a' ha'
    obtain rfl := Except.ok.inj ha'
    rw [outcome_settle hactive]
    obtain ⟨clock, hclock, hmessage⟩ :=
      a.exists_failureMessage_eq (elapsedAt h.size tick) o.trace
    rw [hexpression, hfile] at hmessage
    exact ⟨iff_of_false (by simp) hnot,
      fun _ => ⟨tick, o, clock, hfirst, hobserve, hclock, congrArg Outcome.failed hmessage⟩⟩
  · rw [hscan]
    constructor
    · intro hdefined
      obtain ⟨b, hb⟩ := hbinds tick hselects
      obtain ⟨o, ho⟩ := hexpresses.exists_observe hb (hdefined tick hselects)
      rw [hobserve] at ho
      exact absurd ho (by simp)
    · intro a' ha'
      exact absurd ha' (by simp)

/-- A comparison of a counter on all client ports with one of the first client port has to hold at
the first tick of three and no longer at the end. It fails where it does not hold at that tick. -/
theorem check_decides_meaning_of_comparison :
    let client : PhysicalPort := ⟨"10.0.0.1", 1⟩
    let server : PhysicalPort := ⟨"10.0.0.1", 2⟩
    let mapping : PortMapping := ⟨[(⟨.client, some 1⟩, client), (⟨.server, some 1⟩, server)],
      by decide, by decide, by decide⟩
    let sample (x : Float) : Sample :=
      Table.ofList [(client, Table.ofList [("x", x), ("y", 1)]), (server, .empty)]
    let t : Topology := ⟨mapping, [server, client]⟩
    let h (x : Float) : History := ⟨#[sample 0, sample x, sample 2]⟩
    let e : Expression := .negation (.binary ⟨.less, by decide⟩
      (.reference "cport.x" none) (.reference "cport1.y" none))
    ∃ a, read "ANY_EXCEPT_LAST !(cport.x < cport1.y)" "rules" 1 = .ok a ∧
      (∃ a', (a.check t (h 1)).outcome = .ok a' ∧
        (a'.outcome = .passed ↔
          (∀ tick, 1 ≤ tick → tick + 2 ≤ 3 → e.Holds t (h 1) tick) ∧ ¬e.Holds t (h 1) 0)) ∧
      ∃ a', (a.check t (h 0.5)).outcome = .ok a' ∧ a'.outcome = .failed
        ("0:00:01 Assertion failed ('ANY_EXCEPT_LAST !(cport.x < cport1.y)' in rules): " ++
          "cport1: cport.x=0.5 cport1.y=1") := by
  intro client server mapping sample t h e
  have htokens : Token.ofAssertion "ANY_EXCEPT_LAST !(cport.x < cport1.y)" =
      .ok (.anyExceptLast, [.op .not, .leftParen, .reference "cport.x" none, .op .less,
        .reference "cport1.y" none, .rightParen]) := rfl
  have he : Written Operator.loosest e [.op .not, .leftParen, .reference "cport.x" none, .op .less,
      .reference "cport1.y" none, .rightParen] :=
    .negation _ (.enclosed _ (.binary _ (by decide) (.reference ..) (.reference ..)))
  obtain ⟨a, hread, hfinal, hforward, hseen⟩ :
      ∃ a, read "ANY_EXCEPT_LAST !(cport.x < cport1.y)" "rules" 1 = .ok a ∧
        (∀ x, ∃ b, t.bind (h x) 0 a.inputs = .ok b) ∧
        (∀ x, ∃ b, t.bind (h x) 1 a.inputs = .ok b) ∧
        a.observe t (h 0.5) 1 =
          .ok (.evaluated ⟨.truth false, "cport1: cport.x=0.5 cport1.y=1"⟩) :=
    ⟨_, rfl, fun x => ⟨_, rfl⟩, fun x => ⟨_, rfl⟩, by
      simp only [h, t, mapping, sample, client, server]
      rfl⟩
  have hticks : ∀ tick, Rule.Selects .anyExceptLast 3 tick → tick = 0 ∨ tick = 1 := by
    intro tick hselects
    simp only [Rule.Selects] at hselects
    omega
  have hbinds : ∀ x tick, Rule.Selects .anyExceptLast (h x).size tick →
      ∃ b, t.bind (h x) tick a.inputs = .ok b := by
    intro x tick hselects
    rcases hticks tick hselects with rfl | rfl
    · exact hfinal x
    · exact hforward x
  have hsize : ∀ x, 0 < (h x).size := fun x => Nat.succ_pos 2
  have hdecides := fun x => check_decides_meaning htokens he hread t (h x) (hsize x) (hbinds x)
  refine ⟨a, hread, ?passing, ?failing⟩
  case passing =>
    obtain ⟨hok, hmeans⟩ := hdecides 1
    obtain ⟨a', ha'⟩ := hok fun tick _ f _ => ⟨_, rfl⟩
    exact ⟨a', ha', (hmeans a' ha').1⟩
  case failing =>
    obtain ⟨hok, hmeans⟩ := hdecides 0.5
    obtain ⟨a', ha'⟩ := hok fun tick _ f _ => ⟨_, rfl⟩
    have hfalse : ¬e.Holds t (h 0.5) 1 := by
      obtain ⟨b, hb⟩ := hbinds 0.5 1 (.inr (by decide))
      rw [← (expresses_of_read htokens he hread).1.observe_isTrue_iff hb hseen]
      exact Bool.false_ne_true
    have hnot : ¬Rule.Means .anyExceptLast (h 0.5).size (e.Holds t (h 0.5)) := fun hall =>
      hfalse (hall.1 1 (by decide) (by decide))
    obtain ⟨tick, o, clock, hfirst, hobserve, hshows, hmessage⟩ := (hmeans a' ha').2 hnot
    obtain rfl : tick = 1 := by
      rcases hticks tick hfirst.selected with rfl | rfl
      · have hearlier := hfirst.earlier 1 (.inr (by decide)) ⟨by decide, .inl rfl⟩
        exact absurd (hearlier.2 rfl) hfalse
      · rfl
    rw [hseen] at hobserve
    obtain rfl := TickResult.evaluated.inj (Except.ok.inj hobserve)
    obtain ⟨hours, minutes, rest, hsum, hminutes, hrest, rfl⟩ := hshows
    obtain ⟨rfl, rfl, rfl⟩ : hours = 0 ∧ minutes = 0 ∧ rest = 1 := by
      simp only [if_neg (by decide : ¬1 = 0)] at hsum
      omega
    exact ⟨a', ha', hmessage⟩

end TrafficCheck.Assertion
