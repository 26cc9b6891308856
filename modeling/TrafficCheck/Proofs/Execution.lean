import TrafficCheck.Proofs.Conservation
import TrafficCheck.Proofs.Postorder
import TrafficCheck.Proofs.Ticks
import TrafficCheck.Proofs.Verdict

/-!
# Execution of programs

The depth of a program counts the values that stand on the stack of its machine. A machine goes on
as long as the depth does, unless it divides by zero, and a machine that goes on has a depth. This
holds under lookups with a state as well, which every call may change.

## Main definitions

* `Machine.runFrom`, `Program.evaluateFrom`: runs under a lookup in some state.
* `Machine.Follows`: how one step of a machine goes with one step of the depth.

## Main statements

* `Program.evaluateM_pure`: a lookup without effects gives a program none.
* `Machine.step_follows`: what a token does to a machine, by what it does to the depth.
* `Machine.run_completes`, `Machine.depth_run`: how runs and depths go together.
* `Program.compiled_completes`: a compiled program has a value unless it divides by zero, so that a
  check fails by nothing else.
-/

namespace TrafficCheck

/-- A computation ends in a value or divides by zero. -/
def Completes {α : Type} (r : Except AssertionError α) : Prop :=
  (∃ x, r = .ok x) ∨ ∃ trace, r = .error (.divisionByZero trace)

theorem Completes.error {α : Type} {r : Except AssertionError α} {e : AssertionError}
    (h : Completes r) (he : r = .error e) : ∃ trace, e = .divisionByZero trace := by
  rcases h with ⟨x, rfl⟩ | ⟨trace, rfl⟩
  · exact absurd he (by simp)
  · exact ⟨trace, (Except.error.inj he).symm⟩

/-! ## Lookups without effects -/

section Pure

variable {m : Type → Type} [Monad m] [LawfulMonad m]

theorem Machine.step_pure (lookup : String → Float) (s : Machine) (t : Token) :
    (step (fun key => (pure (lookup key) : m Float)) s t).run =
      pure (Id.run (step (m := Id) lookup s t).run) := by
  cases t with
  | reference name modifier => simp [step]; rfl
  | _ => rfl

theorem Machine.foldlM_step_pure (lookup : String → Float) (ts : List Token) (s : Machine) :
    (ts.foldlM (step fun key => (pure (lookup key) : m Float)) s).run =
      pure (Id.run (ts.foldlM (step (m := Id) lookup) s).run) := by
  induction ts generalizing s with
  | nil => rfl
  | cons t ts ih =>
    rw [List.foldlM_cons, List.foldlM_cons, ExceptT.run_bind, ExceptT.run_bind, step_pure,
      pure_bind, Id.run_bind]
    cases Id.run (step (m := Id) lookup s t).run with
    | error e => rfl
    | ok s' => exact ih s'

/-- A lookup that has no effects gives a program none. -/
theorem Program.evaluateM_pure (lookup : String → Float) (p : Program) :
    (p.evaluateM fun key => (pure (lookup key) : m Float)).run = pure (p.evaluate lookup) := by
  rw [evaluateM, run, ExceptT.run_adapt, ExceptT.run_bind, Machine.foldlM_step_pure, pure_bind,
    evaluate, evaluateM, run, ExceptT.run_adapt, ExceptT.run_bind, Id.run_map, Id.run_bind]
  cases Id.run (p.foldlM (Machine.step (m := Id) lookup) ⟨[], []⟩).run with
  | error e => exact map_pure _ _
  | ok s => exact map_pure _ _

end Pure

/-! ## Lookups with a state -/

section

variable {σ : Type} (lookup : String → StateM σ Float)

/-- The result of some tokens for a machine, under a lookup in a state, and the state that the
lookup is left in. -/
def Machine.runFrom (ts : List Token) (s : Machine) (c : σ) : Except Halt Machine × σ :=
  ((ts.foldlM (step lookup) s).run.run c).run

/-- The result of a program under a lookup in a state, and the state that the lookup is left in. -/
def Program.evaluateFrom (p : Program) (c : σ) : Except AssertionError Evaluation × σ :=
  ((p.evaluateM lookup).run.run c).run

end

namespace Machine

variable {σ : Type} {lookup : String → StateM σ Float} {s s' : Machine} {c c' : σ} {t : Token}
  {ts : List Token} {d : Nat} {o : Operator}

/-! ## One token -/

/-- An operator of two operands takes the two innermost values. -/
theorem operate_binary (s : Machine) (ho : o ≠ .not) :
    s.operate o = match s.stack with
      | b :: a :: rest =>
        match Value.apply o a b with
        | some v => .ok { s with stack := v :: rest }
        | none => .error (.divisionByZero s.reads.reverse)
      | _ => .error .stackUnderflow := by
  cases o with
  | not => exact absurd rfl ho
  | _ => rfl

/-- A machine goes on where the depth does, unless it divides by zero, and underflows its stack
where the depth does not go on. -/
inductive Follows : Except Malformation Nat → Except Halt Machine → Prop
  | goesOn (s : Machine) : Follows (.ok s.stack.length) (.ok s)
  | divides (d : Nat) (reads : Reads) : Follows (.ok d) (.error (.divisionByZero reads))
  | underflows (reason : Malformation) : Follows (.error reason) (.error .stackUnderflow)

theorem operate_follows (s : Machine) (o : Operator) :
    Follows (Program.depthStep s.stack.length (.op o)) (s.operate o) := by
  by_cases ho : o = .not
  · subst ho
    rcases s with ⟨_ | ⟨a, rest⟩, reads⟩
    · exact .underflows (.missingOperand .not)
    · exact .goesOn ⟨.truth (!a.isTrue) :: rest, reads⟩
  · rw [operate_binary s ho]
    have hmissing {n : Nat} (hn : n < 2) :
        Program.depthStep n (.op o) = .error (.missingOperand o) := by
      rw [Program.depthStep, Operator.arity_of_ne_not ho, if_pos hn]
    rcases s with ⟨_ | ⟨b, _ | ⟨a, rest⟩⟩, reads⟩
    · rw [List.length_nil, hmissing Nat.two_pos]
      exact .underflows _
    · rw [List.length_singleton, hmissing Nat.one_lt_two]
      exact .underflows _
    · rw [List.length_cons, List.length_cons, Program.depthStep_binary ho rest.length]
      cases happly : Value.apply o a b with
      | some v =>
        simp only [happly]
        exact .goesOn ⟨v :: rest, reads⟩
      | none =>
        simp only [happly]
        exact .divides _ _

theorem step_follows (lookup : String → StateM σ Float) (s : Machine) (c : σ)
    (ht : t.isInstruction = true) :
    Follows (Program.depthStep s.stack.length t) ((step lookup s t).run.run c).run.1 := by
  cases t with
  | number x => exact .goesOn ⟨.number x :: s.stack, s.reads⟩
  | reference name modifier =>
    let key := Token.bindingKey name modifier
    exact .goesOn (s.read key ((lookup key).run c).run.1)
  | op o => exact operate_follows s o
  | _ => exact absurd ht (by simp [Token.isInstruction])

theorem isInstruction_of_step (h : ((step lookup s t).run.run c).run = (.ok s', c')) :
    t.isInstruction = true := by
  cases t with
  | number x | reference name modifier | op o => rfl
  | _ => exact absurd (congrArg Prod.fst h) (by simp [step])

/-! ## Runs -/

theorem runFrom_cons (lookup : String → StateM σ Float) (t : Token) (ts : List Token) (s : Machine)
    (c : σ) :
    runFrom lookup (t :: ts) s c = match ((step lookup s t).run.run c).run with
      | (.ok s', c') => runFrom lookup ts s' c'
      | (.error e, c') => (.error e, c') := by
  rw [runFrom, List.foldlM_cons, ExceptT.run_bind, StateT.run_bind, Id.run_bind]
  rcases ((step lookup s t).run.run c).run with ⟨e | s', c'⟩ <;> rfl

/-- Tokens with a depth are executed to a stack of that height, unless they divide by zero. -/
theorem run_completes (lookup : String → StateM σ Float) (c : σ)
    (hts : ∀ t ∈ ts, t.isInstruction = true)
    (h : ts.foldlM Program.depthStep s.stack.length = .ok d) :
    (∃ s', (runFrom lookup ts s c).1 = .ok s' ∧ s'.stack.length = d) ∨
      ∃ reads, (runFrom lookup ts s c).1 = .error (.divisionByZero reads) := by
  induction ts generalizing s c with
  | nil =>
    obtain rfl := Except.ok.inj h
    exact .inl ⟨s, rfl, rfl⟩
  | cons t ts ih =>
    have hfollows := step_follows lookup s c (hts t (by simp))
    rw [List.foldlM_cons] at h
    rw [runFrom_cons]
    rcases hstep : ((step lookup s t).run.run c).run with ⟨r, c'⟩
    rw [hstep] at hfollows
    generalize Program.depthStep s.stack.length t = depth at h hfollows
    cases hfollows with
    | goesOn s' => exact ih c' (fun u hu => hts u (by simp [hu])) h
    | divides d' reads => exact .inr ⟨reads, rfl⟩
    | underflows reason => exact absurd h (by simp)

/-- Tokens that are executed have the height of the stack they lead to as their depth. -/
theorem depth_run (h : (runFrom lookup ts s c).1 = .ok s') :
    ts.foldlM Program.depthStep s.stack.length = .ok s'.stack.length := by
  induction ts generalizing s c with
  | nil =>
    obtain rfl := Except.ok.inj h
    rfl
  | cons t ts ih =>
    rw [runFrom_cons] at h
    rcases hstep : ((step lookup s t).run.run c).run with ⟨e | mid, c'⟩
    · rw [hstep] at h
      exact absurd h (by simp)
    · have hfollows := step_follows lookup s c (isInstruction_of_step hstep)
      rw [hstep] at h hfollows
      rw [List.foldlM_cons]
      generalize Program.depthStep s.stack.length t = depth at hfollows ⊢
      cases hfollows with
      | goesOn => exact ih h

end Machine

namespace Program

variable {σ : Type} {lookup : String → StateM σ Float} {c : σ} {line : String} {ts : List Token}
  {p : Program} {b : TickBinding}

/-! ## Programs that were compiled -/

/-- The result of a program is that of its machine. -/
theorem evaluateFrom_eq (lookup : String → StateM σ Float) (p : Program) (c : σ) :
    p.evaluateFrom lookup c = match Machine.runFrom lookup p ⟨[], []⟩ c with
      | (.ok s, c') => (s.result.mapError p.haltError, c')
      | (.error e, c') => (.error (p.haltError e), c') := by
  rw [evaluateFrom, evaluateM, run, ExceptT.run_adapt, ExceptT.run_bind, StateT.run_map,
    StateT.run_bind, Id.run_map, Id.run_bind, Machine.runFrom]
  rcases ((p.foldlM (Machine.step lookup) ⟨[], []⟩).run.run c).run with ⟨e | s, c'⟩ <;> rfl

/-- A lookup without effects is one with a state that says nothing. -/
theorem evaluate_eq_evaluateFrom (lookup : String → Float) (p : Program) :
    p.evaluate lookup = (p.evaluateFrom (fun key => pure (lookup key)) ()).1 := by
  rw [evaluateFrom, evaluateM_pure]
  rfl

theorem evaluateFrom_completes (h : compile line ts = .ok p) (lookup : String → StateM σ Float)
    (c : σ) : Completes (p.evaluateFrom lookup c).1 := by
  have hdepth := depth_eq_one_of_checkArity (compile_eq_ok_iff.1 h).2
  have hrun := Machine.run_completes (s := ⟨[], []⟩) lookup c (isInstruction_of_compile h) hdepth
  rw [evaluateFrom_eq]
  generalize Machine.runFrom lookup p ⟨[], []⟩ c = run at hrun ⊢
  rcases run with ⟨r, c'⟩
  rcases hrun with ⟨s, rfl, hheight⟩ | ⟨reads, rfl⟩
  · obtain ⟨v, hv⟩ := List.length_eq_one_iff.1 hheight
    exact .inl ⟨⟨v, s.reads.reverse⟩, by simp [Machine.result, hv]⟩
  · exact .inr ⟨reads.trace, rfl⟩

theorem evaluate_completes (h : compile line ts = .ok p) (lookup : String → Float) :
    Completes (p.evaluate lookup) := by
  rw [evaluate_eq_evaluateFrom]
  exact evaluateFrom_completes h _ _

/-- A program with a value has passed the check of its operands. -/
theorem checkArity_of_evaluateFrom {r : Evaluation} (h : (p.evaluateFrom lookup c).1 = .ok r) :
    p.checkArity = .ok () := by
  rw [evaluateFrom_eq] at h
  rcases hrun : Machine.runFrom lookup p ⟨[], []⟩ c with ⟨e | s, c'⟩
  · exact absurd h (by simp [hrun])
  · have hdepth : p.depth = .ok s.stack.length := Machine.depth_run (congrArg Prod.fst hrun)
    rw [hrun] at h
    have hresult := Outcome.mapError_eq_ok_iff.1 h
    rw [Machine.result] at hresult
    split at hresult
    · next v hstack =>
      rw [hstack] at hdepth
      simp [checkArity, hdepth]
    · exact absurd hresult (by simp)

/-- What the check of operands rejects has no value. -/
theorem exists_error_of_checkArity {reason : Malformation} (h : p.checkArity = .error reason)
    (lookup : String → StateM σ Float) (c : σ) : ∃ e, (p.evaluateFrom lookup c).1 = .error e := by
  cases heval : (p.evaluateFrom lookup c).1 with
  | error e => exact ⟨e, rfl⟩
  | ok r =>
    rw [checkArity_of_evaluateFrom heval] at h
    exact absurd h (by simp)

/-! ## Ticks and checks -/

theorem evaluateTick_completes (hp : ∀ lookup, Completes (p.evaluate lookup)) (b : TickBinding)
    (multiport : Bool) : Completes (p.evaluateTick b multiport) := by
  cases htick : p.evaluateTick b multiport with
  | ok o => exact .inl ⟨o, rfl⟩
  | error e =>
    obtain ⟨lookup, -, herror⟩ := evaluateTick_eq_error htick
    obtain ⟨trace, rfl⟩ := (hp lookup).error herror
    exact .inr ⟨trace, rfl⟩

end Program

namespace Assertion

variable {a : Assertion} {t : Topology} {h : History} {e : AssertionError}

/-- An error of a check is that of the program under some lookup, with the place of the
assertion. -/
theorem check_eq_error (hcheck : (a.check t h).outcome = .error e) :
    ∃ lookup cause, a.program.evaluate lookup = .error cause ∧ e = .inFile a.file a.line cause := by
  by_cases ha : a.isActive = true
  · rw [outcome_check ha, verdict] at hcheck
    cases hrun : Window.run a.rule h.size (a.observe t h) with
    | ok v => exact absurd hcheck (by simp [hrun])
    | error cause =>
      obtain ⟨tick, htick⟩ := Window.run_eq_error hrun
      obtain ⟨lookup, herror⟩ := observe_eq_error htick
      exact ⟨lookup, cause, herror, by simpa [hrun] using hcheck.symm⟩
  · exact absurd hcheck (by simp [outcome_check_of_not_active ha])

end Assertion

/-! ## The guarantee -/

/-- Whatever was compiled has a value unless it divides by zero, for every lookup, also for one with
a state, and at every tick; a check therefore errs only by dividing by zero, and names its assertion
then. What the check of operands rejects has no value under any lookup. -/
theorem Program.compiled_completes :
    (∀ line ts p, compile line ts = .ok p →
      (∀ (σ : Type) (lookup : String → StateM σ Float) c, Completes (p.evaluateFrom lookup c).1) ∧
        (∀ lookup, Completes (p.evaluate lookup)) ∧
        ∀ b multiport, Completes (p.evaluateTick b multiport)) ∧
    (∀ expression file line a, Assertion.read expression file line = .ok a →
      ∀ state t h e, (Assertion.check { a with state } t h).outcome = .error e →
        ∃ trace, e = .inFile file line (.divisionByZero trace)) ∧
    (∀ (p : Program) reason, p.checkArity = .error reason →
      (∀ (σ : Type) (lookup : String → StateM σ Float) c,
        ∃ e, (p.evaluateFrom lookup c).1 = .error e) ∧
        ∀ lookup, ∃ e, p.evaluate lookup = .error e) := by
  refine ⟨?compiled, ?checked, ?rejected⟩
  case compiled =>
    intro line ts p hcompile
    have hp := evaluate_completes hcompile
    exact ⟨fun _ => evaluateFrom_completes hcompile, hp, evaluateTick_completes hp⟩
  case checked =>
    intro expression file line a hread state t h e hcheck
    obtain ⟨r, tokens, program, inputs, -, hcompile, -, rfl⟩ := Assertion.read_eq_ok_iff.1 hread
    obtain ⟨lookup, cause, herror, rfl⟩ := Assertion.check_eq_error hcheck
    obtain ⟨trace, rfl⟩ := (evaluate_completes hcompile lookup).error herror
    exact ⟨trace, rfl⟩
  case rejected =>
    intro p reason hreason
    refine ⟨fun _ => exists_error_of_checkArity hreason, fun lookup => ?_⟩
    rw [evaluate_eq_evaluateFrom]
    exact exists_error_of_checkArity hreason _ _

/-- A quotient completes although its divisor is zero, and a lone negation has no value. -/
theorem Program.quotient_completes :
    (∀ (σ : Type) (lookup : String → StateM σ Float) c, Completes
      (evaluateFrom lookup [.reference "a" none, .number 0, .op .divide] c).1) ∧
      (∀ lookup, Completes (evaluate lookup [.reference "a" none, .number 0, .op .divide])) ∧
      ∀ lookup, ∃ e, evaluate lookup [.op .not] = .error e := by
  have hcompile : compile "a / 0" [.reference "a" none, .op .divide, .number 0] =
      .ok [.reference "a" none, .number 0, .op .divide] := rfl
  have hreject : checkArity [.op .not] = .error (.missingOperand .not) := rfl
  obtain ⟨hstate, hpure, -⟩ := compiled_completes.1 _ _ _ hcompile
  exact ⟨hstate, hpure, (compiled_completes.2.2 _ _ hreject).2⟩

end TrafficCheck
