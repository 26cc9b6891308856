import TrafficCheck.Proofs.Execution

/-!
# Meaning of expressions

The value of an expression is defined by recursion on its tree. A machine that runs the postorder of
the tree computes this value on top of its stack, and reads the counters in the same order. This
holds in every monad in which counters may be read.

## Main statements

* `Expression.evalM_congr`: the meaning depends on the counters of the expression alone.
* `Machine.run_postorder`: what a machine makes of a postorder.
* `Program.run_evaluateM_postorder`, `Program.evaluate_postorder`: a postorder evaluates to the
  meaning of its tree.
-/

namespace TrafficCheck

/-- The value of every counter reference. -/
abbrev Valuation := String → Option Modifier → Float

/-- What a lookup gives for a counter reference, which it finds by its binding key. -/
def Valuation.keyed {α : Type} (lookup : String → α) (name : String) (modifier : Option Modifier) :
    α :=
  lookup (Token.bindingKey name modifier)

namespace Expression

/-- The counters read for an expression, from left to right, and its value, where `read` gives the
values of counters and may have effects of its own. There is no value where a division by zero
occurs, and nothing is read behind it. -/
def evalM {m : Type → Type} [Monad m] (read : String → Option Modifier → m Float) :
    Expression → m (Reads × Option Value)
  | .number x => return ([], some (.number x))
  | .reference name modifier => do
    let x ← read name modifier
    return ([(Token.bindingKey name modifier, x)], some (.number x))
  | .negation e => do
    let (reads, v) ← e.evalM read
    return (reads, v.map fun v => .truth (!v.isTrue))
  | .binary o l r => do
    match ← l.evalM read with
    | (reads, none) => return (reads, none)
    | (reads, some a) =>
      let (more, v) ← r.evalM read
      return (reads ++ more, v.bind fun b => Value.apply o.1 a b)

/-- The counters read for an expression under a valuation, and its value. -/
def eval (f : Valuation) (e : Expression) : Reads × Option Value := Id.run (e.evalM (m := Id) f)

/-- The value of an expression. -/
def value? (f : Valuation) (e : Expression) : Option Value := (e.eval f).2

/-- Whether an expression has a value and that value counts as true. -/
def IsTrue (f : Valuation) (e : Expression) : Prop := ∃ v, e.value? f = some v ∧ v.isTrue = true

/-- The meaning of an expression depends on the counters that it refers to alone. -/
theorem evalM_congr {m : Type → Type} [Monad m] {f g : String → Option Modifier → m Float}
    {e : Expression} (h : ∀ c ∈ e.references, f c.1 c.2 = g c.1 c.2) : e.evalM f = e.evalM g := by
  induction e with
  | number x => rfl
  | reference name modifier =>
    have hread : f name modifier = g name modifier := h (name, modifier) (by simp [references])
    simp [evalM, hread]
  | negation e ih => simp [evalM, ih h]
  | binary o l r ihl ihr =>
    have hl := ihl fun c hc => h c (by simp [references, hc])
    have hr := ihr fun c hc => h c (by simp [references, hc])
    simp [evalM, hl, hr]

end Expression

namespace Machine

variable {m : Type → Type} [Monad m] [LawfulMonad m]

/-- How a machine stops that has read `reads`, latest first, and found `v` on top of `stack`. -/
def settle (stack : List Value) (reads : Reads) : Option Value → Except Halt Machine
  | some v => .ok ⟨v :: stack, reads⟩
  | none => .error (.divisionByZero reads.reverse)

theorem operate_settle (o : BinaryOperator) (a b : Value) (stack : List Value) (reads : Reads) :
    operate ⟨b :: a :: stack, reads⟩ o.1 = settle stack reads (Value.apply o.1 a b) := by
  rw [operate_binary _ o.2]
  cases h : Value.apply o.1 a b <;> simp [settle, h]

/-- A postorder puts the meaning of its tree on top of what stands on the stack, with the effects
that reading its counters from left to right has. -/
theorem run_postorder (lookup : String → m Float) (e : Expression) (stack : List Value)
    (reads : Reads) :
    (e.postorder.foldlM (step lookup) ⟨stack, reads⟩).run =
      (fun r => settle stack (r.1.reverse ++ reads) r.2) <$> e.evalM (Valuation.keyed lookup) := by
  -- The right operand of an operator runs on top of the value and behind the reads of the left one.
  induction e generalizing stack reads with
  | number x => simp [Expression.postorder, Expression.evalM, step, settle]
  | reference name modifier =>
    simp [Expression.postorder, Expression.evalM, Valuation.keyed, step, settle, read]
  | negation e ih =>
    rw [Expression.postorder, List.foldlM_append, ExceptT.run_bind, ih, Expression.evalM]
    simp only [bind_map_left, map_bind]
    refine bind_congr fun r => ?_
    rcases r with ⟨more, _ | v⟩ <;> simp [settle, step, operate]
  | binary o l r ihl ihr =>
    rw [Expression.postorder, List.foldlM_append, List.foldlM_append, ExceptT.run_bind,
      ExceptT.run_bind, ihl, Expression.evalM, map_bind, bind_assoc, bind_map_left]
    refine bind_congr fun left => ?_
    rcases left with ⟨lreads, _ | a⟩
    · simp [settle]
    · simp only [settle, ihr, bind_map_left, map_bind]
      refine bind_congr fun right => ?_
      rcases right with ⟨rreads, _ | b⟩
      · simp
      · simp [settle, step, operate_settle]

end Machine

namespace Program

/-- A postorder evaluates to the meaning of its tree, whatever effects the lookup has. -/
theorem run_evaluateM_postorder {m : Type → Type} [Monad m] [LawfulMonad m]
    (lookup : String → m Float) (e : Expression) :
    (evaluateM lookup e.postorder).run =
      (fun r => match r.2 with
        | some v => .ok ⟨v, r.1⟩
        | none => .error (.divisionByZero r.1.trace)) <$> e.evalM (Valuation.keyed lookup) := by
  rw [evaluateM, run, ExceptT.run_adapt, ExceptT.run_bind, Machine.run_postorder, bind_map_left,
    map_bind, map_eq_pure_bind]
  refine bind_congr fun r => ?_
  rcases r with ⟨reads, _ | v⟩ <;> simp [Machine.settle, Machine.result, haltError]

/-- A postorder evaluates to the meaning of its tree, under any valuation that agrees with the
lookup on the counters of the tree. -/
theorem evaluate_postorder {lookup : String → Float} {f : Valuation} {e : Expression}
    (h : ∀ c ∈ e.references, Valuation.keyed lookup c.1 c.2 = f c.1 c.2) :
    evaluate lookup e.postorder = match e.value? f with
      | some v => .ok ⟨v, (e.eval f).1⟩
      | none => .error (.divisionByZero (e.eval f).1.trace) := by
  rw [evaluate, run_evaluateM_postorder, Expression.evalM_congr (m := Id) h, Id.run_map]
  rfl

theorem isTrueUnder_postorder_iff {lookup : String → Float} {f : Valuation} {e : Expression}
    (h : ∀ c ∈ e.references, Valuation.keyed lookup c.1 c.2 = f c.1 c.2) :
    IsTrueUnder e.postorder lookup ↔ e.IsTrue f := by
  rw [IsTrueUnder, evaluate_postorder h, Expression.IsTrue]
  cases e.value? f with
  | some v => simp
  | none => simp

theorem exists_evaluate_postorder_iff {lookup : String → Float} {f : Valuation} {e : Expression}
    (h : ∀ c ∈ e.references, Valuation.keyed lookup c.1 c.2 = f c.1 c.2) :
    (∃ r, evaluate lookup e.postorder = .ok r) ↔ ∃ v, e.value? f = some v := by
  rw [evaluate_postorder h]
  cases e.value? f with
  | some v => simp
  | none => simp

end Program

end TrafficCheck
