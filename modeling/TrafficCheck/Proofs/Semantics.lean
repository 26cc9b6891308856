import TrafficCheck.Proofs.Meaning

/-!
# Semantics of expressions

Two relations say what becomes of an expression without a stack: the value that it yields, and the
counters that are read until it divides by zero. Counters are read by a lookup that has a state, and
may give another value at every call. One of the relations holds for each expression and each state,
and the program of its tree does what that one says, with the same calls of the lookup.

## Main definitions

* `Expression.Yields`, `Expression.DividesByZero`: what becomes of an expression, and the calls of
  the lookup that are made for it.
* `recorded`: a lookup that keeps a list of the keys it is called with.

## Main statements

* `Value.apply_eq_some_iff`, `Value.apply_eq_none_iff`: the operators against their tables.
* `Expression.yields_or_dividesByZero`: an expression has a value unless it divides by zero.
* `Program.evaluate_postorder_outcomes`: the value, the error, the reads and the calls of a
  postorder are those of its tree.
-/

namespace TrafficCheck

/-! ## Operators -/

/-- A value that is zero as a number. -/
inductive Value.IsZero : Value → Prop
  | number {x : Float} (h : (x == 0) = true) : IsZero (.number x)
  | false : IsZero (.truth false)

namespace Operator

/-- The function of an arithmetic operator. -/
def arithmetic? : Operator → Option (Float → Float → Float)
  | .multiply => some fun x y => x * y
  | .divide => some fun x y => x / y
  | .modulo => some fun x y => x - y * (x / y).floor
  | .add => some fun x y => x + y
  | .subtract => some fun x y => x - y
  | _ => none

/-- The test of a comparison. -/
def comparison? : Operator → Option (Float → Float → Bool)
  | .less => some fun x y => x < y
  | .lessOrEqual => some fun x y => x ≤ y
  | .greater => some fun x y => x > y
  | .greaterOrEqual => some fun x y => x ≥ y
  | .equal => some fun x y => x == y
  | .notEqual => some fun x y => x != y
  | _ => none

/-- Whether an operator divides by its second operand. -/
def divides : Operator → Bool
  | .divide | .modulo => true
  | _ => false

/-- What an operator makes of the values of its two operands. Arithmetic gives numbers, comparisons
give truth values, and the logical operators hand back one of the operands as it is. -/
inductive Combines : Operator → Value → Value → Value → Prop
  | arithmetic {o : Operator} {g : Float → Float → Float} {a b : Value}
      (ho : o.arithmetic? = some g) (hb : o.divides = true → ¬b.IsZero) :
      Combines o a b (.number (g a.toFloat b.toFloat))
  | comparison {o : Operator} {p : Float → Float → Bool} {a b : Value}
      (ho : o.comparison? = some p) : Combines o a b (.truth (p a.toFloat b.toFloat))
  | and_false {a b : Value} (ha : a.isTrue = false) : Combines .and a b a
  | and_true {a b : Value} (ha : a.isTrue = true) : Combines .and a b b
  | or_true {a b : Value} (ha : a.isTrue = true) : Combines .or a b a
  | or_false {a b : Value} (ha : a.isTrue = false) : Combines .or a b b

end Operator

namespace Value

variable {o : Operator} {a b v : Value}

theorem isZero_iff : b.IsZero ↔ (b.toFloat == 0) = true := by
  constructor
  · intro h
    cases h with
    | number h => exact h
    | false => decide
  · intro h
    match b with
    | .number x => exact .number h
    | .truth false => exact .false
    | .truth true => exact absurd h (by decide)

/-- An operator has no result exactly where it divides by zero. -/
theorem apply_eq_none_iff : apply o a b = none ↔ o.divides = true ∧ b.IsZero := by
  cases o <;> simp [apply, Operator.divides, isZero_iff]

theorem apply_of_combines (h : o.Combines a b v) : apply o a b = some v := by
  cases h with
  | arithmetic ho hb =>
    rw [isZero_iff] at hb
    cases o with
    | divide | modulo =>
      obtain rfl := Option.some.inj ho
      simp only [apply, if_neg (hb rfl), remainder]
    | multiply | add | subtract =>
      obtain rfl := Option.some.inj ho
      rfl
    | _ => exact absurd ho (by simp [Operator.arithmetic?])
  | comparison ho =>
    cases o with
    | less | lessOrEqual | greater | greaterOrEqual | equal | notEqual =>
      obtain rfl := Option.some.inj ho
      rfl
    | _ => exact absurd ho (by simp [Operator.comparison?])
  | and_false ha | and_true ha | or_true ha | or_false ha => simp [apply, ha]

/-- An operator of two operands has a result unless it divides by zero. -/
theorem exists_combines (ho : o ≠ .not) (hb : o.divides = true → ¬b.IsZero) :
    ∃ v, o.Combines a b v := by
  cases o with
  | not => exact absurd rfl ho
  | multiply | divide | modulo | add | subtract => exact ⟨_, .arithmetic rfl hb⟩
  | less | lessOrEqual | greater | greaterOrEqual | equal | notEqual => exact ⟨_, .comparison rfl⟩
  | and =>
    cases ha : a.isTrue
    · exact ⟨a, .and_false ha⟩
    · exact ⟨b, .and_true ha⟩
  | or =>
    cases ha : a.isTrue
    · exact ⟨b, .or_false ha⟩
    · exact ⟨a, .or_true ha⟩

/-- The result of an operator of two operands is what its table says. -/
theorem apply_eq_some_iff (ho : o ≠ .not) : apply o a b = some v ↔ o.Combines a b v := by
  refine ⟨fun h => ?_, apply_of_combines⟩
  have hb : o.divides = true → ¬b.IsZero := by
    intro hd hz
    rw [apply_eq_none_iff.2 ⟨hd, hz⟩] at h
    exact absurd h (by simp)
  obtain ⟨w, hw⟩ := exists_combines (a := a) ho hb
  rw [apply_of_combines hw] at h
  obtain rfl := Option.some.inj h
  exact hw

end Value

/-! ## Expressions -/

namespace Expression

/-- The keys under which the counters of an expression are looked up, from left to right. -/
def keys (e : Expression) : List String := e.references.map fun c => Token.bindingKey c.1 c.2

variable {σ : Type}

/-- What an expression yields if the lookup is in state `c`: its value, the calls that are made for
it with their answers, in order, and the state that they leave the lookup in. Every counter is
called for once, the left operand of an operator before the right one. Both operands have to yield a
value, those of the logical operators too. -/
inductive Yields (lookup : String → StateM σ Float) :
    Expression → σ → Value → Reads → σ → Prop
  | number (x : Float) (c : σ) : Yields lookup (.number x) c (.number x) [] c
  | reference {name : String} {modifier : Option Modifier} {c c' : σ} {x : Float}
      (hx : ((lookup (Token.bindingKey name modifier)).run c).run = (x, c')) :
      Yields lookup (.reference name modifier) c (.number x)
        [(Token.bindingKey name modifier, x)] c'
  | negation {e : Expression} {c c' : σ} {v : Value} {reads : Reads}
      (he : Yields lookup e c v reads c') :
      Yields lookup (.negation e) c (.truth (!v.isTrue)) reads c'
  | binary {o : BinaryOperator} {l r : Expression} {c mid c' : σ} {a b v : Value}
      {reads more : Reads} (hl : Yields lookup l c a reads mid) (hr : Yields lookup r mid b more c')
      (hv : o.1.Combines a b v) : Yields lookup (.binary o l r) c v (reads ++ more) c'

/-- An expression comes to a division by zero when the calls `reads` were made, from left to right,
and left the lookup in the last state. What stands left of the division yields a value, and for what
stands right of it no call is made. -/
inductive DividesByZero (lookup : String → StateM σ Float) : Expression → σ → Reads → σ → Prop
  | here {o : BinaryOperator} {l r : Expression} {c mid c' : σ} {a b : Value} {reads more : Reads}
      (hl : Yields lookup l c a reads mid) (hr : Yields lookup r mid b more c')
      (ho : o.1.divides = true) (hb : b.IsZero) :
      DividesByZero lookup (.binary o l r) c (reads ++ more) c'
  | negation {e : Expression} {c c' : σ} {reads : Reads}
      (he : DividesByZero lookup e c reads c') : DividesByZero lookup (.negation e) c reads c'
  | left {o : BinaryOperator} {l r : Expression} {c c' : σ} {reads : Reads}
      (hl : DividesByZero lookup l c reads c') : DividesByZero lookup (.binary o l r) c reads c'
  | right {o : BinaryOperator} {l r : Expression} {c mid c' : σ} {a : Value} {reads more : Reads}
      (hl : Yields lookup l c a reads mid) (hr : DividesByZero lookup r mid more c') :
      DividesByZero lookup (.binary o l r) c (reads ++ more) c'

variable {lookup : String → StateM σ Float} {e : Expression} {c c' : σ} {v : Value} {reads : Reads}

/-! ### Keys of the calls -/

/-- An expression that yields a value has called for each of its counters, once and in order. -/
theorem Yields.keys_eq (h : e.Yields lookup c v reads c') : reads.map (·.1) = e.keys := by
  induction h with
  | number x c | reference hx => rfl
  | negation he ih => exact ih
  | binary hl hr hv ihl ihr => simp [keys, references, ihl, ihr]

/-- An expression that divides by zero has called for its counters up to some place. -/
theorem DividesByZero.keys_prefix (h : e.DividesByZero lookup c reads c') :
    reads.map (·.1) <+: e.keys := by
  induction h with
  | here hl hr ho hb => simp [keys, references, hl.keys_eq, hr.keys_eq]
  | negation he ih => exact ih
  | left hl ih => exact ih.trans (by simp [keys, references])
  | right hl hr ih => simpa [keys, references, hl.keys_eq] using ih

/-! ### Meaning -/

theorem Yields.evalM_eq (h : e.Yields lookup c v reads c') :
    ((e.evalM (Valuation.keyed lookup)).run c).run = ((reads, some v), c') := by
  induction h with
  | number x c => rfl
  | reference hx => simp [evalM, Valuation.keyed, hx]
  | negation he ih => simp [evalM, ih]
  | binary hl hr hv ihl ihr => simp [evalM, ihl, ihr, Value.apply_of_combines hv]

theorem DividesByZero.evalM_eq (h : e.DividesByZero lookup c reads c') :
    ((e.evalM (Valuation.keyed lookup)).run c).run = ((reads, none), c') := by
  induction h with
  | here hl hr ho hb =>
    simp [evalM, hl.evalM_eq, hr.evalM_eq, Value.apply_eq_none_iff.2 ⟨ho, hb⟩]
  | negation he ih => simp [evalM, ih]
  | left hl ih => simp [evalM, ih]
  | right hl hr ih => simp [evalM, hl.evalM_eq, ih]

/-- Every expression yields a value or comes to a division by zero. -/
theorem yields_or_dividesByZero (lookup : String → StateM σ Float) (e : Expression) (c : σ) :
    (∃ v reads c', e.Yields lookup c v reads c') ∨
      ∃ reads c', e.DividesByZero lookup c reads c' := by
  induction e generalizing c with
  | number x => exact .inl ⟨_, _, _, .number x c⟩
  | reference name modifier => exact .inl ⟨_, _, _, .reference rfl⟩
  | negation e ih =>
    rcases ih c with ⟨v, reads, c', he⟩ | ⟨reads, c', he⟩
    · exact .inl ⟨_, _, _, .negation he⟩
    · exact .inr ⟨_, _, .negation he⟩
  | binary o l r ihl ihr =>
    rcases ihl c with ⟨a, reads, mid, hl⟩ | ⟨reads, c', hl⟩
    · rcases ihr mid with ⟨b, more, c', hr⟩ | ⟨more, c', hr⟩
      · cases h : Value.apply o.1 a b with
        | some v => exact .inl ⟨v, _, _, .binary hl hr ((Value.apply_eq_some_iff o.2).1 h)⟩
        | none =>
          obtain ⟨ho, hb⟩ := Value.apply_eq_none_iff.1 h
          exact .inr ⟨_, _, .here hl hr ho hb⟩
      · exact .inr ⟨_, _, .right hl hr⟩
    · exact .inr ⟨_, _, .left hl⟩

end Expression

/-! ## Recording -/

/-- A lookup that also keeps a list of the keys it is called with, in order. -/
def recorded {σ : Type} (lookup : String → StateM σ Float) (key : String) :
    StateM (σ × List String) Float := do
  let (c, calls) ← get
  let (x, c') := ((lookup key).run c).run
  set (c', calls ++ [key])
  return x

namespace Expression

variable {σ : Type} {lookup : String → StateM σ Float} {e : Expression} {c c' : σ} {v : Value}
  {reads : Reads}

theorem yields_recorded (h : e.Yields lookup c v reads c') (calls : List String) :
    e.Yields (recorded lookup) (c, calls) v reads (c', calls ++ reads.map (·.1)) := by
  induction h generalizing calls with
  | number x c => simpa using Yields.number x (c, calls)
  | reference hx => exact .reference (by simp [recorded, hx])
  | negation he ih => exact .negation (ih calls)
  | binary hl hr hv ihl ihr =>
    rw [List.map_append, ← List.append_assoc]
    exact .binary (ihl calls) (ihr _) hv

theorem dividesByZero_recorded (h : e.DividesByZero lookup c reads c') (calls : List String) :
    e.DividesByZero (recorded lookup) (c, calls) reads (c', calls ++ reads.map (·.1)) := by
  induction h generalizing calls with
  | here hl hr ho hb =>
    rw [List.map_append, ← List.append_assoc]
    exact .here (yields_recorded hl calls) (yields_recorded hr _) ho hb
  | negation he ih => exact .negation (ih calls)
  | left hl ih => exact .left (ih calls)
  | right hl hr ih =>
    rw [List.map_append, ← List.append_assoc]
    exact .right (yields_recorded hl calls) (ih _)

end Expression

/-! ## Programs -/

namespace Program

variable {σ : Type} {lookup : String → StateM σ Float} {e : Expression} {c c' : σ} {v : Value}
  {reads : Reads} {result : Evaluation} {error : AssertionError} {calls : List String}

/-- Reads as a trace lists them: `key=value` for each, in order. -/
def listing (reads : Reads) : String :=
  " ".intercalate (reads.map fun r => r.1 ++ "=" ++ Decimal.text r.2)

theorem trace_eq_listing (reads : Reads) : reads.trace = listing reads := rfl

theorem evaluateFrom_of_yields (h : e.Yields lookup c v reads c') :
    evaluateFrom lookup e.postorder c = (.ok ⟨v, reads⟩, c') := by
  rw [evaluateFrom, run_evaluateM_postorder, StateT.run_map, Id.run_map, h.evalM_eq]

theorem evaluateFrom_of_dividesByZero (h : e.DividesByZero lookup c reads c') :
    evaluateFrom lookup e.postorder c = (.error (.divisionByZero (listing reads)), c') := by
  rw [evaluateFrom, run_evaluateM_postorder, StateT.run_map, Id.run_map, h.evalM_eq]
  rfl

/-- An evaluation whose calls are recorded calls for every counter, in order. -/
theorem evaluateFrom_recorded_of_yields (h : e.Yields lookup c v reads c') :
    evaluateFrom (recorded lookup) e.postorder (c, []) = (.ok ⟨v, reads⟩, c', e.keys) := by
  rw [evaluateFrom_of_yields (Expression.yields_recorded h []), List.nil_append, h.keys_eq]

theorem evaluateFrom_recorded_of_dividesByZero (h : e.DividesByZero lookup c reads c') :
    evaluateFrom (recorded lookup) e.postorder (c, []) =
      (.error (.divisionByZero (listing reads)), c', reads.map (·.1)) :=
  evaluateFrom_of_dividesByZero (Expression.dividesByZero_recorded h [])

theorem evaluateFrom_recorded_eq_ok_iff :
    evaluateFrom (recorded lookup) e.postorder (c, []) = (.ok result, c', calls) ↔
      e.Yields lookup c result.value result.reads c' ∧ calls = e.keys ∧
        result.reads.map (·.1) = calls := by
  constructor
  · intro h
    rcases e.yields_or_dividesByZero lookup c with ⟨v, reads, d, hyields⟩ | ⟨reads, d, hdivides⟩
    · rw [evaluateFrom_recorded_of_yields hyields] at h
      simp only [Prod.mk.injEq, Except.ok.injEq] at h
      obtain ⟨rfl, rfl, rfl⟩ := h
      exact ⟨hyields, rfl, hyields.keys_eq⟩
    · rw [evaluateFrom_recorded_of_dividesByZero hdivides] at h
      exact absurd h (by simp)
  · rintro ⟨hyields, rfl, -⟩
    exact evaluateFrom_recorded_of_yields hyields

theorem evaluateFrom_recorded_eq_error_iff :
    evaluateFrom (recorded lookup) e.postorder (c, []) = (.error error, c', calls) ↔
      ∃ reads, e.DividesByZero lookup c reads c' ∧ calls <+: e.keys ∧ reads.map (·.1) = calls ∧
        error = .divisionByZero (listing reads) := by
  constructor
  · intro h
    rcases e.yields_or_dividesByZero lookup c with ⟨v, reads, d, hyields⟩ | ⟨reads, d, hdivides⟩
    · rw [evaluateFrom_recorded_of_yields hyields] at h
      exact absurd h (by simp)
    · rw [evaluateFrom_recorded_of_dividesByZero hdivides] at h
      simp only [Prod.mk.injEq, Except.error.injEq] at h
      obtain ⟨rfl, rfl, rfl⟩ := h
      exact ⟨reads, hdivides, hdivides.keys_prefix, rfl, rfl⟩
  · rintro ⟨reads, hdivides, -, rfl, rfl⟩
    exact evaluateFrom_recorded_of_dividesByZero hdivides

/-- Recording the calls changes neither the result nor what becomes of the lookup. -/
theorem evaluateFrom_eq_recorded (lookup : String → StateM σ Float) (e : Expression) (c : σ) :
    evaluateFrom lookup e.postorder c =
      (evaluateFrom (recorded lookup) e.postorder (c, [])).map id (·.1) := by
  rcases e.yields_or_dividesByZero lookup c with ⟨v, reads, c', hyields⟩ | ⟨reads, c', hdivides⟩
  · rw [evaluateFrom_of_yields hyields, evaluateFrom_recorded_of_yields hyields]
    rfl
  · rw [evaluateFrom_of_dividesByZero hdivides, evaluateFrom_recorded_of_dividesByZero hdivides]
    rfl

/-- A postorder evaluates to the value that its tree yields, for any lookup, also for one that gives
another value at every call. The lookup is called exactly once for every counter of the tree, from
left to right, and the trace lists these calls with their answers. The evaluation fails exactly
where the tree comes to a division by zero: the calls are then those made until there, and the error
lists them. -/
theorem evaluate_postorder_outcomes (lookup : String → StateM σ Float) (e : Expression) (c : σ) :
    (∀ result c' calls,
      evaluateFrom (recorded lookup) e.postorder (c, []) = (.ok result, c', calls) ↔
        e.Yields lookup c result.value result.reads c' ∧ calls = e.keys ∧
          result.reads.map (·.1) = calls) ∧
    (∀ reads, Reads.trace reads = listing reads) ∧
    (∀ error c' calls,
      evaluateFrom (recorded lookup) e.postorder (c, []) = (.error error, c', calls) ↔
        ∃ reads, e.DividesByZero lookup c reads c' ∧ calls <+: e.keys ∧
          reads.map (·.1) = calls ∧ error = .divisionByZero (listing reads)) ∧
    evaluateFrom lookup e.postorder c =
      (evaluateFrom (recorded lookup) e.postorder (c, [])).map id (·.1) :=
  ⟨fun _ _ _ => evaluateFrom_recorded_eq_ok_iff, trace_eq_listing,
    fun _ _ _ => evaluateFrom_recorded_eq_error_iff, evaluateFrom_eq_recorded lookup e c⟩

/-- A lookup that counts its calls, asked twice for the same counter. -/
example :
    let lookup (_ : String) : StateM Nat Float := modifyGet fun n => (n.toFloat, n + 1)
    let e : Expression :=
      .binary ⟨.subtract, by decide⟩ (.reference "x" none) (.reference "x" none)
    (evaluateFrom (recorded lookup) e.postorder (1, [])).2 = (3, ["x", "x"]) := rfl

end Program

end TrafficCheck
