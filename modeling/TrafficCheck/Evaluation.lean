import TrafficCheck.Program

/-!
# Evaluation

A program runs on a stack of values. Comparisons and negation give truth values and arithmetic gives
numbers; a conjunction hands back its first operand if that one is false and its second one
otherwise, and a disjunction does so with true.

## Main definitions

* `Value.apply`: the result of an operator on two values.
* `Machine.step`: what one token does to a machine.
* `Program.evaluateM`: the value of a program and the variables it read, under a lookup that may
  have effects of its own.
* `Program.evaluate`: the same under a lookup that has none.
-/

namespace TrafficCheck

/-- A value on the stack. -/
inductive Value where
  | number (x : Float)
  | truth (b : Bool)
  deriving DecidableEq

namespace Value

/-- The value as a number; true counts one. -/
def toFloat : Value → Float
  | .number x => x
  | .truth true => 1
  | .truth false => 0

/-- Whether a value counts as true; a number does unless it equals zero. -/
def isTrue : Value → Bool
  | .number x => x != 0
  | .truth b => b

/-- The value as text. -/
def text : Value → String
  | .number x => Decimal.text x
  | .truth true => "True"
  | .truth false => "False"

/-- The remainder of a division, with the sign of the divisor. -/
def remainder (x y : Float) : Float := x - y * (x / y).floor

/-- The result of an operator on two values, or `none` for a division by zero. -/
def apply (o : Operator) (a b : Value) : Option Value :=
  let x := a.toFloat
  let y := b.toFloat
  match o with
  | .multiply => some (.number (x * y))
  | .divide => if y == 0 then none else some (.number (x / y))
  | .modulo => if y == 0 then none else some (.number (remainder x y))
  | .add => some (.number (x + y))
  | .subtract => some (.number (x - y))
  | .less => some (.truth (x < y))
  | .lessOrEqual => some (.truth (x ≤ y))
  | .greater => some (.truth (y < x))
  | .greaterOrEqual => some (.truth (y ≤ x))
  | .equal => some (.truth (x == y))
  | .notEqual => some (.truth (x != y))
  | .and => some (if a.isTrue then b else a)
  | .or => some (if a.isTrue then a else b)
  | .not => some (.truth (!b.isTrue))

end Value

/-- The values read by a program, with the keys under which they were looked up, in order. -/
abbrev Reads := List (String × Float)

/-- Values read as text: `key=value` pairs, separated by spaces. -/
def Reads.trace (reads : Reads) : String :=
  " ".intercalate (reads.map fun r => s!"{r.1}={Decimal.text r.2}")

/-- The state of a running program: its stack, innermost first, and its reads, latest first. -/
structure Machine where
  stack : List Value
  reads : Reads

/-- Why a program stops without a value. -/
inductive Halt where
  | divisionByZero (reads : Reads)
  | stackUnderflow
  | unexpectedToken (t : Token)
  | notOneValue

/-- The result of a program: its value and all that it read. -/
structure Evaluation where
  value : Value
  reads : Reads

namespace Machine

/-- The machine after reading a value under a key. -/
def read (s : Machine) (key : String) (x : Float) : Machine :=
  ⟨.number x :: s.stack, (key, x) :: s.reads⟩

/-- The machine after an operator. -/
def operate (s : Machine) : Operator → Except Halt Machine
  | .not =>
    match s.stack with
    | a :: rest => .ok { s with stack := .truth (!a.isTrue) :: rest }
    | [] => .error .stackUnderflow
  | o =>
    match s.stack with
    | b :: a :: rest =>
      match Value.apply o a b with
      | some v => .ok { s with stack := v :: rest }
      | none => .error (.divisionByZero s.reads.reverse)
    | _ => .error .stackUnderflow

/-- The result of a machine that has come to the end of its program. -/
def result (s : Machine) : Except Halt Evaluation :=
  match s.stack with
  | [v] => .ok ⟨v, s.reads.reverse⟩
  | _ => .error .notOneValue

variable {m : Type → Type} [Monad m]

/-- The machine after one token, where `lookup` gives the values of variables. -/
def step (lookup : String → m Float) (s : Machine) : Token → ExceptT Halt m Machine
  | .number x => return { s with stack := .number x :: s.stack }
  | .reference name modifier => do
    let key := Token.bindingKey name modifier
    return s.read key (← lookup key)
  | .op o => ExceptT.mk (pure (s.operate o))
  | t => throw (.unexpectedToken t)

end Machine

namespace Program

variable {m : Type → Type} [Monad m]

/-- The result of a program, or why it has none. -/
def run (lookup : String → m Float) (p : Program) : ExceptT Halt m Evaluation := do
  let s ← p.foldlM (Machine.step lookup) ⟨[], []⟩
  ExceptT.mk (pure s.result)

/-- The error of a program that stops without a value. -/
def haltError (p : Program) : Halt → AssertionError
  | .divisionByZero reads => .divisionByZero reads.trace
  | .stackUnderflow => .malformed .stackUnderflow ""
  | .unexpectedToken t => .malformed (.unexpectedToken t.text) (Token.render p)
  | .notOneValue => .malformed .notOneValue (Token.render p)

/-- The result of a program, where `lookup` gives the values of variables by binding key and may
have effects of its own. -/
def evaluateM (lookup : String → m Float) (p : Program) : ExceptT AssertionError m Evaluation :=
  ExceptT.adapt p.haltError (p.run lookup)

/-- The result of a program under a lookup without effects. -/
def evaluate (lookup : String → Float) (p : Program) : Except AssertionError Evaluation :=
  Id.run (p.evaluateM (m := Id) lookup).run

end Program

end TrafficCheck
