import TrafficCheck.Elapsed
import TrafficCheck.Window

/-!
# Assertions

An assertion is a line of an assertion file, compiled, with the state that checking left it in. It
starts active and leaves that state at most once, by being ignored or by failing.

## Main definitions

* `Assertion.read`: the assertion a line writes.
* `Assertion.verdict`: the verdict of its rule over a run.
* `Assertion.check`: the assertion after that verdict, with the records that tell of it.
-/

namespace TrafficCheck

/-- Where an assertion stands. -/
inductive AssertionState where
  | active
  | ignored (reason : String)
  | failed (message : String)
  deriving DecidableEq, Repr

/-- A compiled assertion. -/
structure Assertion where
  file : String
  line : Nat
  expression : String
  rule : Rule
  program : Program
  inputs : Table String Variable
  multiport : Bool
  state : AssertionState

/-- What a check says of an assertion. -/
inductive Outcome where
  | passed
  | failed (message : String)
  | ignored (reason : String)
  deriving DecidableEq, Repr

namespace Assertion

/-- The assertion that a line writes. -/
def read (expression file : String) (line : Nat) : Except AssertionError Assertion := do
  let (rule, tokens) ← Token.ofAssertion expression
  let program ← Program.compile expression tokens
  let inputs ← Variable.collect program
  return {
    file, line, expression, rule, program, inputs
    multiport := Variable.isMultiport inputs.values
    state := .active }

/-- Whether an assertion is still active. -/
def isActive (a : Assertion) : Bool := a.state = .active

/-- The names of the counters an assertion reads. -/
def counters (a : Assertion) : NameSet := NameSet.ofNames (a.inputs.values.map (·.counter))

/-- The assertion, ignored for a reason if it was active. -/
def ignore (a : Assertion) (reason : String) : Assertion :=
  if a.isActive then { a with state := .ignored reason } else a

/-- The assertion, failed with a message if it was active. -/
def fail (a : Assertion) (message : String) : Assertion :=
  if a.isActive then { a with state := .failed message } else a

/-- What a check says of an assertion in its state. -/
def outcome (a : Assertion) : Outcome :=
  match a.state with
  | .active => .passed
  | .failed message => .failed message
  | .ignored reason => .ignored reason

/-- The result of an assertion at a tick. -/
def observe (a : Assertion) (t : Topology) (h : History) (tick : Nat) :
    Except AssertionError TickResult :=
  match t.bind h tick a.inputs with
  | .ok b => (a.program.evaluateTick b a.multiport).map .evaluated
  | .error reason => .ok (.unresolved reason.message)

/-- The verdict of the rule of an assertion over a run. -/
def verdict (a : Assertion) (t : Topology) (h : History) : Except AssertionError Verdict :=
  (Window.run a.rule h.size (a.observe t h)).mapError (.inFile a.file a.line)

/-- The message of an assertion that failed at a second of the run. -/
def failureMessage (a : Assertion) (elapsed : Nat) (trace : String) : String :=
  s!"{Elapsed.clock elapsed} Assertion failed ('{a.expression}' in {a.file}): {trace}"

/-- The assertion after a verdict, with a record of a failure or of being ignored. -/
def settle (a : Assertion) : Verdict → Logged Assertion
  | .passed => pure a
  | .failed _ elapsed trace => do
    let message := a.failureMessage elapsed trace
    Logged.note .error message
    return a.fail message
  | .ignored reason => do
    Logged.note .info s!"{a.file} '{a.expression}' ignored {reason}"
    return a.ignore reason

/-- The assertion after a check. An assertion that is no longer active is not evaluated again, and
an error leaves it as it was. -/
def check (a : Assertion) (t : Topology) (h : History) : Attempt AssertionError Assertion :=
  if a.isActive then do
    let v ← Attempt.of (a.verdict t h)
    ExceptT.lift (a.settle v)
  else pure a

end Assertion

end TrafficCheck
