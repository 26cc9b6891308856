import TrafficCheck.Binding

/-!
# Windows

A rule is checked by evaluating an assertion at the checkpoints of the rule, in order, until one of
them is not as the rule asks.

## Main definitions

* `Window.scan`: the verdict over some checkpoints.
* `Window.run`: the verdict of a rule over a run.
-/

namespace TrafficCheck

/-- What an evaluation at a tick gives. -/
inductive TickResult where
  | evaluated (o : Observation)
  | unresolved (reason : String)

/-- The verdict of a rule. -/
inductive Verdict where
  | passed
  | failed (tick elapsed : Nat) (trace : String)
  | ignored (reason : String)
  deriving DecidableEq, Repr

namespace Window

variable {m : Type → Type} [Monad m]

/-- The second of a run of `len` samples to which a tick belongs; the final sample belongs to its
end. -/
def elapsedAt (len tick : Nat) : Nat :=
  if tick = 0 then len / ticksPerSecond else secondOfTick tick

/-- The verdict over some checkpoints in order. The first one that cannot be bound or has another
truth value than it should decides, and no later one is evaluated. -/
def scan (len : Nat) (observe : Nat → m TickResult) : List (Nat × Bool) → m Verdict
  | [] => pure .passed
  | (tick, expected) :: rest => do
    match ← observe tick with
    | .unresolved reason => pure (.ignored reason)
    | .evaluated o =>
      if o.value.isTrue = expected then scan len observe rest
      else pure (.failed tick (elapsedAt len tick) o.trace)

/-- The verdict of a rule over a run of `len` samples. -/
def run (r : Rule) (len : Nat) (observe : Nat → m TickResult) : m Verdict :=
  if len = 0 then pure (.ignored "with empty sample history")
  else scan len observe (r.checkpoints len)

end Window

end TrafficCheck
