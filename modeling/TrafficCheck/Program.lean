import TrafficCheck.AssertionError
import TrafficCheck.Token

/-!
# Programs

A program is an expression in postfix order: operands stand before the operator that takes them.
Compiling rearranges the tokens of an infix expression with a stack of waiting operators and open
parentheses, then checks that every operator finds its operands and that one value is left.

## Main definitions

* `Program.arrange`: the postfix order of some tokens.
* `Program.depth`: how many values a program leaves.
* `Program.compile`: the program of an expression.
-/

namespace TrafficCheck

/-- Tokens in postfix order. -/
abbrev Program := List Token

/-- What waits on the stack of operators. -/
inductive Waiting where
  | op (o : Operator)
  | leftParen
  deriving DecidableEq, Repr

/-- A rearrangement under way: the tokens put out, latest first, and what waits, innermost first. -/
structure Arrangement where
  out : List Token
  waiting : List Waiting

namespace Arrangement

/-- The arrangement after the waiting operators that act before `o` were put out. -/
def release (o : Operator) (out : List Token) : List Waiting → Arrangement
  | .op top :: rest =>
    if o.yieldsTo top then release o (.op top :: out) rest else ⟨out, .op top :: rest⟩
  | waiting => ⟨out, waiting⟩

/-- The arrangement after the operators above the innermost open parenthesis were put out and that
parenthesis was closed. -/
def close? (out : List Token) : List Waiting → Option Arrangement
  | .op o :: rest => close? (.op o :: out) rest
  | .leftParen :: rest => some ⟨out, rest⟩
  | [] => none

/-- The arrangement after one more token, where `line` is the line the tokens stand in. -/
def step (line : String) (a : Arrangement) : Token → Except AssertionError Arrangement
  | .number x => .ok { a with out := .number x :: a.out }
  | .reference name modifier => .ok { a with out := .reference name modifier :: a.out }
  | .op o =>
    let b := release o a.out a.waiting
    .ok { b with waiting := .op o :: b.waiting }
  | .leftParen => .ok { a with waiting := .leftParen :: a.waiting }
  | .rightParen =>
    match close? a.out a.waiting with
    | some b => .ok b
    | none => .error (.unbalancedParentheses line)
  | .rule r => .error (.misplacedRule r.text line)

/-- All tokens, latest first, once everything that waits was put out; no parenthesis may be open. -/
def drain? (out : List Token) : List Waiting → Option (List Token)
  | .op o :: rest => drain? (.op o :: out) rest
  | .leftParen :: _ => none
  | [] => some out

end Arrangement

namespace Program

/-- The tokens of an expression in postfix order. -/
def arrange (line : String) (tokens : List Token) : Except AssertionError Program := do
  let a ← tokens.foldlM (Arrangement.step line) ⟨[], []⟩
  match Arrangement.drain? a.out a.waiting with
  | some out => return out.reverse
  | none => throw (.unbalancedParentheses line)

/-- How many values stand on the stack after a token, if it finds its operands. -/
def depthStep (depth : Nat) : Token → Except Malformation Nat
  | .op o => if depth < o.arity then .error (.missingOperand o) else .ok (depth + 1 - o.arity)
  | _ => .ok (depth + 1)

/-- How many values a program leaves. -/
def depth (p : Program) : Except Malformation Nat := p.foldlM depthStep 0

/-- Whether a program leaves a single value, or why it does not. -/
def checkArity (p : Program) : Except Malformation Unit :=
  match p.depth with
  | .error e => .error e
  | .ok 0 => .error .noValue
  | .ok 1 => .ok ()
  | .ok _ => .error .missingOperator

/-- The program of an expression, where `line` is the line it stands in. -/
def compile (line : String) (tokens : List Token) : Except AssertionError Program := do
  let p ← arrange line tokens
  match p.checkArity with
  | .ok () => return p
  | .error reason => throw (.malformed reason line)

end Program

end TrafficCheck
