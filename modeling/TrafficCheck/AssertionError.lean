import TrafficCheck.Disk
import TrafficCheck.Operator

/-!
# Errors of assertions

Why an assertion line cannot be read, why a program has no value, and why assertion files cannot be
loaded. The errors of reading a line carry that whole line.

## Main definitions

* `AssertionError.message`: the wording of an error.
* `AssertionError.isFatal`: whether an error ends a whole check.
-/

namespace TrafficCheck

/-- Why a list of tokens is no expression, or a program leaves no single value. -/
inductive Malformation where
  | missingOperand (o : Operator)
  | noValue
  | missingOperator
  | unexpectedToken (token : String)
  | notOneValue
  | stackUnderflow
  deriving DecidableEq, Repr

/-- The wording of a malformation. -/
def Malformation.message : Malformation → String
  | .missingOperand o => s!"missing operand for '{o.symbol}'"
  | .noValue => "no value"
  | .missingOperator => "missing operator"
  | .unexpectedToken token => s!"unexpected token '{token}' in program"
  | .notOneValue => "program must leave exactly one value"
  | .stackUnderflow => "stack underflow"

/-- What can go wrong with assertions. -/
inductive AssertionError where
  | unknownToken (token expression : String)
  | unknownModifier (modifier expression : String)
  | invalidSpan (expression : String)
  | emptyExpression (expression : String)
  | missingRule (expression : String)
  | misplacedRule (rule expression : String)
  | unbalancedParentheses (expression : String)
  | malformed (reason : Malformation) (expression : String)
  | divisionByZero (trace : String)
  | inFile (file : String) (line : Nat) (cause : AssertionError)
  | noAssertionFiles (searched : List Path)
  | unreadable (path : Path) (failure : Failure)

namespace AssertionError

/-- The wording of an error. -/
def message : AssertionError → String
  | unknownToken token e => s!"Syntax error, unknown token '{token}' in expression: {e}"
  | unknownModifier modifier e => s!"Incorrect modifier '{modifier}': {e}"
  | invalidSpan e => s!"Incorrect time span values: {e}"
  | emptyExpression e => s!"Bad syntax in expression: {e}"
  | missingRule e => s!"Bad rule prefix in expression: {e}"
  | misplacedRule rule e =>
    s!"Rule prefix '{rule}' is only allowed at the start of expression: {e}"
  | unbalancedParentheses e => s!"Unbalanced parentheses in expression: {e}"
  | malformed reason e => s!"Malformed expression ({reason.message}): {e}"
  | divisionByZero trace => s!"Division by zero ({trace})"
  | inFile file line cause => s!"{file}:{line}: {cause.message}"
  | noAssertionFiles searched =>
    "No assertion files found in either of the following paths:" ++
      String.join (searched.map fun p => "\n\t" ++ p.text)
  | unreadable path failure => s!"IO error for '{path.text}': {failure.message}"

/-- Division by zero and the lack of any assertion file end a whole check; every other error ends
the loading of one file. -/
def isFatal : AssertionError → Bool
  | divisionByZero _ | noAssertionFiles _ => true
  | inFile _ _ cause => cause.isFatal
  | _ => false

/-- The line an error of reading carries. -/
def expression? : AssertionError → Option String
  | unknownToken _ e | unknownModifier _ e | invalidSpan e | emptyExpression e | missingRule e
  | misplacedRule _ e | unbalancedParentheses e | malformed _ e => some e
  | _ => none

end AssertionError

end TrafficCheck
