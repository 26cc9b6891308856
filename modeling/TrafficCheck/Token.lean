import TrafficCheck.Decimal.Shortest
import TrafficCheck.Operator
import TrafficCheck.Rule

/-!
# Tokens

The classified words of an assertion line. A counter reference may carry a modifier, which asks for
the growth of the counter over a second or a minute.

## Main definitions

* `Token.text`: the text of a token, which reads back as that token.
* `Token.render`: a list of tokens, separated by spaces.
-/

namespace TrafficCheck

/-- The period over which a counter's growth is asked for. -/
inductive Modifier where
  | sec
  | min
  deriving DecidableEq, Repr

namespace Modifier

/-- The keyword of a modifier. -/
def keyword : Modifier → String
  | .sec => "sec"
  | .min => "min"

/-- The modifier of a keyword. -/
def ofKeyword? (word : String) : Option Modifier :=
  if word = "sec" then some .sec else if word = "min" then some .min else none

@[simp] theorem ofKeyword?_keyword (m : Modifier) : ofKeyword? m.keyword = some m := by
  cases m <;> decide

/-- The length of the period in ticks. -/
def window : Modifier → Nat
  | .sec => 2
  | .min => 120

end Modifier

/-- A classified word. -/
inductive Token where
  | rule (r : Rule)
  /-- A counter as it is written, with its modifier. -/
  | reference (name : String) (modifier : Option Modifier)
  | number (x : Float)
  | op (o : Operator)
  | leftParen
  | rightParen
  deriving DecidableEq

namespace Token

/-- The name under which a counter reference finds its value: the name as written and the modifier
behind an `@`. -/
def bindingKey (name : String) (modifier : Option Modifier) : String :=
  match modifier with
  | some m => name ++ "@" ++ m.keyword
  | none => name

/-- The text of a token. -/
def text : Token → String
  | .rule r => r.text
  | .reference name modifier => bindingKey name modifier
  | .number x => Decimal.text x
  | .op o => o.symbol
  | .leftParen => "("
  | .rightParen => ")"

/-- Tokens as text, separated by spaces. -/
def render (tokens : List Token) : String := " ".intercalate (tokens.map text)

/-- Whether a token is a rule. -/
def isRule : Token → Bool
  | .rule _ => true
  | _ => false

end Token

end TrafficCheck
