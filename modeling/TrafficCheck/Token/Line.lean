import TrafficCheck.AssertionError
import TrafficCheck.Lexeme
import TrafficCheck.Token

/-!
# The tokens of a line

Words are classified in a fixed order: named constants, rules, numbers, counter references. An `@`
takes the next lexeme as the modifier of the counter reference right before it.

## Main definitions

* `Token.ofWord`: the token a word writes.
* `Token.ofLine`: the tokens of a line.
* `Token.ofAssertion`: the rule a line starts with and the tokens behind it.
-/

namespace TrafficCheck.Token

/-- The constants with a name. -/
def constants : List (String × Float) := [("const_name", 0)]

/-- A character of counter names. -/
def isCounterChar (c : Char) : Bool := c.isAlphanum || c = '.' || c = '_'

/-- A word that can refer to a counter. -/
def isCounterWord (word : List Char) : Bool := !word.isEmpty && word.all isCounterChar

/-- The token a word writes, where `line` is the line it stands in. -/
def ofWord (line : String) (word : List Char) : Except AssertionError Token :=
  match constants.lookup (String.ofList word) with
  | some x => .ok (.number x)
  | none =>
    match Rule.read word with
    | .rule r => .ok (.rule r)
    | .invalidSpan => .error (.invalidSpan line)
    | .other =>
      match Decimal.read? word with
      | some x => .ok (.number x)
      | none =>
        if isCounterWord word then .ok (.reference (String.ofList word) none)
        else .error (.unknownToken (String.ofList word) line)

/-- The tokens read so far, latest first, after the lexeme behind an `@` gave the latest one its
modifier. Only a counter reference without a modifier takes one. -/
def modify (line : String) (lexeme : Lexeme) (tokens : List Token) :
    Except AssertionError (List Token) :=
  let word := String.ofList lexeme.text
  match Modifier.ofKeyword? word with
  | none => .error (.unknownModifier word line)
  | some m =>
    match tokens with
    | .reference name none :: rest => .ok (.reference name (some m) :: rest)
    | _ => .error (.unknownModifier ("@" ++ word) line)

/-- The tokens of some lexemes behind those already read, which are given latest first. -/
def ofLexemes (line : String) (tokens : List Token) :
    List Lexeme → Except AssertionError (List Token)
  | [] => .ok tokens.reverse
  | [.symbol .at] => .error (.unknownModifier "@" line)
  | .symbol .at :: lexeme :: rest =>
    match modify line lexeme tokens with
    | .ok tokens => ofLexemes line tokens rest
    | .error e => .error e
  | .symbol .leftParen :: rest => ofLexemes line (.leftParen :: tokens) rest
  | .symbol .rightParen :: rest => ofLexemes line (.rightParen :: tokens) rest
  | .symbol (.op o) :: rest => ofLexemes line (.op o :: tokens) rest
  | .word word :: rest =>
    match ofWord line word with
    | .ok token => ofLexemes line (token :: tokens) rest
    | .error e => .error e

/-- The tokens of a line. -/
def ofLine (line : String) : Except AssertionError (List Token) :=
  ofLexemes line [] (Lexeme.split line.toList)

/-- The rule that a line starts with and the tokens behind it, among which no other rule may
stand. -/
def ofAssertion (line : String) : Except AssertionError (Rule × List Token) :=
  match ofLine line with
  | .error e => .error e
  | .ok [] => .error (.emptyExpression line)
  | .ok (.rule r :: rest) =>
    match rest.find? isRule with
    | some misplaced => .error (.misplacedRule misplaced.text line)
    | none => .ok (r, rest)
  | .ok (_ :: _) => .error (.missingRule line)

end TrafficCheck.Token
