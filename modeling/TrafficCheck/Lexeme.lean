import TrafficCheck.Operator
import TrafficCheck.Text.Blank

/-!
# Lexemes

A line is cut into symbols and words. A symbol of two characters wins over one of a single
character, blanks separate words, and everything between symbols and blanks is a word.

## Main definitions

* `Lexeme.split`: the symbols and words of a text, in order.
-/

namespace TrafficCheck

/-- The texts that stand for themselves wherever they occur in a line. -/
inductive Symbol where
  | op (o : Operator)
  | leftParen
  | rightParen
  | at
  deriving DecidableEq, Repr

namespace Symbol

/-- The symbol of a single character. -/
def ofChar? (c : Char) : Option Symbol :=
  match c with
  | '(' => some .leftParen
  | ')' => some .rightParen
  | '@' => some .at
  | _ => (Operator.ofChar? c).map .op

/-- The symbol of two characters. -/
def ofChars? (c d : Char) : Option Symbol := (Operator.ofChars? c d).map .op

/-- The characters of a symbol. -/
def text : Symbol → List Char
  | .op o => o.symbol.toList
  | .leftParen => ['(']
  | .rightParen => [')']
  | .at => ['@']

end Symbol

/-- A symbol or a word of a line. -/
inductive Lexeme where
  | symbol (s : Symbol)
  | word (text : List Char)
  deriving DecidableEq, Repr

namespace Lexeme

/-- The characters of a lexeme. -/
def text : Lexeme → List Char
  | .symbol s => s.text
  | .word cs => cs

/-- The open word, given with its latest character first, in front of the lexemes behind it. -/
def close (word : List Char) (rest : List Lexeme) : List Lexeme :=
  if word.isEmpty then rest else .word word.reverse :: rest

/-- What becomes of a character that begins no symbol of two characters: a symbol and a blank close
the open word, and any other character belongs to it. -/
def single (word : List Char) (c : Char) (rest : List Char → List Lexeme) : List Lexeme :=
  match Symbol.ofChar? c with
  | some s => close word (.symbol s :: rest [])
  | none => if Text.isBlank c then close word (rest []) else rest (c :: word)

/-- The lexemes of a text behind an open word, given with its latest character first. -/
def splitFrom (word : List Char) : List Char → List Lexeme
  | [] => close word []
  | [c] => single word c fun word => close word []
  | c :: d :: cs =>
    match Symbol.ofChars? c d with
    | some s => close word (.symbol s :: splitFrom [] cs)
    | none => single word c fun word => splitFrom word (d :: cs)

/-- The symbols and words of a text. -/
def split (cs : List Char) : List Lexeme := splitFrom [] cs

example : split "!(a<=b) SPAN[1:2]=x".toList =
    [.symbol (.op .not), .symbol .leftParen, .word ['a'], .symbol (.op .lessOrEqual), .word ['b'],
     .symbol .rightParen, .word "SPAN[1:2]=x".toList] := by decide

end Lexeme

end TrafficCheck
