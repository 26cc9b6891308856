/-!
# Operators

The operators of expressions with their symbols and ranks. An operator of a lower rank binds
tighter.
-/

namespace TrafficCheck

/-- An operator of expressions. -/
inductive Operator where
  | not
  | multiply
  | divide
  | modulo
  | add
  | subtract
  | less
  | lessOrEqual
  | greater
  | greaterOrEqual
  | equal
  | notEqual
  | and
  | or
  deriving DecidableEq, Repr

namespace Operator

/-- The symbol that writes an operator. -/
def symbol : Operator → String
  | .not => "!"
  | .multiply => "*"
  | .divide => "/"
  | .modulo => "%"
  | .add => "+"
  | .subtract => "-"
  | .less => "<"
  | .lessOrEqual => "<="
  | .greater => ">"
  | .greaterOrEqual => ">="
  | .equal => "=="
  | .notEqual => "!="
  | .and => "&"
  | .or => "|"

/-- The operator of a symbol of one character. -/
def ofChar? (c : Char) : Option Operator :=
  match c with
  | '!' => some .not
  | '*' => some .multiply
  | '/' => some .divide
  | '%' => some .modulo
  | '+' => some .add
  | '-' => some .subtract
  | '<' => some .less
  | '>' => some .greater
  | '&' => some .and
  | '|' => some .or
  | _ => none

/-- The operator of a symbol of two characters. -/
def ofChars? (c d : Char) : Option Operator :=
  if d = '=' then
    match c with
    | '<' => some .lessOrEqual
    | '>' => some .greaterOrEqual
    | '=' => some .equal
    | '!' => some .notEqual
    | _ => none
  else none

/-- The operator that a text writes. -/
def ofSymbol? (s : String) : Option Operator :=
  match s.toList with
  | [c] => ofChar? c
  | [c, d] => ofChars? c d
  | _ => none

theorem ofSymbol?_symbol (o : Operator) : ofSymbol? o.symbol = some o := by cases o <;> decide

/-- How loosely an operator binds. -/
def rank : Operator → Nat
  | .not => 3
  | .multiply | .divide | .modulo => 5
  | .add | .subtract => 6
  | .less | .lessOrEqual | .greater | .greaterOrEqual => 8
  | .equal | .notEqual => 9
  | .and => 13
  | .or => 14

/-- How many operands an operator takes. -/
def arity : Operator → Nat
  | .not => 1
  | _ => 2

/-- Whether `o`, standing right of the waiting operator `top`, lets `top` act first. Operators of
two operands group to the left, so equal ranks do; negation groups to the right. -/
def yieldsTo (o top : Operator) : Bool :=
  match o with
  | .not => top.rank < o.rank
  | _ => top.rank ≤ o.rank

end Operator

end TrafficCheck
