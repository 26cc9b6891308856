import TrafficCheck.Port
import TrafficCheck.Table
import TrafficCheck.Token.Line

/-!
# Variables

A counter reference names a counter and, by an optional leading part, the ports on which it is read:
`http.attempts` is read on every port, `cport.http.attempts` on every client port and
`sport2.http.attempts` on server port 2 alone.

## Main definitions

* `Variable.read`: the variable a counter reference means.
* `Variable.collect`: the variables of some tokens by binding key.
* `Variable.isMultiport`: whether variables reach over both kinds of ports.
-/

namespace TrafficCheck

/-- The ports on which a variable is read. -/
inductive Scope where
  | any
  | kind (k : PortKind)
  | exact (k : PortKind) (number : UInt32)
  deriving DecidableEq, Repr

namespace Scope

/-- The kind of ports a scope is tied to. -/
def kind? : Scope → Option PortKind
  | .any => none
  | .kind k | .exact k _ => some k

/-- Whether a scope leaves the port open. -/
def isWildcard : Scope → Bool
  | .exact _ _ => false
  | _ => true

/-- The single role a scope names. -/
def role? : Scope → Option LogicalPort
  | .exact k number => some ⟨k, some number⟩
  | _ => none

/-- Whether a wildcard scope covers a port that plays the given role, if it plays any. -/
def covers (s : Scope) (role : Option LogicalPort) : Bool :=
  match s with
  | .any => true
  | .kind k => role.any fun l => l.kind = k
  | .exact _ _ => false

end Scope

/-- What a counter reference means. -/
structure Variable where
  scope : Scope
  counter : String
  modifier : Option Modifier
  deriving DecidableEq, Repr

namespace Variable

/-- The leading part of a reference: its kind, the digits of its number, and the counter behind the
dot. There is none if no counter would be left. -/
def scopeFields? (name : List Char) : Option (PortKind × List Char × List Char) :=
  match name with
  | c :: 'p' :: 'o' :: 'r' :: 't' :: rest =>
    match PortKind.ofLetter? c, rest.dropWhile Char.isDigit with
    | some k, '.' :: counter =>
      if counter.isEmpty then none else some (k, rest.takeWhile Char.isDigit, counter)
    | _, _ => none
  | _ => none

/-- The variable that a counter reference means. A name with foreign characters means none, nor does
one whose port number exceeds 32 bits. -/
def read (name : String) (modifier : Option Modifier) : Except AssertionError Variable :=
  let unknown := AssertionError.unknownToken name name
  if !Token.isCounterWord name.toList then .error unknown
  else
    match scopeFields? name.toList with
    | none => .ok ⟨.any, name, modifier⟩
    | some (k, [], counter) => .ok ⟨.kind k, String.ofList counter, modifier⟩
    | some (k, number, counter) =>
      match Decimal.word? number with
      | some n => .ok ⟨.exact k n, String.ofList counter, modifier⟩
      | none => .error unknown

/-- The variables of some tokens by binding key, added to those already known; a key met again keeps
its variable. -/
def collectInto (known : Table String Variable) :
    List Token → Except AssertionError (Table String Variable)
  | [] => .ok known
  | .reference name modifier :: rest =>
    let key := Token.bindingKey name modifier
    if known.contains key then collectInto known rest
    else
      match read name modifier with
      | .ok v => collectInto (known.insert key v) rest
      | .error e => .error e
  | _ :: rest => collectInto known rest

/-- The variables of some tokens by binding key. -/
def collect (tokens : List Token) : Except AssertionError (Table String Variable) :=
  collectInto .empty tokens

/-- Whether some variables are tied to ports of both kinds. -/
def isMultiport (vs : List Variable) : Bool :=
  PortKind.client ∈ vs.filterMap (·.scope.kind?) && PortKind.server ∈ vs.filterMap (·.scope.kind?)

end Variable

end TrafficCheck
