import TrafficCheck.Decimal.Digits
import TrafficCheck.Path

/-!
# Options of the command line

Words that start with a dash are options: a single dash leads letters, two dashes lead a name. The
value of an option stands behind an equals sign, behind the letter, or in the next word. Every other
word names a folder, and so does every word behind a bare pair of dashes.

## Main definitions

* `Request.read`: what the words of a command line ask for.
-/

namespace TrafficCheck.CommandLine

/-- An option that takes a value. -/
inductive Valued where
  | logFile
  | testList
  | depth
  | config
  | output
  deriving DecidableEq, Repr

namespace Valued

/-- All options that take a value. -/
def all : List Valued := [.logFile, .testList, .depth, .config, .output]

/-- The name of an option. -/
def name : Valued → String
  | .logFile => "log-file"
  | .testList => "test-list"
  | .depth => "depth"
  | .config => "config"
  | .output => "output"

/-- The letter of an option. -/
def letter : Valued → Char
  | .logFile => 'l'
  | .testList => 't'
  | .depth => 'd'
  | .config => 'c'
  | .output => 'o'

/-- What an option tells. -/
def purpose : Valued → String
  | .logFile => "Also write the log to this file"
  | .testList => "File listing paths to tests, one per line"
  | .depth => "Depth of search for test projects in folders"
  | .config => "Configuration file"
  | .output => "Report format: text, json"

end Valued

/-- An option without a value. -/
inductive Switch where
  | verbose
  | help
  | version
  deriving DecidableEq, Repr

namespace Switch

/-- All options without a value. -/
def all : List Switch := [.verbose, .help, .version]

/-- The name of an option. -/
def name : Switch → String
  | .verbose => "verbose"
  | .help => "help"
  | .version => "version"

/-- The letter of an option. -/
def letter : Switch → Char
  | .verbose => 'v'
  | .help => 'h'
  | .version => 'V'

/-- What an option does. -/
def purpose : Switch → String
  | .verbose => "Enable verbose output"
  | .help => "Print help"
  | .version => "Print version"

end Switch

/-- Why a command line asks for nothing. -/
inductive UsageError where
  | unknown (word : String)
  | repeated (name : String)
  | missingValue (name : String)
  | needlessValue (name : String)
  | badValue (name value : String)
  deriving DecidableEq, Repr

/-- The wording of an error. -/
def UsageError.message : UsageError → String
  | .unknown word => s!"unexpected argument '{word}' found"
  | .repeated name => s!"the argument '--{name}' cannot be used multiple times"
  | .missingValue name => s!"a value is required for '{name}' but none was supplied"
  | .needlessValue name => s!"no value is expected for '--{name}'"
  | .badValue name value => s!"invalid value '{value}' for '--{name}'"

/-- What a check is asked to do. -/
structure Options where
  folders : List Path
  verbose : Bool
  logFile : Option Path
  testList : Option Path
  depth : Option Nat
  config : Option Path
  output : Option String

namespace Options

/-- Nothing is asked for. -/
def empty : Options := ⟨[], false, none, none, none, none, none⟩

/-- The number that a value writes, if it fits into 64 bits; a plus sign may lead. -/
def depth? (value : String) : Option Nat :=
  let cs := value.toList
  match Decimal.natural? (if cs.head? = some '+' then cs.tail else cs) with
  | some n => if n < UInt64.size then some n else none
  | none => none

/-- A path is not empty. -/
def path (name value : String) : Except UsageError Path :=
  if value.isEmpty then .error (.missingValue name) else .ok ⟨value⟩

/-- Whether an option was given a value. -/
def isGiven (o : Options) : Valued → Bool
  | .logFile => o.logFile.isSome
  | .testList => o.testList.isSome
  | .depth => o.depth.isSome
  | .config => o.config.isSome
  | .output => o.output.isSome

/-- The options with a value for one of them, which had none before. -/
def give (o : Options) (v : Valued) (value : String) : Except UsageError Options :=
  if o.isGiven v then .error (.repeated v.name)
  else
    match v with
    | .logFile => return { o with logFile := some (← path v.name value) }
    | .testList => return { o with testList := some (← path v.name value) }
    | .depth =>
      match depth? value with
      | some n => .ok { o with depth := some n }
      | none => .error (.badValue v.name value)
    | .config => return { o with config := some (← path v.name value) }
    | .output => .ok { o with output := some value }

/-- The options with one more folder. -/
def addFolder (o : Options) (word : String) : Except UsageError Options :=
  return { o with folders := o.folders ++ [← path "folders" word] }

end Options

/-- What a command line asks for. -/
inductive Request where
  | help
  | version
  | check (o : Options)

/-- Where reading stands behind a word. -/
inductive Progress where
  /-- The word was complete. -/
  | complete (o : Options)
  /-- The value of an option is to follow in the next word. -/
  | awaiting (o : Options) (v : Valued)
  /-- The word decides what is asked for, whatever follows. -/
  | decided (r : Request)

namespace Progress

/-- The effect of an option without a value, where `go` reads what follows it. -/
def switch (o : Options) (s : Switch) (go : Options → Except UsageError Progress) :
    Except UsageError Progress :=
  match s with
  | .verbose => if o.verbose then .error (.repeated s.name) else go { o with verbose := true }
  | .help => .ok (.decided .help)
  | .version => .ok (.decided .version)

/-- The effect of the letters behind a single dash. -/
def letters (o : Options) : List Char → Except UsageError Progress
  | [] => .ok (.complete o)
  | c :: cs =>
    match Switch.all.find? fun s => s.letter = c, Valued.all.find? fun v => v.letter = c with
    | some s, _ => switch o s fun o => letters o cs
    | none, some v =>
      if cs.isEmpty then .ok (.awaiting o v)
      else
        let value := if cs.head? = some '=' then cs.tail else cs
        (o.give v (String.ofList value)).map .complete
    | none, none => .error (.unknown (String.ofList ['-', c]))

/-- The effect of the text behind two dashes. -/
def long (o : Options) (cs : List Char) : Except UsageError Progress :=
  let name := String.ofList (cs.takeWhile (· != '='))
  let value := match cs.dropWhile (· != '=') with
    | _ :: value => some (String.ofList value)
    | [] => none
  match Switch.all.find? fun s => s.name = name, Valued.all.find? fun v => v.name = name with
  | some s, _ =>
    if value.isSome then .error (.needlessValue s.name) else switch o s fun o => .ok (.complete o)
  | none, some v =>
    match value with
    | some value => (o.give v value).map .complete
    | none => .ok (.awaiting o v)
  | none, none => .error (.unknown ("--" ++ name))

/-- The effect of a word; a dash that stands alone is a folder. -/
def word (o : Options) (w : String) : Except UsageError Progress :=
  match w.toList with
  | '-' :: '-' :: cs => long o cs
  | '-' :: c :: cs => letters o (c :: cs)
  | _ => (o.addFolder w).map .complete

end Progress

/-- Whether a word starts like an option, so that it is no value. -/
def startsOption (w : String) : Bool :=
  match w.toList with
  | '-' :: _ :: _ => true
  | _ => false

namespace Request

/-- What the words behind the given options ask for. -/
def readFrom (o : Options) : List String → Except UsageError Request
  | [] => .ok (.check o)
  | w :: rest =>
    if w = "--" then (rest.foldlM Options.addFolder o).map .check
    else
      match Progress.word o w with
      | .error e => .error e
      | .ok (.complete o) => readFrom o rest
      | .ok (.decided r) => .ok r
      | .ok (.awaiting o v) =>
        match rest with
        | [] => .error (.missingValue v.name)
        | value :: rest =>
          if startsOption value then .error (.missingValue v.name)
          else
            match o.give v value with
            | .ok o => readFrom o rest
            | .error e => .error e

/-- What the words of a command line ask for. -/
def read (words : List String) : Except UsageError Request := readFrom .empty words

end Request

/-- A line of help on an option. -/
def helpLine (letter : Char) (name value purpose : String) : String :=
  let option := s!"  -{letter}, --{name}" ++ value
  String.ofList (option.toList ++ List.replicate (31 - option.length) ' ') ++ purpose

/-- The text that explains the options. -/
def helpText : String :=
  let valued := Valued.all.map fun v =>
    helpLine v.letter v.name s!" <{v.name.toUpper}>" v.purpose
  let switches := Switch.all.map fun s => helpLine s.letter s.name "" s.purpose
  "\n".intercalate
    (["Traffic Assertion Checker", "", "Usage: tac [OPTIONS] [FOLDERS]...", "", "Arguments:",
      "  [FOLDERS]...  Folders searched for test projects", "", "Options:"] ++
      valued ++ switches) ++
    "\n"

/-- The name and the version of the program. -/
def versionText : String := "tac 0.1.0\n"

end TrafficCheck.CommandLine
