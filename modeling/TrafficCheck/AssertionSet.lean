import TrafficCheck.Assertion
import TrafficCheck.Statistics
import TrafficCheck.Text.Line

/-!
# Assertion sets

The assertions of a run in the order in which their files were loaded. A file with an error adds
none of its assertions and is kept as a load failure.

## Main definitions

* `AssertionSet.parse`: the assertions of a text.
* `AssertionSet.load`: the set after a file was added to it.
* `AssertionSet.validate`: the set after assertions on unknown counters were ignored.
* `AssertionSet.check`: the set after its assertions were checked.
* `AssertionSet.statistics`: how many assertions of each file passed, failed or were ignored.
-/

namespace TrafficCheck

/-- A file that could not be loaded. -/
structure LoadFailure where
  file : String
  error : AssertionError

/-- The assertions of a run, the files they came from, and the files that gave none. -/
structure AssertionSet where
  assertions : List Assertion
  files : List String
  failures : List LoadFailure

namespace AssertionSet

/-- The set without assertions. -/
def empty : AssertionSet := ⟨[], [], []⟩

instance : Inhabited AssertionSet := ⟨empty⟩

/-- The lines of a text that write assertions, with their numbers: those that are not blank and do
not start with a hash. -/
def statements (text : String) : List (Nat × List Char) :=
  ((Text.numberedLines text.toList).map fun l => (l.1, Text.trimEndOf '\r' l.2)).filter fun l =>
    !Text.isBlankText l.2 && l.2.head? != some '#'

/-- The assertions of a text; the first line with an error decides. -/
def parse (name text : String) : Except AssertionError (List Assertion) :=
  (statements text).mapM fun l =>
    (Assertion.read (String.ofList l.2) name l.1).mapError (.inFile name l.1)

/-- The set after a file could not be loaded, with a record of the error. -/
def loadFailed (s : AssertionSet) (name : String) (error : AssertionError) :
    Logged AssertionSet := do
  Logged.note .error s!"Failed to load assertions file {name}: {error.message}"
  return { s with failures := s.failures ++ [⟨name, error⟩] }

/-- The set after a text was added to it under the name of its file. -/
def load (s : AssertionSet) (name text : String) : Logged AssertionSet :=
  match parse name text with
  | .ok assertions => do
    Logged.note .debug s!"Assertions loaded: {name} ({assertions.length})"
    return { s with
      assertions := s.assertions ++ assertions
      files := s.files ++ [name] }
  | .error error => s.loadFailed name error

/-- The number of assertions. -/
def size (s : AssertionSet) : Nat := s.assertions.length

/-- The names of the counters that active assertions read. -/
def referencedCounters (s : AssertionSet) : NameSet :=
  (s.assertions.filter (·.isActive)).foldl (fun names a => names.addAll a.counters.keys) .empty

/-- The counters an assertion reads that a catalog does not know. -/
def unknownCounters (c : Catalog) (a : Assertion) : List String :=
  a.counters.keys.filter fun counter => !c.knows counter

/-- An assertion after validation: ignored if it reads a counter that the catalog does not know. -/
def validateOne (c : Catalog) (a : Assertion) : Assertion :=
  match unknownCounters c a with
  | [] => a
  | unknown => a.ignore ("with invalid counter(s) " ++ ", ".intercalate unknown)

/-- The most unknown counters named in a record. -/
def mostListed : Nat := 11

/-- The record of a validation that ignored some assertions for some unknown counters. -/
def validationMessage (ignored : Nat) (unknown : List String) : String :=
  let assertions := if ignored > 1 then "assertions" else "assertion"
  let counters := if unknown.length > 1 then "counters are" else "counter is"
  s!"{ignored} {assertions} with the following invalid {counters} ignored:" ++
    String.join ((unknown.take mostListed).map fun name => "\n\t" ++ name) ++
    (if unknown.length > mostListed then s!"\n<...> Total {unknown.length} items." else "")

/-- The active assertions that read a counter which a catalog does not know. -/
def invalid (s : AssertionSet) (c : Catalog) : List Assertion :=
  s.assertions.filter fun a => a.isActive && !(unknownCounters c a).isEmpty

/-- The set after validation, and how many assertions it ignored. One record tells of all of
them. -/
def validate (s : AssertionSet) (c : Catalog) : Logged (AssertionSet × Nat) := do
  let invalid := s.invalid c
  let unknown := NameSet.ofNames (invalid.flatMap (unknownCounters c))
  if !invalid.isEmpty then
    Logged.note .error (validationMessage invalid.length unknown.keys)
  return ({ s with assertions := s.assertions.map (validateOne c) }, invalid.length)

/-- The assertions after they were checked in order, and the error that ended the check early, if
any; assertions behind it are not checked. -/
def checkEach (t : Topology) (h : History) :
    List Assertion → Logged (List Assertion × Except AssertionError Unit)
  | [] => pure ([], .ok ())
  | a :: rest => do
    match ← (a.check t h).run with
    | .error e => return (a :: rest, .error e)
    | .ok a =>
      let (rest, result) ← checkEach t h rest
      return (a :: rest, result)

/-- The set after its assertions were checked, and the error that ended the check early, if any. -/
def check (s : AssertionSet) (t : Topology) (h : History) :
    Logged (AssertionSet × Except AssertionError Unit) := do
  Logged.note .debug "Checking assertions..."
  let (assertions, result) ← checkEach t h s.assertions
  return ({ s with assertions := assertions }, result)

/-- How many of some assertions passed, failed or were ignored. -/
def tally (file : String) (assertions : List Assertion) : FileStatistics where
  file := file
  passed := assertions.countP fun a => a.outcome = .passed
  failed := assertions.countP fun a => a.outcome matches .failed _
  ignored := assertions.countP fun a => a.outcome matches .ignored _

/-- For each loaded file, how many assertions under its name passed, failed or were ignored. -/
def statistics (s : AssertionSet) : List FileStatistics :=
  s.files.map fun file => tally file (s.assertions.filter fun a => a.file = file)

/-- The messages of the failed assertions. -/
def failureMessages (s : AssertionSet) : List String :=
  s.assertions.filterMap fun a =>
    match a.outcome with
    | .failed message => some message
    | _ => none

/-- Whether every file was loaded and no assertion failed. -/
def passed (s : AssertionSet) : Bool := s.failures.isEmpty && s.failureMessages.isEmpty

end AssertionSet

end TrafficCheck
