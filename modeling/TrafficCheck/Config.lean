import TrafficCheck.Disk
import TrafficCheck.Text.Blank
import TrafficCheck.Yaml.View

/-!
# Configurations

Where a check finds what it needs. A configuration comes from a YAML file, whose relative paths are
seen from the directory of that file; what the file leaves out keeps its default.

## Main definitions

* `Config.ofYaml?`: the configuration that a YAML text writes.
* `Config.load`: the configuration in force for an environment.
* `Config.validate`: a configuration that can be used.
-/

namespace TrafficCheck

/-- Where a check finds what it needs. -/
structure Config where
  /-- Used for a project without assertion files of its own. -/
  defaultAssertions : Option Path
  /-- Loaded before all other assertion files. -/
  integrityAssertions : Option Path
  /-- The names of all counters, one on a line. -/
  countersFile : Option Path
  /-- How many levels of directories are searched for projects. -/
  maxDepth : Nat
  /-- The name of the topology file of a project. -/
  topologyFile : String
  /-- The name of the directory of a project that holds its results. -/
  resultsDir : String
  logFile : Option Path

/-- The variables that tell where configuration files are. -/
structure Environment where
  /-- The home of the checker. -/
  checkerHome : Option String
  /-- The home of the user. -/
  userHome : Option String

/-- Why a configuration cannot be used. -/
inductive Config.Fault where
  | zeroDepth
  | blankTopologyFile
  | blankResultsDir
  deriving DecidableEq, Repr

/-- The wording of a fault. -/
def Config.Fault.message : Config.Fault → String
  | .zeroDepth => "max_depth must be at least 1"
  | .blankTopologyFile => "topology_file must not be empty"
  | .blankResultsDir => "results_dir must not be empty"

/-- Why there is no configuration. -/
inductive ConfigError where
  /-- The text writes no configuration; the path is empty where the text is not known to be a
  file. -/
  | unparsed (file : Path)
  | unreadable (file : Path) (failure : Failure)
  | invalid (fault : Config.Fault)

/-- The wording of an error. -/
def ConfigError.message : ConfigError → String
  | .unparsed file => s!"Config parse error in {file.text}: no configuration"
  | .unreadable file failure => s!"IO error reading config {file.text}: {failure.message}"
  | .invalid fault => s!"Invalid configuration: {fault.message}"

namespace Environment

/-- The directory of the checker: its own home if one is named, else a hidden directory in the home
of the user. -/
def home? (env : Environment) : Option Path :=
  match env.checkerHome with
  | some home => if home.isEmpty then userDirectory? else some ⟨home⟩
  | none => userDirectory?
where
  /-- The hidden directory in the home of the user. -/
  userDirectory? : Option Path := env.userHome.map fun home => (Path.mk home).child ".tac"

end Environment

namespace Config

/-- What holds where no configuration file says otherwise. -/
def standard : Config where
  defaultAssertions := some ⟨"default.assertions"⟩
  integrityAssertions := some ⟨"integrity.assertions"⟩
  countersFile := none
  maxDepth := 256
  topologyFile := "topology.yaml"
  resultsDir := "Results"
  logFile := none

/-- The names of the fields in a configuration file. -/
def fieldNames : List String :=
  ["default_assertions", "integrity_assertions", "counters_file", "max_depth", "topology_file",
   "results_dir", "log_file"]

/-- Depths are below this limit. -/
def depthLimit : Nat := UInt64.size

/-- The path that a value names; it may be absent. -/
def path? (value : Yaml.View) : Option (Option Path) :=
  value.optionalText?.map fun text => text.map Path.mk

/-- The configuration that a document writes. -/
def ofView? (document : Yaml.View) : Option Config := do
  let fields ← document.fields? fieldNames
  let field {α : Type} (name : String) (absent : α) (read : Yaml.View → Option α) : Option α :=
    match fields.lookup name with
    | some value => read value
    | none => some absent
  return {
    defaultAssertions := ← field "default_assertions" standard.defaultAssertions path?
    integrityAssertions := ← field "integrity_assertions" standard.integrityAssertions path?
    countersFile := ← field "counters_file" standard.countersFile path?
    maxDepth := ← field "max_depth" standard.maxDepth (Yaml.View.natural? depthLimit)
    topologyFile := ← field "topology_file" standard.topologyFile Yaml.View.text?
    resultsDir := ← field "results_dir" standard.resultsDir Yaml.View.text?
    logFile := ← field "log_file" standard.logFile path? }

/-- The configuration that a YAML text writes. -/
def ofYaml? (yaml : String) : Option Config := (Yaml.View.ofText? yaml).bind ofView?

/-- The configuration with its paths seen from a directory. -/
def resolved (c : Config) (base : Path) : Config :=
  { c with
    defaultAssertions := c.defaultAssertions.map base.join
    integrityAssertions := c.integrityAssertions.map base.join
    countersFile := c.countersFile.map base.join
    logFile := c.logFile.map base.join }

/-- The configuration in a file. -/
def ofFile (d : Disk) (file : Path) : Except ConfigError Config :=
  match d.readText file with
  | .error failure => .error (.unreadable file failure)
  | .ok yaml =>
    match ofYaml? yaml with
    | some c => .ok (c.resolved (file.parent?.getD ⟨"."⟩))
    | none => .error (.unparsed file)

/-- The first reason why a configuration cannot be used. -/
def fault? (c : Config) : Option Fault :=
  if c.maxDepth = 0 then some .zeroDepth
  else if Text.isBlankText c.topologyFile.toList then some .blankTopologyFile
  else if Text.isBlankText c.resultsDir.toList then some .blankResultsDir
  else none

/-- The configuration, if it can be used. -/
def validate (c : Config) : Except ConfigError Config :=
  match c.fault? with
  | some fault => .error (.invalid fault)
  | none => .ok c

/-- The name of the configuration file in the directory of the checker. -/
def fileName : String := "config.yaml"

/-- The configuration that holds without a named file: the file in the directory of the checker if
it is there, else the standard one. -/
def found (d : Disk) (env : Environment) : Except ConfigError Config :=
  match env.home? with
  | none => .ok standard
  | some home =>
    if d.isFile (home.child fileName) then ofFile d (home.child fileName)
    else .ok (standard.resolved home)

/-- The configuration in force: that of the named file, or the one that holds without it. -/
def load (d : Disk) (env : Environment) (file : Option Path) : Except ConfigError Config := do
  let c ← match file with
    | some file => ofFile d file
    | none => found d env
  c.validate

end Config

end TrafficCheck
