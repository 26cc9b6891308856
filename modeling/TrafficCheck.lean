import TrafficCheck.Assertion
import TrafficCheck.AssertionError
import TrafficCheck.AssertionFiles
import TrafficCheck.AssertionSet
import TrafficCheck.Binding
import TrafficCheck.Check
import TrafficCheck.CommandLine
import TrafficCheck.CommandLine.Options
import TrafficCheck.Config
import TrafficCheck.CounterFile
import TrafficCheck.Decimal.Digits
import TrafficCheck.Decimal.Shortest
import TrafficCheck.Disk
import TrafficCheck.Elapsed
import TrafficCheck.Evaluation
import TrafficCheck.History
import TrafficCheck.Inspection
import TrafficCheck.Json.Numeral
import TrafficCheck.Json.Reader
import TrafficCheck.Json.Value
import TrafficCheck.Lexeme
import TrafficCheck.Log
import TrafficCheck.LogFile
import TrafficCheck.Main
import TrafficCheck.Mapping
import TrafficCheck.Operator
import TrafficCheck.Path
import TrafficCheck.Port
import TrafficCheck.Program
import TrafficCheck.Project.Results
import TrafficCheck.Project.Search
import TrafficCheck.Proofs.Aggregation
import TrafficCheck.Proofs.Assembly
import TrafficCheck.Proofs.AssertionFiles
import TrafficCheck.Proofs.Balance
import TrafficCheck.Proofs.Binding
import TrafficCheck.Proofs.Bound
import TrafficCheck.Proofs.Check
import TrafficCheck.Proofs.Collection
import TrafficCheck.Proofs.ConfigSources
import TrafficCheck.Proofs.Conservation
import TrafficCheck.Proofs.Counts
import TrafficCheck.Proofs.Cutting
import TrafficCheck.Proofs.Decimal
import TrafficCheck.Proofs.Dependence
import TrafficCheck.Proofs.Disks
import TrafficCheck.Proofs.Elapsed
import TrafficCheck.Proofs.EveryPort
import TrafficCheck.Proofs.Execution
import TrafficCheck.Proofs.Expression
import TrafficCheck.Proofs.FinalSample
import TrafficCheck.Proofs.Grammar
import TrafficCheck.Proofs.Inspection
import TrafficCheck.Proofs.Isolation
import TrafficCheck.Proofs.Json
import TrafficCheck.Proofs.LatestResults
import TrafficCheck.Proofs.Lifecycle
import TrafficCheck.Proofs.Lines
import TrafficCheck.Proofs.Loading
import TrafficCheck.Proofs.Mapping
import TrafficCheck.Proofs.Meaning
import TrafficCheck.Proofs.Merge
import TrafficCheck.Proofs.Modes
import TrafficCheck.Proofs.Numerals
import TrafficCheck.Proofs.Outcome
import TrafficCheck.Proofs.Pass
import TrafficCheck.Proofs.Paths
import TrafficCheck.Proofs.Postorder
import TrafficCheck.Proofs.References
import TrafficCheck.Proofs.Render
import TrafficCheck.Proofs.Report
import TrafficCheck.Proofs.Resolution
import TrafficCheck.Proofs.Retention
import TrafficCheck.Proofs.Rounding
import TrafficCheck.Proofs.Rules
import TrafficCheck.Proofs.RunPorts
import TrafficCheck.Proofs.RunProjects
import TrafficCheck.Proofs.Schedule
import TrafficCheck.Proofs.Search
import TrafficCheck.Proofs.Semantics
import TrafficCheck.Proofs.Snapshots
import TrafficCheck.Proofs.Sources
import TrafficCheck.Proofs.Spans
import TrafficCheck.Proofs.Stamps
import TrafficCheck.Proofs.Streams
import TrafficCheck.Proofs.SummaryNames
import TrafficCheck.Proofs.SyntaxErrors
import TrafficCheck.Proofs.Tables
import TrafficCheck.Proofs.Ticks
import TrafficCheck.Proofs.Truth
import TrafficCheck.Proofs.Unmapped
import TrafficCheck.Proofs.Validation
import TrafficCheck.Proofs.Verdict
import TrafficCheck.Proofs.Visits
import TrafficCheck.Report
import TrafficCheck.Report.Json
import TrafficCheck.Rule
import TrafficCheck.Run
import TrafficCheck.Stamp
import TrafficCheck.Statistics
import TrafficCheck.Summary.Directory
import TrafficCheck.Summary.Name
import TrafficCheck.Table
import TrafficCheck.Text.Blank
import TrafficCheck.Text.Line
import TrafficCheck.Token
import TrafficCheck.Token.Line
import TrafficCheck.Topology
import TrafficCheck.Topology.File
import TrafficCheck.Variable
import TrafficCheck.Window
import TrafficCheck.Yaml.Block
import TrafficCheck.Yaml.Cursor
import TrafficCheck.Yaml.Node
import TrafficCheck.Yaml.Property
import TrafficCheck.Yaml.Scalar
import TrafficCheck.Yaml.Token
import TrafficCheck.Yaml.View
