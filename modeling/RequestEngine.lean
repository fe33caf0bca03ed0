import RequestEngine.Cache
import RequestEngine.CommandLine.Arguments
import RequestEngine.CommandLine.Message
import RequestEngine.CommandLine.Process
import RequestEngine.CommandLine.Run
import RequestEngine.Computation
import RequestEngine.Datum
import RequestEngine.Decimal.Binary
import RequestEngine.Decimal.Fixed
import RequestEngine.Decimal.Shortest
import RequestEngine.Dependencies
import RequestEngine.Dependencies.Graphviz
import RequestEngine.Dependencies.Tree
import RequestEngine.Diagnostic
import RequestEngine.Diagnostic.Template
import RequestEngine.Document
import RequestEngine.Document.Format
import RequestEngine.Duration
import RequestEngine.Evaluation
import RequestEngine.Evaluator
import RequestEngine.Failure
import RequestEngine.Files
import RequestEngine.Files.Path
import RequestEngine.Fixtures
import RequestEngine.Graph
import RequestEngine.Graph.Analysis
import RequestEngine.Graph.Batch
import RequestEngine.Graph.Load
import RequestEngine.Json.Document
import RequestEngine.Json.Text
import RequestEngine.Json.Token
import RequestEngine.Json.Value
import RequestEngine.Kind
import RequestEngine.Log
import RequestEngine.Log.Filter
import RequestEngine.Main
import RequestEngine.Options
import RequestEngine.Options.Configuration
import RequestEngine.Program
import RequestEngine.Proofs.AnalysisCorrect
import RequestEngine.Proofs.AnalysisMeaning
import RequestEngine.Proofs.AnalysisProgram
import RequestEngine.Proofs.AnalysisReports
import RequestEngine.Proofs.AnalysisRun
import RequestEngine.Proofs.CachingUnobservable
import RequestEngine.Proofs.CachingUnrecorded
import RequestEngine.Proofs.Career
import RequestEngine.Proofs.Counting
import RequestEngine.Proofs.Course
import RequestEngine.Proofs.CycleFree
import RequestEngine.Proofs.CycleRecovery
import RequestEngine.Proofs.CyclicLines
import RequestEngine.Proofs.Denotation
import RequestEngine.Proofs.DependencyPaths
import RequestEngine.Proofs.ExitStatus
import RequestEngine.Proofs.FiniteNesting
import RequestEngine.Proofs.GraphvizReading
import RequestEngine.Proofs.HistoryIndependence
import RequestEngine.Proofs.IdentityCapacity
import RequestEngine.Proofs.IdentityOwners
import RequestEngine.Proofs.KeptResults
import RequestEngine.Proofs.Lifetime
import RequestEngine.Proofs.Memoization
import RequestEngine.Proofs.MemoizedRecursion
import RequestEngine.Proofs.MetricsAccount
import RequestEngine.Proofs.NodeNumbers
import RequestEngine.Proofs.Observers
import RequestEngine.Proofs.PrintedLines
import RequestEngine.Proofs.Reception
import RequestEngine.Proofs.RecordedCones
import RequestEngine.Proofs.RecordedGraph
import RequestEngine.Proofs.Recording
import RequestEngine.Proofs.Registration
import RequestEngine.Proofs.RegistryHistory
import RequestEngine.Proofs.Run
import RequestEngine.Proofs.SharedDepths
import RequestEngine.Proofs.SharedStatistics
import RequestEngine.Proofs.Simulation
import RequestEngine.Proofs.StackDiscipline
import RequestEngine.Proofs.Standings
import RequestEngine.Proofs.Steps
import RequestEngine.Proofs.StrictRuns
import RequestEngine.Proofs.TemplateGrammar
import RequestEngine.Proofs.Termination
import RequestEngine.Proofs.Traversal
import RequestEngine.Proofs.TreePlaces
import RequestEngine.Proofs.Trust
import RequestEngine.Proofs.TypeIdentities
import RequestEngine.Proofs.Uncached
import RequestEngine.Proofs.UnfoldedForest
import RequestEngine.Proofs.ZoneConflicts
import RequestEngine.Span
import RequestEngine.Span.Document
import RequestEngine.Statistics
import RequestEngine.Text.Quoted
import RequestEngine.Text.Unprintable
import RequestEngine.Workbench
import RequestEngine.Workbench.Request
import RequestEngine.Workbench.Script
import RequestEngine.Workshop
import RequestEngine.Yaml.Cursor
import RequestEngine.Yaml.Document
import RequestEngine.Yaml.Lexer
import RequestEngine.Yaml.Node
import RequestEngine.Yaml.Scalar
import RequestEngine.Yaml.Tag
import RequestEngine.Yaml.Token
import RequestEngine.Zone.Definition
import RequestEngine.Zone.Identity
import RequestEngine.Zone.Primitive
import RequestEngine.Zone.Registry
import RequestEngine.Zone.TypeTerm
