import PipelineWaves.Attempt
import PipelineWaves.CommandLine.Basic
import PipelineWaves.CommandLine.Help
import PipelineWaves.CommandLine.Option
import PipelineWaves.CommandLine.Reply
import PipelineWaves.Compiled
import PipelineWaves.Condition.Basic
import PipelineWaves.Condition.Outline
import PipelineWaves.Condition.Reader
import PipelineWaves.Condition.Token
import PipelineWaves.Definition.Basic
import PipelineWaves.Definition.Loading
import PipelineWaves.Dictionary
import PipelineWaves.Environment
import PipelineWaves.FilePath
import PipelineWaves.Files.Call
import PipelineWaves.Files.Fault
import PipelineWaves.Files.Node
import PipelineWaves.Files.Walk
import PipelineWaves.Graph.Basic
import PipelineWaves.Graph.Waves
import PipelineWaves.Json.Basic
import PipelineWaves.Json.Document
import PipelineWaves.Json.Source
import PipelineWaves.Json.Token
import PipelineWaves.Main
import PipelineWaves.Number.Binary64
import PipelineWaves.Number.Shortest
import PipelineWaves.Outcome
import PipelineWaves.Pipeline.Action
import PipelineWaves.Pipeline.Basic
import PipelineWaves.Pipeline.Written
import PipelineWaves.Program.Delivery
import PipelineWaves.Program.Error
import PipelineWaves.Program.Fragment
import PipelineWaves.Program.Generation
import PipelineWaves.Program.PackageName
import PipelineWaves.Program.Quoted
import PipelineWaves.Program.Table
import PipelineWaves.Program.Template
import PipelineWaves.Program.Written
import PipelineWaves.Proofs.Attempt
import PipelineWaves.Proofs.Compilation
import PipelineWaves.Proofs.Condition.Automaton
import PipelineWaves.Proofs.Condition.Grammar
import PipelineWaves.Proofs.Condition.Lexeme
import PipelineWaves.Proofs.Condition.Mention
import PipelineWaves.Proofs.Condition.Reading
import PipelineWaves.Proofs.Condition.Refusal
import PipelineWaves.Proofs.Condition.Scanning
import PipelineWaves.Proofs.Condition.StepCheck
import PipelineWaves.Proofs.Condition.Writing
import PipelineWaves.Proofs.Delivery.Atomicity
import PipelineWaves.Proofs.Delivery.Installation
import PipelineWaves.Proofs.Delivery.Mishap
import PipelineWaves.Proofs.Delivery.Naming
import PipelineWaves.Proofs.Delivery.Reliable
import PipelineWaves.Proofs.Delivery.Replacement
import PipelineWaves.Proofs.Delivery.Rollback
import PipelineWaves.Proofs.Delivery.Site
import PipelineWaves.Proofs.Delivery.Staging
import PipelineWaves.Proofs.Files.Change
import PipelineWaves.Proofs.Files.Existing
import PipelineWaves.Proofs.Files.Ordinary
import PipelineWaves.Proofs.Files.Path
import PipelineWaves.Proofs.Files.Place
import PipelineWaves.Proofs.Files.Route
import PipelineWaves.Proofs.Files.Standing
import PipelineWaves.Proofs.Graph.Ancestor
import PipelineWaves.Proofs.Graph.Closure
import PipelineWaves.Proofs.Graph.Countdown
import PipelineWaves.Proofs.Graph.Cycle
import PipelineWaves.Proofs.Graph.Dependency
import PipelineWaves.Proofs.Graph.Layers
import PipelineWaves.Proofs.Graph.Links
import PipelineWaves.Proofs.Graph.Place
import PipelineWaves.Proofs.Graph.Placement
import PipelineWaves.Proofs.Graph.Plan
import PipelineWaves.Proofs.Graph.Search
import PipelineWaves.Proofs.Graph.Validity
import PipelineWaves.Proofs.Json.Document
import PipelineWaves.Proofs.Json.Scanning
import PipelineWaves.Proofs.Layering
import PipelineWaves.Proofs.Override
import PipelineWaves.Proofs.Pipeline.Loading
import PipelineWaves.Proofs.Program.Agreement
import PipelineWaves.Proofs.Program.Arms
import PipelineWaves.Proofs.Program.CachePaths
import PipelineWaves.Proofs.Program.Condition
import PipelineWaves.Proofs.Program.Conduct
import PipelineWaves.Proofs.Program.Declaration
import PipelineWaves.Proofs.Program.Decoding
import PipelineWaves.Proofs.Program.Expression
import PipelineWaves.Proofs.Program.Fragment
import PipelineWaves.Proofs.Program.Generation
import PipelineWaves.Proofs.Program.Index
import PipelineWaves.Proofs.Program.Literal
import PipelineWaves.Proofs.Program.Mirror
import PipelineWaves.Proofs.Program.PackageName
import PipelineWaves.Proofs.Program.Performance
import PipelineWaves.Proofs.Program.Position
import PipelineWaves.Proofs.Program.Quotable
import PipelineWaves.Proofs.Program.Reader
import PipelineWaves.Proofs.Program.Schedule
import PipelineWaves.Proofs.Program.Scheduler
import PipelineWaves.Proofs.Program.Simulation
import PipelineWaves.Proofs.Program.StepTable
import PipelineWaves.Proofs.Program.Substitution
import PipelineWaves.Proofs.Program.TableReader
import PipelineWaves.Proofs.Program.TableText
import PipelineWaves.Proofs.Program.Template
import PipelineWaves.Proofs.Program.Token
import PipelineWaves.Proofs.Program.Unread
import PipelineWaves.Proofs.Program.Value
import PipelineWaves.Proofs.Rearrangement
import PipelineWaves.Proofs.Recipe.CacheArchive
import PipelineWaves.Proofs.Recipe.Call
import PipelineWaves.Proofs.Recipe.Copying
import PipelineWaves.Proofs.Recipe.HandlerArguments
import PipelineWaves.Proofs.Recipe.Launch
import PipelineWaves.Proofs.Recipe.Overlay
import PipelineWaves.Proofs.Recipe.PathList
import PipelineWaves.Proofs.Recipe.Reach
import PipelineWaves.Proofs.Run.Admission
import PipelineWaves.Proofs.Run.Cascade
import PipelineWaves.Proofs.Run.CleanCut
import PipelineWaves.Proofs.Run.Comparison
import PipelineWaves.Proofs.Run.Completeness
import PipelineWaves.Proofs.Run.DeclarationOrder
import PipelineWaves.Proofs.Run.FinishingOrder
import PipelineWaves.Proofs.Run.Interruption
import PipelineWaves.Proofs.Run.Lookup
import PipelineWaves.Proofs.Run.Resolution
import PipelineWaves.Proofs.Run.Sibling
import PipelineWaves.Proofs.Run.StepResult
import PipelineWaves.Proofs.Run.Trace
import PipelineWaves.Proofs.Run.Turn
import PipelineWaves.Proofs.Shape.Record
import PipelineWaves.Proofs.StepEnvironment
import PipelineWaves.Proofs.Terminal.Decoration
import PipelineWaves.Proofs.Terminal.Listing
import PipelineWaves.Proofs.Text.Trimmed
import PipelineWaves.Proofs.Validation
import PipelineWaves.Recipe.Artifact
import PipelineWaves.Recipe.Cache
import PipelineWaves.Recipe.Checkout
import PipelineWaves.Recipe.Error
import PipelineWaves.Recipe.Parameters
import PipelineWaves.Recipe.Perform
import PipelineWaves.Recipe.Process
import PipelineWaves.Recipe.Registry
import PipelineWaves.Recipe.Rehearsal
import PipelineWaves.Recipe.Settings
import PipelineWaves.Recipe.World
import PipelineWaves.Run.Arrival
import PipelineWaves.Run.Engine
import PipelineWaves.Run.Event
import PipelineWaves.Run.Execution
import PipelineWaves.Run.Identifier
import PipelineWaves.Run.Report
import PipelineWaves.Run.Strategy
import PipelineWaves.Sandbox.Archive
import PipelineWaves.Sandbox.Arithmetic
import PipelineWaves.Sandbox.Builtin
import PipelineWaves.Sandbox.Evaluation
import PipelineWaves.Sandbox.Expansion
import PipelineWaves.Sandbox.Field
import PipelineWaves.Sandbox.FileUtility
import PipelineWaves.Sandbox.Machine
import PipelineWaves.Sandbox.Program
import PipelineWaves.Sandbox.ScriptReader
import PipelineWaves.Sandbox.ScriptToken
import PipelineWaves.Sandbox.TextUtility
import PipelineWaves.Sandbox.Utility
import PipelineWaves.Shape.Content
import PipelineWaves.Shape.Error
import PipelineWaves.Shape.Readable
import PipelineWaves.Terminal.Display
import PipelineWaves.Terminal.Style
import PipelineWaves.Text.Blank
import PipelineWaves.Text.Bytes
import PipelineWaves.Text.Lines
import PipelineWaves.Text.Masked
import PipelineWaves.Text.Quoted
import PipelineWaves.Time.Duration
import PipelineWaves.Time.Instant
import PipelineWaves.Yaml.Character
import PipelineWaves.Yaml.Document
import PipelineWaves.Yaml.Layout
import PipelineWaves.Yaml.Node
import PipelineWaves.Yaml.Repetition
import PipelineWaves.Yaml.Scalar
import PipelineWaves.Yaml.Source
import PipelineWaves.Yaml.Tag
import PipelineWaves.Yaml.Text
import PipelineWaves.Yaml.Token
