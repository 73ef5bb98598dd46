import StateBuffer.Analysis
import StateBuffer.Command.Catalog
import StateBuffer.Command.Flag
import StateBuffer.Command.Run
import StateBuffer.Command.Session
import StateBuffer.Compilation.Artifact
import StateBuffer.Compilation.Basic
import StateBuffer.Compilation.Observe
import StateBuffer.Data.Json
import StateBuffer.Data.Msgpack
import StateBuffer.Data.Sha256
import StateBuffer.Data.Toml
import StateBuffer.Diagnostic.Bag
import StateBuffer.Diagnostic.Basic
import StateBuffer.Diagnostic.Render
import StateBuffer.Disk
import StateBuffer.Fault
import StateBuffer.Files.Basic
import StateBuffer.Files.Change
import StateBuffer.Graph
import StateBuffer.Machine.Basic
import StateBuffer.Machine.Error
import StateBuffer.Machine.Run
import StateBuffer.Main
import StateBuffer.Path
import StateBuffer.Plan
import StateBuffer.Program.Basic
import StateBuffer.Program.Codec
import StateBuffer.Program.FieldMap
import StateBuffer.Program.Table
import StateBuffer.Progress.Event
import StateBuffer.Progress.View
import StateBuffer.Project.Manifest
import StateBuffer.Project.Sources
import StateBuffer.Resolution.Basic
import StateBuffer.Resolution.Constants
import StateBuffer.Resolution.Definitions
import StateBuffer.Resolution.Dependencies
import StateBuffer.Resolution.Imports
import StateBuffer.Shader.Emit
import StateBuffer.Shader.FrontEnd
import StateBuffer.Shader.Reader
import StateBuffer.Shader.Scope
import StateBuffer.Shader.Token
import StateBuffer.Shader.Tree
import StateBuffer.Shader.Type
import StateBuffer.Shader.Verdict
import StateBuffer.Source.Fingerprint
import StateBuffer.Source.Interner
import StateBuffer.Source.Set
import StateBuffer.Source.Span
import StateBuffer.Syntax.Combinator
import StateBuffer.Syntax.Cursor
import StateBuffer.Syntax.Error
import StateBuffer.Syntax.Grammar
import StateBuffer.Syntax.Invariant
import StateBuffer.Syntax.Literal
import StateBuffer.Syntax.Tree
import StateBuffer.Text.Ansi
import StateBuffer.Text.Bytes
import StateBuffer.Text.CodePoint
import StateBuffer.Text.ColumnRanges
import StateBuffer.Text.Columns
import StateBuffer.Text.Decimal
import StateBuffer.Text.Integer
import StateBuffer.Text.Quoted
import StateBuffer.Text.Ranges
import StateBuffer.Text.Terminal
import StateBuffer.Text.Utf8
import StateBuffer.Time.Duration
import StateBuffer.Time.Instant
import StateBuffer.Trace.Event
import StateBuffer.Trace.Ring
import StateBuffer.Trace.Timer
import StateBuffer.Trace.Tracer
import StateBuffer.Validation
import StateBuffer.Version
import StateBuffer.Proofs.Syntax.Trivia
import StateBuffer.Proofs.Syntax.Lexeme
import StateBuffer.Proofs.Syntax.Derivation
import StateBuffer.Proofs.Syntax.Repetition
import StateBuffer.Proofs.Syntax.Items
import StateBuffer.Proofs.Syntax.Acceptance
import StateBuffer.Proofs.Syntax.Numbering
import StateBuffer.Proofs.Resolution.Registered
import StateBuffer.Proofs.Resolution.Paths
import StateBuffer.Proofs.Resolution.Lookup
import StateBuffer.Proofs.Resolution.Binding
import StateBuffer.Proofs.Resolution.Scoping
import StateBuffer.Proofs.Resolution.Chains
import StateBuffer.Proofs.Validation
import StateBuffer.Proofs.Graph
import StateBuffer.Proofs.Graph.Peeling
import StateBuffer.Proofs.Graph.Waves
import StateBuffer.Proofs.Resolution.Constants
import StateBuffer.Proofs.Values
import StateBuffer.Proofs.Plan
import StateBuffer.Proofs.Machine.Memory
import StateBuffer.Proofs.Machine.Simulation
import StateBuffer.Proofs.Shader.Tokens
import StateBuffer.Proofs.Shader.Emission
import StateBuffer.Proofs.Execution
import StateBuffer.Proofs.Resolution.Removal
import StateBuffer.Proofs.Contents
import StateBuffer.Proofs.Machine.Stopping
import StateBuffer.Proofs.Program.Fields
import StateBuffer.Proofs.Program.Snapshot
import StateBuffer.Proofs.Compilation
import StateBuffer.Proofs.Resolution.Renaming
import StateBuffer.Proofs.Resolution.Invariance
import StateBuffer.Proofs.Warnings
import StateBuffer.Proofs.FileOrder
import StateBuffer.Proofs.Resolution.Privacy
import StateBuffer.Proofs.Limit
import StateBuffer.Proofs.Syntax.Spans
import StateBuffer.Proofs.ParsedTree
import StateBuffer.Proofs.Data.Json
import StateBuffer.Proofs.Data.Msgpack
import StateBuffer.Proofs.Program.Storage
import StateBuffer.Proofs.Lowering
import StateBuffer.Proofs.Progress
import StateBuffer.Proofs.Syntax.Places
import StateBuffer.Proofs.Syntax.Failure
import StateBuffer.Proofs.Syntax.Location
import StateBuffer.Proofs.Cycles
import StateBuffer.Proofs.Program.Numbers
import StateBuffer.Proofs.Machine.Steps
import StateBuffer.Proofs.Machine.History
import StateBuffer.Proofs.Program.Layout
import StateBuffer.Proofs.Program.Decoding
import StateBuffer.Proofs.Machine.Bounds
import StateBuffer.Proofs.Text.Split
import StateBuffer.Proofs.Path
import StateBuffer.Proofs.Source.Positions
import StateBuffer.Proofs.Syntax.Origins
import StateBuffer.Proofs.Resolution.References
import StateBuffer.Proofs.Literals
import StateBuffer.Proofs.Resolution.Targets
import StateBuffer.Proofs.Source.LineEnds
import StateBuffer.Proofs.Source.Fingerprint
import StateBuffer.Proofs.Path.Within
import StateBuffer.Proofs.Project.Reading
import StateBuffer.Proofs.Project.SourceRoot
import StateBuffer.Proofs.Path.Parent
import StateBuffer.Proofs.Files.Walk
import StateBuffer.Proofs.Files.Directories
import StateBuffer.Proofs.Files.Saving
import StateBuffer.Proofs.Source.Order
import StateBuffer.Proofs.Trace.Latest
import StateBuffer.Proofs.Syntax.Merging
import StateBuffer.Proofs.Diagnostics.Ledger
import StateBuffer.Proofs.Syntax.Backtracking
import StateBuffer.Proofs.Syntax.Termination
import StateBuffer.Proofs.Source.Interning
