import ReactiveSpace.Build.Bundle
import ReactiveSpace.Build.Compiler
import ReactiveSpace.Build.Toolchain
import ReactiveSpace.Check.Checked
import ReactiveSpace.Check.Dependency
import ReactiveSpace.Check.Diagnostic
import ReactiveSpace.Check.Environment
import ReactiveSpace.Check.Graph
import ReactiveSpace.Check.Recording
import ReactiveSpace.Check.Resolve
import ReactiveSpace.Check.Typing
import ReactiveSpace.Command
import ReactiveSpace.Command.Arguments
import ReactiveSpace.Command.Usage
import ReactiveSpace.Decimal.Double
import ReactiveSpace.Decimal.Shortest
import ReactiveSpace.Decimal.Style
import ReactiveSpace.Deployment
import ReactiveSpace.Document.Factory
import ReactiveSpace.Document.Interface
import ReactiveSpace.Document.Library
import ReactiveSpace.Document.Principal
import ReactiveSpace.Document.Registry
import ReactiveSpace.Document.Settings
import ReactiveSpace.Document.TestRun
import ReactiveSpace.ErrorCode
import ReactiveSpace.Json.Number
import ReactiveSpace.Json.Parts
import ReactiveSpace.Json.Token
import ReactiveSpace.Json.Tree
import ReactiveSpace.Json.Value
import ReactiveSpace.Keyed
import ReactiveSpace.Main
import ReactiveSpace.Proofs.Build.History
import ReactiveSpace.Proofs.Document.Binding
import ReactiveSpace.Proofs.Document.Extraction
import ReactiveSpace.Proofs.Document.Registry
import ReactiveSpace.Proofs.Document.Report
import ReactiveSpace.Proofs.Document.Settings
import ReactiveSpace.Proofs.Document.Sharing
import ReactiveSpace.Proofs.Document.Testing
import ReactiveSpace.Proofs.Graph.Components
import ReactiveSpace.Proofs.Graph.Ordering
import ReactiveSpace.Proofs.Graph.Search
import ReactiveSpace.Proofs.Json.Depth
import ReactiveSpace.Proofs.Json.Literal
import ReactiveSpace.Proofs.Json.Parts
import ReactiveSpace.Proofs.Json.Reading
import ReactiveSpace.Proofs.Json.Scanning
import ReactiveSpace.Proofs.Json.Slots
import ReactiveSpace.Proofs.Keyed
import ReactiveSpace.Proofs.Reflection
import ReactiveSpace.Proofs.Reflection.Layout
import ReactiveSpace.Proofs.Schema.Erasure
import ReactiveSpace.Proofs.Schema.Name
import ReactiveSpace.Proofs.Schema.Rearrangement
import ReactiveSpace.Proofs.Schema.RoundTrip
import ReactiveSpace.Proofs.Space.Accumulation
import ReactiveSpace.Proofs.Space.Address
import ReactiveSpace.Proofs.Space.Chain
import ReactiveSpace.Proofs.Space.Checking
import ReactiveSpace.Proofs.Space.Construction
import ReactiveSpace.Proofs.Space.Cycle
import ReactiveSpace.Proofs.Space.Dependency
import ReactiveSpace.Proofs.Space.Embedding
import ReactiveSpace.Proofs.Space.Erasure
import ReactiveSpace.Proofs.Space.Form
import ReactiveSpace.Proofs.Space.Inclusion
import ReactiveSpace.Proofs.Space.Kind
import ReactiveSpace.Proofs.Space.Occurrence
import ReactiveSpace.Proofs.Space.Rearrangement
import ReactiveSpace.Proofs.Space.Recording
import ReactiveSpace.Proofs.Space.Reference
import ReactiveSpace.Proofs.Space.Replacement
import ReactiveSpace.Proofs.Space.RoundTrip
import ReactiveSpace.Proofs.Space.Spelling
import ReactiveSpace.Proofs.Space.Typing
import ReactiveSpace.Proofs.Space.Unaliasing
import ReactiveSpace.Proofs.Space.WellFormed
import ReactiveSpace.Proofs.Target.Answers
import ReactiveSpace.Proofs.Target.Balance
import ReactiveSpace.Proofs.Target.Call
import ReactiveSpace.Proofs.Target.Closed
import ReactiveSpace.Proofs.Target.Definitions
import ReactiveSpace.Proofs.Target.Distinct
import ReactiveSpace.Proofs.Target.Emission
import ReactiveSpace.Proofs.Target.Emitter
import ReactiveSpace.Proofs.Target.Erasure
import ReactiveSpace.Proofs.Target.Expansion
import ReactiveSpace.Proofs.Target.Function
import ReactiveSpace.Proofs.Target.Gating
import ReactiveSpace.Proofs.Target.Identity
import ReactiveSpace.Proofs.Target.Indexing
import ReactiveSpace.Proofs.Target.Mentions
import ReactiveSpace.Proofs.Target.Naming
import ReactiveSpace.Proofs.Target.Phrases
import ReactiveSpace.Proofs.Target.Reached
import ReactiveSpace.Proofs.Target.Reading
import ReactiveSpace.Proofs.Target.Recursion
import ReactiveSpace.Proofs.Target.Source
import ReactiveSpace.Proofs.Target.State
import ReactiveSpace.Proofs.Target.Transparency
import ReactiveSpace.Proofs.Target.Unaliasing
import ReactiveSpace.Proofs.Target.View
import ReactiveSpace.Proofs.Target.Written
import ReactiveSpace.Proofs.Text.Quoted
import ReactiveSpace.Proofs.Text.Sealed
import ReactiveSpace.Proofs.Text.Template
import ReactiveSpace.Reflection
import ReactiveSpace.Remaining
import ReactiveSpace.Schema.Capability
import ReactiveSpace.Schema.Decode
import ReactiveSpace.Schema.Encode
import ReactiveSpace.Schema.Equality
import ReactiveSpace.Schema.Name
import ReactiveSpace.Schema.Node
import ReactiveSpace.Schema.Position
import ReactiveSpace.Schema.Scalar
import ReactiveSpace.Space.Assembly
import ReactiveSpace.Space.Declarations
import ReactiveSpace.Space.Surface
import ReactiveSpace.Space.Table
import ReactiveSpace.Target.Delta
import ReactiveSpace.Target.Document
import ReactiveSpace.Target.Exports
import ReactiveSpace.Target.Members
import ReactiveSpace.Target.Message
import ReactiveSpace.Target.Record
import ReactiveSpace.Target.Scalar
import ReactiveSpace.Target.Shape
import ReactiveSpace.Target.Source
import ReactiveSpace.Target.Spelling
import ReactiveSpace.Target.State
import ReactiveSpace.Target.View
import ReactiveSpace.Target.Writer
import ReactiveSpace.Text.Blank
import ReactiveSpace.Text.Plain
import ReactiveSpace.Text.Quoted
import ReactiveSpace.Toml.Document
import ReactiveSpace.Toml.Lexeme
