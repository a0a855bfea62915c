import QueryRelay.Calendar.Rfc3339
import QueryRelay.Calendar.Timestamp
import QueryRelay.Catalog.Basic
import QueryRelay.Catalog.Builtin
import QueryRelay.CommandLine.Basic
import QueryRelay.CommandLine.Help
import QueryRelay.CommandLine.Run
import QueryRelay.DataFile
import QueryRelay.Descriptor.Basic
import QueryRelay.Descriptor.Reader
import QueryRelay.Error
import QueryRelay.Eval.Meaning
import QueryRelay.Eval.Operation
import QueryRelay.Eval.Sequence
import QueryRelay.Eval.Store
import QueryRelay.Executor
import QueryRelay.Expr.Basic
import QueryRelay.Expr.Freeze
import QueryRelay.Expr.Navigation
import QueryRelay.Expr.Traversal
import QueryRelay.Expr.Ty
import QueryRelay.Expr.Typing
import QueryRelay.Fields
import QueryRelay.Json.Document
import QueryRelay.Json.Number
import QueryRelay.Json.Syntax
import QueryRelay.Json.Text
import QueryRelay.Main
import QueryRelay.Mapping.Basic
import QueryRelay.Mapping.Convert
import QueryRelay.Mapping.Result
import QueryRelay.Mapping.Target
import QueryRelay.Number.Arithmetic
import QueryRelay.Number.Binary64
import QueryRelay.Number.Bytes
import QueryRelay.Number.Shortest
import QueryRelay.Number.Text
import QueryRelay.Operator
import QueryRelay.Payload.Binary
import QueryRelay.Payload.Datum
import QueryRelay.Payload.Format
import QueryRelay.Payload.Message
import QueryRelay.Payload.Plan
import QueryRelay.Payload.Schema
import QueryRelay.Payload.Text
import QueryRelay.Payload.Value
import QueryRelay.Plan.Basic
import QueryRelay.Plan.Binding
import QueryRelay.Plan.Linear
import QueryRelay.Plan.Planning
import QueryRelay.Plan.Traversal
import QueryRelay.Proofs.Catalog.Definitions
import QueryRelay.Proofs.Catalog.Order
import QueryRelay.Proofs.Catalog.Resolution
import QueryRelay.Proofs.DataFile.Moments
import QueryRelay.Proofs.DataFile.Order
import QueryRelay.Proofs.DataFile.Rows
import QueryRelay.Proofs.Descriptor.Names
import QueryRelay.Proofs.Descriptor.Reading
import QueryRelay.Proofs.Eval.Agreement
import QueryRelay.Proofs.Eval.EqualKeys
import QueryRelay.Proofs.Eval.Grouping
import QueryRelay.Proofs.Eval.Heredity
import QueryRelay.Proofs.Eval.Joining
import QueryRelay.Proofs.Eval.Scopes
import QueryRelay.Proofs.Eval.Sequences
import QueryRelay.Proofs.Eval.SortChains
import QueryRelay.Proofs.Eval.StableSort
import QueryRelay.Proofs.Executor.Emission
import QueryRelay.Proofs.Executor.Hooks
import QueryRelay.Proofs.Executor.Results
import QueryRelay.Proofs.Expr.Freezing
import QueryRelay.Proofs.Expr.FrozenForm
import QueryRelay.Proofs.Expr.Navigations
import QueryRelay.Proofs.Expr.Nodes
import QueryRelay.Proofs.Expr.Parts
import QueryRelay.Proofs.Expr.Rewriting
import QueryRelay.Proofs.Fields
import QueryRelay.Proofs.Json.Documents
import QueryRelay.Proofs.Json.Members
import QueryRelay.Proofs.Json.Numerals
import QueryRelay.Proofs.Json.Texts
import QueryRelay.Proofs.Mapping.Asking
import QueryRelay.Proofs.Mapping.Budget
import QueryRelay.Proofs.Mapping.Completeness
import QueryRelay.Proofs.Mapping.Cycles
import QueryRelay.Proofs.Mapping.Faults
import QueryRelay.Proofs.Mapping.Fuel
import QueryRelay.Proofs.Mapping.Growth
import QueryRelay.Proofs.Mapping.Identity
import QueryRelay.Proofs.Mapping.Integers
import QueryRelay.Proofs.Mapping.Links
import QueryRelay.Proofs.Mapping.Living
import QueryRelay.Proofs.Mapping.Places
import QueryRelay.Proofs.Mapping.Reading
import QueryRelay.Proofs.Mapping.Requests
import QueryRelay.Proofs.Mapping.Soundness
import QueryRelay.Proofs.Mapping.Sources
import QueryRelay.Proofs.Mapping.Steps
import QueryRelay.Proofs.Mapping.Streaming
import QueryRelay.Proofs.Mapping.Survival
import QueryRelay.Proofs.Mapping.Trees
import QueryRelay.Proofs.Number.Rounding
import QueryRelay.Proofs.Outcome
import QueryRelay.Proofs.Payload.Binary
import QueryRelay.Proofs.Payload.Floats
import QueryRelay.Proofs.Payload.Messages
import QueryRelay.Proofs.Payload.Plans
import QueryRelay.Proofs.Payload.Text
import QueryRelay.Proofs.Payload.TextMessages
import QueryRelay.Proofs.Payload.Values
import QueryRelay.Proofs.Plan.Chains
import QueryRelay.Proofs.Plan.Constants
import QueryRelay.Proofs.Plan.Drafting
import QueryRelay.Proofs.Plan.Includes
import QueryRelay.Proofs.Plan.Inheritance
import QueryRelay.Proofs.Plan.Judgment
import QueryRelay.Proofs.Plan.Linear
import QueryRelay.Proofs.Plan.LinearChains
import QueryRelay.Proofs.Plan.Nodes
import QueryRelay.Proofs.Plan.Rebinding
import QueryRelay.Proofs.Plan.Rebuilding
import QueryRelay.Proofs.Plan.Scoping
import QueryRelay.Proofs.Plan.Shapes
import QueryRelay.Proofs.Plan.Translation
import QueryRelay.Proofs.Plan.Validation
import QueryRelay.Proofs.Pointwise
import QueryRelay.Proofs.Provider.Streams
import QueryRelay.Proofs.Provider.Ways
import QueryRelay.Proofs.Remote.Formats
import QueryRelay.Proofs.Remote.Polling
import QueryRelay.Proofs.Remote.Serving
import QueryRelay.Proofs.Remote.Streams
import QueryRelay.Proofs.Remote.Transparency
import QueryRelay.Proofs.Renaming.Expressions
import QueryRelay.Proofs.Renaming.Meanings
import QueryRelay.Proofs.Renaming.Plans
import QueryRelay.Proofs.Traversals
import QueryRelay.Proofs.Types.Hereditary
import QueryRelay.Proofs.Types.Normal
import QueryRelay.Proofs.Typing.Conforms
import QueryRelay.Proofs.Typing.Exactness
import QueryRelay.Proofs.Typing.Judgment
import QueryRelay.Proofs.Typing.Members
import QueryRelay.Proofs.Typing.Operations
import QueryRelay.Proofs.Typing.Queries
import QueryRelay.Proofs.Typing.Records
import QueryRelay.Proofs.Typing.Soundness
import QueryRelay.Proofs.Value.Answers
import QueryRelay.Proofs.Value.Comparing
import QueryRelay.Proofs.Value.Copying
import QueryRelay.Proofs.Value.Detachment
import QueryRelay.Proofs.Value.Equality
import QueryRelay.Proofs.Value.Loading
import QueryRelay.Proofs.Value.Plain
import QueryRelay.Proofs.Value.References
import QueryRelay.Proofs.Value.Resolution
import QueryRelay.Proofs.Value.Unfolding
import QueryRelay.Proofs.Wire.Buffers
import QueryRelay.Proofs.Wire.Cuts
import QueryRelay.Proofs.Wire.Framing
import QueryRelay.Proofs.Wire.Splitting
import QueryRelay.Provider.Basic
import QueryRelay.Provider.Elements
import QueryRelay.Provider.Queryable
import QueryRelay.Remote.Client
import QueryRelay.Remote.Pipe
import QueryRelay.Remote.Service
import QueryRelay.Settings
import QueryRelay.Signal
import QueryRelay.Text.Alphanumeric
import QueryRelay.Text.Blank
import QueryRelay.Text.Casing
import QueryRelay.Text.CodeSet
import QueryRelay.Text.Quoted
import QueryRelay.Text.Utf8
import QueryRelay.Toml.Basic
import QueryRelay.Toml.Reader
import QueryRelay.Toml.Scalar
import QueryRelay.Toml.Text
import QueryRelay.Value.Basic
import QueryRelay.Value.Detach
import QueryRelay.Value.Order
import QueryRelay.Value.Plain
import QueryRelay.Wire.Codec
import QueryRelay.Wire.Frame
import QueryRelay.Wire.Source
