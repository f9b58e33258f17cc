import Undecorate.Text.Identifier
import Undecorate.Text.Lowercase
import Undecorate.Text.Lines
import Undecorate.Text.Utf8
import Undecorate.Number.Shortest
import Undecorate.Number.Read
import Undecorate.Json.Reader
import Undecorate.Json.Writer
import Undecorate.Fault.Diagnostic
import Undecorate.Fault.Outside
import Undecorate.Tree.Walk
import Undecorate.Source.Splice
import Undecorate.Source.Given
import Undecorate.Declaration.OfTree
import Undecorate.Declaration.Given
import Undecorate.Decoration
import Undecorate.Scope
import Undecorate.Classify
import Undecorate.Layout
import Undecorate.Emit.Basic
import Undecorate.Engine.Basic
import Undecorate.Object.Basic
import Undecorate.Object.Heap
import Undecorate.Object.View
import Undecorate.Descriptor.Given
import Undecorate.Object.World
import Undecorate.Chain.Basic
import Undecorate.Chain.Run
import Undecorate.Script.Basic
import Undecorate.Script.Host
import Undecorate.Object.Equal
import Undecorate.Expression.Basic
import Undecorate.Expression.Eval
import Undecorate.Fault.Batch
import Undecorate.Realization
import Undecorate.Fault.Request
import Undecorate.Engine.Files
import Undecorate.Workspace
import Undecorate.Cli.Help
import Undecorate.Cli.Invocation
import Undecorate.Cli.Run
import Undecorate.Engine.Recording
import Undecorate.Main
import Undecorate.Proofs.Act
import Undecorate.Proofs.Chain.Calls
import Undecorate.Proofs.Chain.Law
import Undecorate.Proofs.Scope
import Undecorate.Proofs.Emit.Temporaries
import Undecorate.Proofs.Emit.Meaning
import Undecorate.Proofs.Emit.Simulation
import Undecorate.Proofs.Emit.Refinement
import Undecorate.Proofs.Tree.Walk
import Undecorate.Proofs.Except
import Undecorate.Proofs.Declaration.Members
import Undecorate.Proofs.Declaration.Attachment
import Undecorate.Proofs.Classify
import Undecorate.Proofs.Engine.Run
import Undecorate.Proofs.Declaration.Claims
import Undecorate.Proofs.Engine.Sites
import Undecorate.Proofs.Declaration.Reads
import Undecorate.Proofs.Source.Splice
import Undecorate.Proofs.Engine.Locality
import Undecorate.Proofs.Engine.Nesting
import Undecorate.Proofs.Object.Identity
import Undecorate.Proofs.Object.Define
import Undecorate.Proofs.Object.Actions
import Undecorate.Proofs.Object.History
import Undecorate.Proofs.Object.Invariants
import Undecorate.Proofs.Object.Stored
import Undecorate.Proofs.Object.Standard
import Undecorate.Proofs.Object.Redefinition
import Undecorate.Proofs.Object.Failing
import Undecorate.Proofs.Realization.Bare
import Undecorate.Proofs.Realization.Watch
import Undecorate.Proofs.Realization.Decorations
import Undecorate.Proofs.Realization.Writes
import Undecorate.Proofs.Lookup
import Undecorate.Proofs.Scope.Requests
import Undecorate.Proofs.Emit.Outline
import Undecorate.Proofs.Emit.Forms
import Undecorate.Proofs.Classify.Groups
import Undecorate.Proofs.Emit.Hygiene
import Undecorate.Proofs.Emit.Header
import Undecorate.Proofs.Emit.Binding
import Undecorate.Proofs.Engine.Hygiene
import Undecorate.Proofs.Classify.Plans
import Undecorate.Proofs.Realization.Keys
import Undecorate.Proofs.Declaration.Written
import Undecorate.Proofs.Emit.Keys
import Undecorate.Proofs.Keys
import Undecorate.Proofs.Realization.Erasure
import Undecorate.Proofs.Realization.Calm
import Undecorate.Proofs.Realization.Undecorated
import Undecorate.Proofs.Realization.Traits
import Undecorate.Proofs.Realization.Initial
import Undecorate.Proofs.Stateful
import Undecorate.Proofs.Batch
import Undecorate.Proofs.Object.Displacement
import Undecorate.Proofs.Object.Moved
import Undecorate.Proofs.Object.Mirror
import Undecorate.Proofs.Realization.Mirror
import Undecorate.Proofs.Realization.Isolation
import Undecorate.Proofs.Text.Pieces
import Undecorate.Proofs.Files.Path
import Undecorate.Proofs.Files.Store
import Undecorate.Proofs.Declaration.Failures
import Undecorate.Proofs.Engine.Recoverable
import Undecorate.Proofs.Workspace
import Undecorate.Proofs.Text.Reflow
import Undecorate.Proofs.Layout
import Undecorate.Proofs.Emit.Preservation
import Undecorate.Proofs.Emit.Contents
import Undecorate.Proofs.Declaration.Contents
import Undecorate.Proofs.Source.Stretches
import Undecorate.Proofs.Source.Seams
import Undecorate.Proofs.Declaration.Spans
import Undecorate.Proofs.Engine.Templates
import Undecorate.Proofs.Classify.Sharing
import Undecorate.Proofs.Classify.Refusals
import Undecorate.Proofs.Classify.Structure
import Undecorate.Proofs.Chain.Failures
import Undecorate.Proofs.Text.Characters
import Undecorate.Proofs.Expression.Term
import Undecorate.Proofs.Expression.Scanning
import Undecorate.Proofs.Expression.Forms
import Undecorate.Proofs.Expression.Meaning
import Undecorate.Proofs.Json.Literal
import Undecorate.Proofs.Expression.Literals
import Undecorate.Proofs.Emit.KeyLiterals
import Undecorate.Proofs.Tree.Super
import Undecorate.Proofs.Engine.Super
import Undecorate.Proofs.Emit.Anonymous
import Undecorate.Proofs.Source.Tables
import Undecorate.Proofs.Fields
import Undecorate.Proofs.Json.Reader
import Undecorate.Proofs.Engine.Settings
import Undecorate.Proofs.Object.Lasting
import Undecorate.Proofs.Realization.Lasting
import Undecorate.Proofs.Realization.Inheritance
import Undecorate.Proofs.Json.Legible
import Undecorate.Proofs.Expression.Quotes
import Undecorate.Proofs.Expression.Sections
import Undecorate.Proofs.Expression.Splitting
import Undecorate.Proofs.Tree.Orders
import Undecorate.Proofs.Expression.Acceptance
