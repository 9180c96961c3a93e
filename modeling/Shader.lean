import Shader.Access.Atomic
import Shader.Access.Image
import Shader.Access.Reachable
import Shader.Access.Variable
import Shader.Bisect
import Shader.Catalog
import Shader.Decimal.Float
import Shader.Decimal.Shortest
import Shader.Decoration.Kind
import Shader.Decoration.Set
import Shader.Decoration.Table
import Shader.Draft
import Shader.Draft.Declare
import Shader.Draft.Error
import Shader.Draft.Guard
import Shader.Draft.Position
import Shader.Draft.Split
import Shader.Draft.Statement
import Shader.EntryPoint
import Shader.Enumerant
import Shader.ExecutionMode.Kind
import Shader.ExecutionMode.Set
import Shader.Findings
import Shader.Flags
import Shader.Instrument.BufferAddress
import Shader.Instrument.Check
import Shader.Instrument.DescriptorIndexing
import Shader.Instrument.Link
import Shader.Instrument.Pipeline
import Shader.Instrument.RayQuery
import Shader.Instrument.Settings
import Shader.Instrument.Workspace
import Shader.Interface.Resource
import Shader.Interface.Slot
import Shader.Interface.Stage
import Shader.Listing
import Shader.Module
import Shader.Note
import Shader.Op
import Shader.Op.Family
import Shader.Op.Shape
import Shader.Registry
import Shader.Search
import Shader.Stream.Binary
import Shader.Stream.Error
import Shader.Stream.Header
import Shader.Stream.Instruction
import Shader.Text.Literal
import Shader.Text.Quoted
import Shader.Text.Unprintable
import Shader.Text.Utf8
import Shader.Type.Numeric
import Shader.Type.Shape
import Shader.Type.Struct
import Shader.Word
import Shader.Proofs.Draft.Definition
import Shader.Proofs.Draft.Form
import Shader.Proofs.Effect
import Shader.Proofs.Draft.Ledger
import Shader.Proofs.Draft.Edit
import Shader.Proofs.Instrument.Check
import Shader.Proofs.Draft.Written
import Shader.Proofs.Draft.Split
import Shader.Proofs.Draft.Readback
import Shader.Proofs.Link.Renaming
import Shader.Proofs.Link.Invariant
import Shader.Proofs.Link.Statement
import Shader.Proofs.Link.Helper
import Shader.Proofs.Link.Module
import Shader.Proofs.Link.Correct
import Shader.Proofs.Instrument.Pipeline
import Shader.Proofs.Execution.Machine
import Shader.Proofs.Execution.Trace
import Shader.Proofs.Execution.Split
import Shader.Proofs.Execution.Guard
import Shader.Proofs.Execution.Simulation
import Shader.Proofs.Execution.Correct
import Shader.Proofs.Stream.Grammar
import Shader.Proofs.Draft.Layout
import Shader.Proofs.Instrument.Code
import Shader.Proofs.Instrument.Visit
import Shader.Proofs.Instrument.Failure
import Shader.Proofs.Instrument.Piece
import Shader.Proofs.Instrument.Descriptor
import Shader.Proofs.Instrument.Frame
import Shader.Proofs.Instrument.Loop
import Shader.Proofs.Instrument.Coverage
import Shader.Proofs.Instrument.Traversal
import Shader.Proofs.Instrument.Limit
import Shader.Proofs.Analysis.Reading
import Shader.Proofs.Analysis.Acceptance
import Shader.Proofs.Analysis.Body
import Shader.Proofs.Analysis.Rendered
import Shader.Proofs.Draft.Stable
import Shader.Proofs.Search
import Shader.Proofs.Analysis.Reachable
import Shader.Proofs.Analysis.Bounds
import Shader.Proofs.Execution.Phi
import Shader.Proofs.Instrument.Requests
import Shader.Proofs.Analysis.Analysed
import Shader.Proofs.Analysis.Resource
import Shader.Proofs.Instrument.Indices
import Shader.Proofs.Access.Argument
import Shader.Proofs.Access.Variable
import Shader.Proofs.Access.Member
import Shader.Proofs.Access.Finds
import Shader.Proofs.Access.Walk
import Shader.Proofs.Access.Image
import Shader.Proofs.Access.Reached
import Shader.Proofs.Analysis.ByteOrder
import Shader.Proofs.Decoration.Table
import Shader.Proofs.Decoration.Order
import Shader.Proofs.Decoration.Alike
import Shader.Proofs.Decoration.Reannotated
import Shader.Proofs.Link.Decorations
import Shader.Proofs.Instrument.Callees
import Shader.Proofs.Type.Shape
import Shader.Proofs.Type.Size
import Shader.Proofs.Type.Layout
import Shader.Proofs.Interface.Slot
import Shader.Proofs.Decoration.Reuse
import Shader.Proofs.Draft.Declared
import Shader.Proofs.Link.Declared
import Shader.Proofs.Instrument.Declared
import Shader.Proofs.Text.Utf8
import Shader.Proofs.Text.Literal
import Shader.Proofs.Interface.Listed
import Shader.Proofs.Stream.Violation
import Shader.Proofs.Type.Exact
import Shader.Proofs.Type.Range
import Shader.Proofs.Analysis.Lookup
import Shader.Proofs.Access.Nesting
import Shader.Proofs.Draft.Global
import Shader.Proofs.Link.Named
