import NotebookSlice.Cell.Basic
import NotebookSlice.Cell.Chunk
import NotebookSlice.Cell.Code
import NotebookSlice.Cell.Stack
import NotebookSlice.CommandLine.Arguments
import NotebookSlice.CommandLine.Command
import NotebookSlice.CommandLine.Run
import NotebookSlice.Decimal.Layout
import NotebookSlice.Decimal.Read
import NotebookSlice.Decimal.Shortest
import NotebookSlice.Files
import NotebookSlice.Flow.Analysis
import NotebookSlice.Flow.Binding
import NotebookSlice.Flow.Builtin
import NotebookSlice.Flow.Frames
import NotebookSlice.Flow.Graph
import NotebookSlice.Flow.Names
import NotebookSlice.Flow.Statement
import NotebookSlice.Log.Basic
import NotebookSlice.Log.Export
import NotebookSlice.Log.GraphMl
import NotebookSlice.Log.Slice
import NotebookSlice.Main
import NotebookSlice.Notebook.Basic
import NotebookSlice.Notebook.History
import NotebookSlice.Proofs.Cell.Blanking
import NotebookSlice.Proofs.Cell.Chunks
import NotebookSlice.Proofs.Cell.Composition
import NotebookSlice.Proofs.Cell.Partition
import NotebookSlice.Proofs.Cell.Recovery
import NotebookSlice.Proofs.Flow.Accounts
import NotebookSlice.Proofs.Flow.Ancestors
import NotebookSlice.Proofs.Flow.Assumed
import NotebookSlice.Proofs.Flow.Definitions
import NotebookSlice.Proofs.Flow.Descent
import NotebookSlice.Proofs.Flow.EdgeLists
import NotebookSlice.Proofs.Flow.Edges
import NotebookSlice.Proofs.Flow.Forest
import NotebookSlice.Proofs.Flow.FreeNames
import NotebookSlice.Proofs.Flow.Grammar
import NotebookSlice.Proofs.Flow.Grounds
import NotebookSlice.Proofs.Flow.Growth
import NotebookSlice.Proofs.Flow.History
import NotebookSlice.Proofs.Flow.LastWriter
import NotebookSlice.Proofs.Flow.Lies
import NotebookSlice.Proofs.Flow.Limit
import NotebookSlice.Proofs.Flow.LineOrder
import NotebookSlice.Proofs.Flow.Markers
import NotebookSlice.Proofs.Flow.ModuleNames
import NotebookSlice.Proofs.Flow.Nodes
import NotebookSlice.Proofs.Flow.Override
import NotebookSlice.Proofs.Flow.OverridePaths
import NotebookSlice.Proofs.Flow.OverrideUnits
import NotebookSlice.Proofs.Flow.Parsed
import NotebookSlice.Proofs.Flow.ParsedTargets
import NotebookSlice.Proofs.Flow.Part
import NotebookSlice.Proofs.Flow.Proper
import NotebookSlice.Proofs.Flow.Reach
import NotebookSlice.Proofs.Flow.Replay
import NotebookSlice.Proofs.Flow.Scoping
import NotebookSlice.Proofs.Flow.Shown
import NotebookSlice.Proofs.Flow.StepEdges
import NotebookSlice.Proofs.Log.Acyclic
import NotebookSlice.Proofs.Log.Calls
import NotebookSlice.Proofs.Log.Closure
import NotebookSlice.Proofs.Log.Content
import NotebookSlice.Proofs.Log.Emitted
import NotebookSlice.Proofs.Log.Events
import NotebookSlice.Proofs.Log.Exported
import NotebookSlice.Proofs.Log.Failed
import NotebookSlice.Proofs.Log.InPlace
import NotebookSlice.Proofs.Log.Journal
import NotebookSlice.Proofs.Log.Legality
import NotebookSlice.Proofs.Log.Limited
import NotebookSlice.Proofs.Log.Merged
import NotebookSlice.Proofs.Log.Override
import NotebookSlice.Proofs.Log.OwnSlice
import NotebookSlice.Proofs.Log.Part
import NotebookSlice.Proofs.Log.Places
import NotebookSlice.Proofs.Log.Reachable
import NotebookSlice.Proofs.Log.Recording
import NotebookSlice.Proofs.Log.Regather
import NotebookSlice.Proofs.Log.Remainder
import NotebookSlice.Proofs.Log.Rounds
import NotebookSlice.Proofs.Log.Settled
import NotebookSlice.Proofs.Log.Shape
import NotebookSlice.Proofs.Log.Slices
import NotebookSlice.Proofs.Log.Unmerged
import NotebookSlice.Proofs.Notebook.Executed
import NotebookSlice.Proofs.Notebook.Format
import NotebookSlice.Proofs.Notebook.Replay
import NotebookSlice.Proofs.Pairs
import NotebookSlice.Proofs.Server.Isolation
import NotebookSlice.Proofs.Server.Retry
import NotebookSlice.Proofs.Server.Table
import NotebookSlice.Proofs.Slice.Canonical
import NotebookSlice.Proofs.Slice.Kept
import NotebookSlice.Proofs.Slice.LineRange
import NotebookSlice.Proofs.Slice.NormalRanges
import NotebookSlice.Proofs.Slice.ProgramText
import NotebookSlice.Proofs.Slice.SliceText
import NotebookSlice.Proofs.Slice.StableSort
import NotebookSlice.Proofs.Slice.Union
import NotebookSlice.Proofs.Slice.Whole
import NotebookSlice.Proofs.Syntax.Agree
import NotebookSlice.Proofs.Syntax.Alike
import NotebookSlice.Proofs.Syntax.Decorators
import NotebookSlice.Proofs.Syntax.Extent.Beginning
import NotebookSlice.Proofs.Syntax.Extent.Contract
import NotebookSlice.Proofs.Syntax.Extent.Expression
import NotebookSlice.Proofs.Syntax.Extent.Inline
import NotebookSlice.Proofs.Syntax.Extent.Laid
import NotebookSlice.Proofs.Syntax.Extent.Leads
import NotebookSlice.Proofs.Syntax.Extent.Simple
import NotebookSlice.Proofs.Syntax.Frame
import NotebookSlice.Proofs.Syntax.Grammar.Compound
import NotebookSlice.Proofs.Syntax.Grammar.Expression
import NotebookSlice.Proofs.Syntax.Grammar.Parameter
import NotebookSlice.Proofs.Syntax.Grammar.Pattern
import NotebookSlice.Proofs.Syntax.Grammar.Simple
import NotebookSlice.Proofs.Syntax.Grammar.Target
import NotebookSlice.Proofs.Syntax.Lexing.Layout
import NotebookSlice.Proofs.Syntax.Lexing.LineStart
import NotebookSlice.Proofs.Syntax.Lexing.Order
import NotebookSlice.Proofs.Syntax.Lexing.Reads
import NotebookSlice.Proofs.Syntax.Lexing.Run
import NotebookSlice.Proofs.Syntax.Lexing.Scanner
import NotebookSlice.Proofs.Syntax.Lexing.Sequence
import NotebookSlice.Proofs.Syntax.Lexing.Step
import NotebookSlice.Proofs.Syntax.Lexing.Thin
import NotebookSlice.Proofs.Syntax.Lexing.Unread
import NotebookSlice.Proofs.Syntax.Program
import NotebookSlice.Proofs.Syntax.Sequence
import NotebookSlice.Proofs.Syntax.StringLiteral
import NotebookSlice.Proofs.Syntax.Thinning
import NotebookSlice.Proofs.Text.Lines
import NotebookSlice.Proofs.Text.Returns
import NotebookSlice.Proofs.Value.Same
import NotebookSlice.Rule
import NotebookSlice.RuleFile
import NotebookSlice.Server.Address
import NotebookSlice.Server.Handler
import NotebookSlice.Server.Settings
import NotebookSlice.Session
import NotebookSlice.Slice.CellSlice
import NotebookSlice.Slice.Execution
import NotebookSlice.Slice.LineRange
import NotebookSlice.Slice.Program
import NotebookSlice.Slice.Report
import NotebookSlice.Syntax.Depth
import NotebookSlice.Syntax.Grammar.Compound
import NotebookSlice.Syntax.Grammar.Expression
import NotebookSlice.Syntax.Grammar.Parameter
import NotebookSlice.Syntax.Grammar.Pattern
import NotebookSlice.Syntax.Grammar.Simple
import NotebookSlice.Syntax.Grammar.Target
import NotebookSlice.Syntax.Legal
import NotebookSlice.Syntax.Lexer
import NotebookSlice.Syntax.Number
import NotebookSlice.Syntax.Parser
import NotebookSlice.Syntax.Program
import NotebookSlice.Syntax.StringLiteral
import NotebookSlice.Syntax.Token
import NotebookSlice.Syntax.Tree
import NotebookSlice.Text.Blank
import NotebookSlice.Text.CodeMap
import NotebookSlice.Text.CodeRanges
import NotebookSlice.Text.Composition
import NotebookSlice.Text.Decomposition
import NotebookSlice.Text.Identifier
import NotebookSlice.Text.Integer
import NotebookSlice.Text.Lines
import NotebookSlice.Text.Normal
import NotebookSlice.Text.Printable
import NotebookSlice.Text.Quoted
import NotebookSlice.Text.Upper
import NotebookSlice.Value.Basic
import NotebookSlice.Value.Json
import NotebookSlice.Value.Order
import NotebookSlice.Value.Show
import NotebookSlice.Yaml.Document
import NotebookSlice.Yaml.Node
import NotebookSlice.Yaml.Scalar
import NotebookSlice.Yaml.Scanner
import NotebookSlice.Yaml.Token
