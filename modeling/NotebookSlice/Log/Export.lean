import NotebookSlice.Log.Basic
import NotebookSlice.Value.Json

/-! # The exported graph

The dependency graph of a log with named nodes and printable attributes.
-/

namespace NotebookSlice

open NotebookSlice.Flow

/-- A statement in the exported graph. The names read and written are JSON lists. -/
structure ExportedNode where
  name : String
  cell : Value
  count : Value
  kind : String
  lines : String
  reads : String
  writes : String

structure ExportedEdge where
  source : String
  target : String
  type : String
  control : Bool
  label : String
  deriving DecidableEq, Repr

structure ExportedGraph where
  nodes : List ExportedNode
  edges : List ExportedEdge

namespace ExportedGraph

/-- The name of a node: its position and its index, with a colon between. -/
def nodeName (ref : Ref) : String := toString ref.1 ++ ":" ++ toString ref.2

def nameList (names : List String) : String :=
  Json.render (.list ((sortedTexts names).map Value.text))

def ofStatement (e : Entry) (s : Statement) : ExportedNode where
  name := nodeName (e.position, s.index)
  cell := e.cell.id
  count := e.cell.count
  kind := s.kind.name
  lines := toString s.first ++ "-" ++ toString s.last
  reads := nameList s.reads
  writes := nameList s.writes

/-- An edge that is there for control only is a control edge; all others are uses. -/
def ofEdge (e : Edge) : ExportedEdge where
  source := nodeName e.source
  target := nodeName e.target
  type := if e.control && e.symbols.isEmpty then "control" else "uses"
  control := e.control
  label := String.intercalate "," (sortedTexts e.symbols)

def ofLog (log : Log) : ExportedGraph where
  nodes := log.entries.flatMap fun e => e.statements.map (ofStatement e)
  edges := log.graph.edges.map ofEdge

end ExportedGraph

end NotebookSlice
