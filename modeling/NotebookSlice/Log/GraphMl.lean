import NotebookSlice.Log.Export

/-! # GraphML

The exported graph as a GraphML document. Every attribute is declared once, with
its type, and nodes and edges refer to the declarations.
-/

namespace NotebookSlice.GraphMl

/-- An attribute: what it belongs to, its name and its type. -/
structure Attribute where
  owner : String
  name : String
  type : String
  deriving DecidableEq, Repr

/-- The attributes of nodes, in the order in which they are written. -/
def nodeAttributes : List Attribute :=
  [⟨"node", "cell", "string"⟩, ⟨"node", "execution_count", "long"⟩, ⟨"node", "kind", "string"⟩,
    ⟨"node", "lines", "string"⟩, ⟨"node", "reads", "string"⟩, ⟨"node", "writes", "string"⟩]

/-- The attributes of edges, in the order in which they are written. -/
def edgeAttributes : List Attribute :=
  [⟨"edge", "type", "string"⟩, ⟨"edge", "control", "boolean"⟩, ⟨"edge", "label", "string"⟩]

/-- A character in the content of an element or in a quoted value. -/
def escapedChar : Char → List Char
  | '&' => "&amp;".toList
  | '<' => "&lt;".toList
  | '>' => "&gt;".toList
  | '"' => "&quot;".toList
  | '\r' => "&#13;".toList
  | c => [c]

def escaped (s : String) : String := String.ofList (s.toList.flatMap escapedChar)

def key (index : Nat) : String := "d" ++ toString index

def declaration (a : Attribute) (index : Nat) : String :=
  "  <key id=\"" ++ key index ++ "\" for=\"" ++ a.owner ++ "\" attr.name=\"" ++ a.name ++
    "\" attr.type=\"" ++ a.type ++ "\" />\n"

/-- Values of attributes whose declarations have keys from `first` on. -/
def valueLines (first : Nat) (values : List String) : String :=
  String.join (values.mapIdx fun i v =>
    "      <data key=\"" ++ key (first + i) ++ "\">" ++ escaped v ++ "</data>\n")

def nodeText (n : ExportedNode) : String :=
  "    <node id=\"" ++ escaped n.name ++ "\">\n" ++
    valueLines 0 [n.cell.toText, n.count.toText, n.kind, n.lines, n.reads, n.writes] ++
    "    </node>\n"

def edgeText (e : ExportedEdge) : String :=
  "    <edge source=\"" ++ escaped e.source ++ "\" target=\"" ++ escaped e.target ++ "\">\n" ++
    valueLines nodeAttributes.length [e.type, if e.control then "true" else "false", e.label] ++
    "    </edge>\n"

def document (g : ExportedGraph) : String :=
  "<?xml version=\"1.0\" encoding=\"utf-8\"?>\n" ++
    "<graphml>\n" ++
    String.join ((nodeAttributes ++ edgeAttributes).mapIdx fun i a => declaration a i) ++
    "  <graph edgedefault=\"directed\">\n" ++
    String.join (g.nodes.map nodeText) ++
    String.join (g.edges.map edgeText) ++
    "  </graph>\n</graphml>\n"

end NotebookSlice.GraphMl
