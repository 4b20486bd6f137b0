import NotebookSlice.Flow.Statement

/-! # The dependency graph

Which statement of the log depends on which. A statement depends on the last
writer of every name it reads, and on the header or clause that governs it.
-/

namespace NotebookSlice.Flow

/-- A statement of the log: the position of its execution, and its index there. -/
abbrev Ref := Nat × Nat

/-- The target depends on the source: it reads the symbols that the source wrote, and, with
`control`, the source governs it. -/
structure Edge where
  source : Ref
  target : Ref
  symbols : List String
  control : Bool
  deriving DecidableEq, Repr

inductive Reason
  | reads (name : String)
  | governed
  deriving DecidableEq, Repr

namespace Edge

def add (e : Edge) : Reason → Edge
  | .reads name => { e with symbols := e.symbols.insert name }
  | .governed => { e with control := true }

def isBetween (e : Edge) (source target : Ref) : Bool := e.source == source && e.target == target

end Edge

/-- The statements so far, their dependencies, and the last writer of each name. -/
structure Graph where
  nodes : List Ref
  edges : List Edge
  writers : List (String × Ref)
  deriving DecidableEq, Repr

namespace Graph

def empty : Graph := ⟨[], [], []⟩

def addNode (g : Graph) (ref : Ref) : Graph :=
  if g.nodes.contains ref then g else { g with nodes := g.nodes ++ [ref] }

/-- Notes a reason on the edge between two statements; makes the edge if there is none. -/
def addReason (source target : Ref) (reason : Reason) : List Edge → List Edge
  | [] => [Edge.add ⟨source, target, [], false⟩ reason]
  | e :: es =>
    if e.isBetween source target then e.add reason :: es
    else e :: addReason source target reason es

def link (g : Graph) (source target : Ref) (reason : Reason) : Graph :=
  let g := (g.addNode source).addNode target
  { g with edges := addReason source target reason g.edges }

def writer? (g : Graph) (name : String) : Option Ref := g.writers.lookup name

/-- Makes a statement depend on the last writer of a name, unless it is that itself. -/
def linkRead (ref : Ref) (g : Graph) (name : String) : Graph :=
  match g.writer? name with
  | some source => if source = ref then g else g.link source ref (.reads name)
  | none => g

def setWriter (ref : Ref) (g : Graph) (name : String) : Graph :=
  { g with writers := (name, ref) :: g.writers.filter (·.1 != name) }

/-- Adds a statement. One that does not define anything never becomes a writer. -/
def addStatement (position : Nat) (defines : Bool) (g : Graph) (s : Statement) : Graph :=
  let ref := (position, s.index)
  let g := g.addNode ref
  let g := match s.parent with
    | some parent => g.link (position, parent) ref .governed
    | none => g
  let g := s.reads.foldl (linkRead ref) g
  if defines then s.writes.foldl (setWriter ref) g else g

def addExecution (g : Graph) (position : Nat) (statements : List Statement) (defines : Bool) :
    Graph :=
  statements.foldl (addStatement position defines) g

def edgesInto (g : Graph) (ref : Ref) : List Edge := g.edges.filter (·.target == ref)

/-- The edges that end at the statements of an execution. -/
def edgesOf (g : Graph) (position : Nat) (statements : List Statement) : List Edge :=
  statements.flatMap fun s => g.edgesInto (position, s.index)

/-- The statements that some of the given ones depend on directly. -/
def sourcesOf (g : Graph) (refs : List Ref) : List Ref :=
  (g.edges.filter fun e => refs.contains e.target).map Edge.source

/-- Adds to `seen` what the statements of `fresh` depend on, in a bounded number of rounds. -/
def reach (g : Graph) : (rounds : Nat) → (fresh seen : List Ref) → List Ref
  | 0, _, seen => seen
  | rounds + 1, fresh, seen =>
    let found := ((g.sourcesOf fresh).filter fun r => !seen.contains r).eraseDups
    if found.isEmpty then seen else g.reach rounds found (seen ++ found)

/-- The given statements, as far as they are in the graph, and all that they depend on. Each round
but the last finds a new statement, so there are no more rounds than statements. -/
def dependencies (g : Graph) (refs : List Ref) : List Ref :=
  let seeds := (refs.filter fun r => g.nodes.contains r).eraseDups
  g.reach g.nodes.length seeds seeds

end Graph

end NotebookSlice.Flow
