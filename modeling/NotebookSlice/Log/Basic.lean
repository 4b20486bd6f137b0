import NotebookSlice.Cell.Basic
import NotebookSlice.Flow.Analysis
import NotebookSlice.Flow.Graph

/-! # The execution log

What was executed, in order, with the statements of each execution and the graph
of their dependencies. An execution is analysed once, when it is recorded, under
the configuration of that moment.
-/

namespace NotebookSlice

open NotebookSlice.Flow

structure Entry where
  position : Nat
  cell : Cell
  analysis : Analysis
  time : Value
  configuration : Configuration

namespace Entry

def statements (e : Entry) : List Statement := e.analysis.statements

def diagnostics (e : Entry) : List Diagnostic := e.analysis.diagnostics

/-- The statements of an entry as nodes of the graph. -/
def refs (e : Entry) : List Ref := e.statements.map fun s => (e.position, s.index)

def shown (e : Entry) : String :=
  "LoggedExecution(position=" ++ toString e.position ++ ", cell=" ++ e.cell.shown ++ ")"

end Entry

/-- The entries, oldest first, their graph, and the configuration for the next one. -/
structure Log where
  entries : List Entry
  graph : Graph
  configuration : Configuration

inductive LogError
  | noCount (id : Value)
  | countNotAfter (count id last : Value)
  | eventReused (event : Value)
  | code (e : CodeError)

namespace LogError

def message : LogError → String
  | noCount id => "cell " ++ id.shown ++ " has no integer execution count"
  | countNotAfter count id last =>
    "execution count " ++ count.toText ++ " of cell " ++ id.shown ++
      " does not follow the last logged count " ++ last.toText
  | eventReused event =>
    "execution event " ++ event.shown ++ " was already logged with different text"
  | code e => e.message

end LogError

namespace Log

def empty (c : Configuration) : Log := ⟨[], .empty, c⟩

def configure (log : Log) (c : Configuration) : Log := { log with configuration := c }

/-- The entries of a cell's execution event, newest first. -/
def find (log : Log) (cell : Cell) : List Entry :=
  (log.entries.filter fun e => e.cell.event.same cell.event).reverse

/-- Does the count come after the count of the last entry? -/
def follows (log : Log) (count : Int) : Bool :=
  match log.entries.getLast? with
  | none => true
  | some e => match e.cell.count.integer? with
    | none => true
    | some last => decide (last < count)

/-- Why a cell cannot be recorded now, if so: its count is no integer or does not increase, or its
event was recorded with another text. -/
def refusal? (log : Log) (cell : Cell) : Option LogError :=
  match cell.count.integer? with
  | none => some (.noCount cell.id)
  | some count =>
    if !log.follows count then
      let last := (log.entries.getLast?.map (·.cell.count)).getD .null
      some (.countNotAfter cell.count cell.id last)
    else match log.find cell with
      | e :: _ => if e.cell.text = cell.text then none else some (.eventReused cell.event)
      | [] => none

def append (log : Log) (cell : Cell) (analysis : Analysis) (time : Value) : Log × Entry :=
  let entry : Entry := ⟨log.entries.length, cell, analysis, time, log.configuration⟩
  ({ log with
      entries := log.entries ++ [entry]
      graph := log.graph.addExecution entry.position analysis.statements (!cell.hasFailed) },
    entry)

def record (log : Log) (cell : Cell) (time : Value) (stack : Option Stack := none) :
    Except LogError (Log × Entry) :=
  match log.refusal? cell with
  | some e => .error e
  | none =>
    match analyzeCell log.configuration cell.text stack with
    | .error e => .error (.code e)
    | .ok analysis => .ok (log.append cell analysis time)

def statement? (log : Log) (ref : Ref) : Option Statement :=
  (log.entries[ref.1]?).bind fun e => e.statements[ref.2]?

end Log

end NotebookSlice
