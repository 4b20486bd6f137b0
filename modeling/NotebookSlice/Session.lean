import NotebookSlice.Log.Slice
import NotebookSlice.Slice.Program

/-! # Sessions

A session records the executions of a notebook and gathers the program that
leads to the result of a cell.
-/

namespace NotebookSlice

open NotebookSlice.Flow

/-- A log and the form of the programs gathered from it. -/
structure Session where
  log : Log
  marker : String
  withHeader : Bool

namespace Session

def new (c : Configuration) (marker : String) (withHeader : Bool) : Session :=
  ⟨.empty c, marker, withHeader⟩

def configure (s : Session) (c : Configuration) : Session := { s with log := s.log.configure c }

def record (s : Session) (cell : Cell) (time : Value) (stack : Option Stack := none) :
    Except LogError (Session × Entry) :=
  (s.log.record cell time stack).map fun (log, entry) => ({ s with log := log }, entry)

/-- Was the cell's event recorded last with the text that it has now? -/
def isRecorded (s : Session) (cell : Cell) : Bool :=
  match s.log.find cell with
  | e :: _ => e.cell.text == cell.text
  | [] => false

/-- Takes note of a finished execution. Blank cells and repeated executions are skipped. -/
def post (s : Session) (cell : Cell) (now : Value) (stack : Option Stack := none) :
    Except LogError (Session × Option Entry) :=
  if Text.allBlank cell.text.toList || s.isRecorded cell then .ok (s, none)
  else (s.record cell now stack).map fun (s, entry) => (s, some entry)

def postAll (now : Value) (s : Session) (cells : List Cell) (stack : Option Stack := none) :
    Except LogError Session :=
  match cells with
  | [] => .ok s
  | cell :: cells => do
    let (s, _) ← s.post cell now stack
    postAll now s cells stack

/-- The union of all slices of a cell's execution event. -/
def gatherSlice (s : Session) (cell : Cell) (now : Value) :
    Except SliceError (Option SlicedExecution) :=
  match s.log.sliceAll cell none with
  | [] => .ok none
  | slices => (SlicedExecution.merge? now slices).map some

def header (s : Session) : String := if s.withHeader then Program.defaultHeader else ""

/-- The program that leads to a cell's result; empty if the cell was never executed. -/
def gatherCode (s : Session) (cell : Cell) (now : Value) : Except SliceError String := do
  match ← s.gatherSlice cell now with
  | none => return ""
  | some merged => Program.ofSlices s.marker s.header merged

end Session

end NotebookSlice
