import NotebookSlice.Log.Basic
import NotebookSlice.Slice.Execution

/-! # Slices of the log

The statements that an execution needs, and the lines that they stand on.
-/

namespace NotebookSlice.Log

open NotebookSlice.Flow

/-- The whole blocks of those headers and clauses of which no statement is included. -/
def missing (log : Log) (included : List Ref) : List Ref :=
  included.flatMap fun ref =>
    match log.statement? ref with
    | none => []
    | some s =>
      let block := s.body.map fun i => (ref.1, i)
      if block.any fun r => included.contains r then [] else block

/-- Adds missing blocks and what they depend on until none is missing. -/
def complete (log : Log) : (rounds : Nat) → List Ref → List Ref
  | 0, included => included
  | rounds + 1, included =>
    let missing := log.missing included
    if missing.isEmpty then included
    else
      let more := (log.graph.dependencies missing).filter fun r => !included.contains r
      log.complete rounds (included ++ more)

def size (log : Log) : Nat := (log.entries.flatMap Entry.statements).length

/-- The statements that an entry needs. A header does not stand alone: its whole block comes with
it if nothing else of the block is needed. Each round but the last adds a statement. -/
def closure (log : Log) (entry : Entry) : List Ref :=
  log.complete log.size (log.graph.dependencies entry.refs)

def rangeOf (s : Statement) : LineRange := ⟨s.first, s.last⟩

/-- The lines of the included statements of an entry. -/
def rangesIn (log : Log) (included : List Ref) (e : Entry) : List LineRange :=
  (included.filter (·.1 = e.position)).filterMap fun r => (log.statement? r).map rangeOf

/-- The slice of an entry's cell, if any of its statements is included. -/
def cellSlice? (log : Log) (included : List Ref) (e : Entry) : Option CellSlice :=
  match log.rangesIn included e with
  | [] => none
  | ranges => some (CellSlice.ofRanges e.cell ranges e.time)

/-- The slice of an entry: the lines of all statements that it needs. -/
def sliceEntry (log : Log) (entry : Entry) : SlicedExecution :=
  SlicedExecution.ofSlices entry.time (log.entries.filterMap (log.cellSlice? (log.closure entry)))

/-- The slices of a cell's execution event, newest first, at most `limit` of them. Entries without
any code have none. -/
def sliceAll (log : Log) (cell : Cell) (limit : Option Int) : List SlicedExecution :=
  let all := ((log.find cell).map log.sliceEntry).filter fun s => !s.slices.isEmpty
  match limit with
  | none => all
  | some n => all.take n.toNat

def sliceLatest (log : Log) (cell : Cell) : Option SlicedExecution :=
  (log.sliceAll cell (some 1)).head?

end NotebookSlice.Log
