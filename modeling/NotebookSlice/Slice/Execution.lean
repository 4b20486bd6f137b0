import NotebookSlice.Slice.CellSlice

/-! # Sliced executions

The slices of several cells in the order of their execution counts, and the
union of such slices.
-/

namespace NotebookSlice

structure SlicedExecution where
  time : Value
  slices : List CellSlice

inductive SliceError
  /-- there is nothing to merge -/
  | nothing
  /-- some execution counts have no order -/
  | unorderedCounts
  /-- an event id is no key -/
  | eventNoKey
  /-- a line number counts back beyond the first line -/
  | lineOutOfRange
  deriving DecidableEq, Repr

namespace SliceError

def message? : SliceError → Option String
  | nothing => some "merge_slices requires at least one SlicedExecution"
  | _ => none

end SliceError

namespace SlicedExecution

def countLE (a b : CellSlice) : Bool := a.cell.count.rank.le b.cell.count.rank

/-- Sorts slices by count; equal counts keep their order. -/
def ofSlices (time : Value) (slices : List CellSlice) : SlicedExecution :=
  ⟨time, slices.mergeSort countLE⟩

/-- Have all counts an order among each other? A single slice needs none. -/
def areOrdered : List CellSlice → Bool
  | [] | [_] => true
  | s :: rest => rest.all fun t => s.cell.count.rank.comparable t.cell.count.rank

def ofSlices? (time : Value) (slices : List CellSlice) : Except SliceError SlicedExecution :=
  if areOrdered slices then .ok (ofSlices time slices) else .error .unorderedCounts

/-- A slice and the ranges of all slices of its event so far. -/
abbrev Group := CellSlice × List LineRange

def addToGroups (s : CellSlice) : List Group → List Group
  | [] => [(s, s.ranges)]
  | (first, ranges) :: rest =>
    if first.cell.event.same s.cell.event then (first, ranges ++ s.ranges) :: rest
    else (first, ranges) :: addToGroups s rest

/-- One slice for each event, in the order of their first slices. -/
def grouped (slices : List CellSlice) : List CellSlice :=
  (slices.foldl (fun groups s => addToGroups s groups) []).map fun (first, ranges) =>
    CellSlice.ofRanges first.cell ranges first.time

/-- The union of slices: each event has the lines of all its slices, and the cell of the first. -/
def merge (now : Value) (all : List SlicedExecution) : SlicedExecution :=
  ofSlices now (grouped (all.flatMap (·.slices)))

/-- The union of slices, if there are some that can be put together. -/
def merge? (now : Value) (all : List SlicedExecution) : Except SliceError SlicedExecution :=
  let slices := all.flatMap (·.slices)
  if all.isEmpty then .error .nothing
  else if !slices.all (·.cell.event.isKey) then .error .eventNoKey
  else ofSlices? now (grouped slices)

def shown (s : SlicedExecution) : String :=
  "SlicedExecution(cells=" ++ Text.bracketed (s.slices.map (·.cell.count.shown)) ++ ")"

end SlicedExecution

end NotebookSlice
