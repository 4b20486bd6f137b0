import NotebookSlice.Slice.Execution

/-! # Slices as JSON

The object that stands for the slice of a cell in answers.
-/

namespace NotebookSlice

def LineRange.toValue (r : LineRange) : Value := .list [.int r.first, .int r.last]

namespace CellSlice

/-- The properties of a slice: whose it is, its ranges and its text. -/
def properties (s : CellSlice) : Except SliceError (List (String × Value)) :=
  match s.text? with
  | none => .error .lineOutOfRange
  | some text => .ok [("id", s.cell.id), ("execution_count", s.cell.count),
      ("execution_event_id", s.cell.event), ("persistent_id", s.cell.persistent),
      ("line_ranges", .list (s.ranges.map LineRange.toValue)), ("text", .text text)]

end CellSlice

namespace SlicedExecution

def cellValues (s : SlicedExecution) : Except SliceError (List Value) :=
  s.slices.mapM fun c => do return .object (← c.properties)

end SlicedExecution

end NotebookSlice
