import NotebookSlice.Cell.Basic
import NotebookSlice.Slice.LineRange

/-! # Cell slices

The lines of one executed cell that belong to a slice.
-/

namespace NotebookSlice

/-- Some lines of a cell, and when the cell was executed. The ranges are in normal form. -/
structure CellSlice where
  cell : Cell
  ranges : List LineRange
  time : Value

namespace CellSlice

def ofRanges (cell : Cell) (ranges : List LineRange) (time : Value) : CellSlice :=
  ⟨cell, LineRange.normalize ranges, time⟩

def lineNumbers (s : CellSlice) : List Int := s.ranges.flatMap LineRange.lines

/-- The line of a number. Numbers from zero down count from the last line back. -/
def line? (lines : List String) (n : Int) : Option String :=
  if 1 ≤ n then lines[(n - 1).toNat]?
  else if 0 ≤ n - 1 + lines.length then lines[(n - 1 + lines.length).toNat]?
  else none

/-- The lines of the slice. Numbers after the last line are passed over; there are no lines if a
number counts back beyond the first one. -/
def lines? (s : CellSlice) : Option (List String) :=
  (s.lineNumbers.filter fun (n : Int) => n ≤ s.cell.lines.length).mapM (line? s.cell.lines)

def text? (s : CellSlice) : Option String := s.lines?.map Text.unlines

def shown (s : CellSlice) : String :=
  "CellSlice(cell=" ++ s.cell.shown ++ ", line_ranges=" ++ LineRange.shownAll s.ranges ++ ")"

end CellSlice

end NotebookSlice
