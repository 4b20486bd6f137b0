import NotebookSlice.Slice.Execution

/-! # Program text

A slice as a program: a header, and the cells after marker lines.
-/

namespace NotebookSlice.Program

def defaultMarker : String := "# %%"

def defaultHeader : String :=
  "# This file contains only the code required to produce the results of the gathered cell."

/-- The header's part of a program: none if it is empty. -/
def headerPart (header : String) : List String := if header.isEmpty then [] else [header ++ "\n"]

def cellPart (marker text : String) : String := marker ++ "\n" ++ text ++ "\n"

def ofTexts (marker header : String) (texts : List String) : String :=
  Text.unlines (headerPart header ++ texts.map (cellPart marker))

def texts? (s : SlicedExecution) : Option (List String) := s.slices.mapM CellSlice.text?

def ofSlices (marker header : String) (s : SlicedExecution) : Except SliceError String :=
  match texts? s with
  | some texts => .ok (ofTexts marker header texts)
  | none => .error .lineOutOfRange

end NotebookSlice.Program
