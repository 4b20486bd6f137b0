import NotebookSlice.Flow.Frames

/-! # Analysis of a cell

The units of a cell's text. A stack with a limit does not suffice for code that
nests too deep.
-/

namespace NotebookSlice.Flow

/-- The units of a cell, and the diagnostics of what could not be parsed. -/
structure Analysis where
  statements : List Statement
  diagnostics : List Diagnostic
  deriving DecidableEq, Repr

def analyzeCell (c : Configuration) (source : String) (stack : Option Stack := none) :
    Except CodeError Analysis := do
  let code ← Code.ofText source stack
  let calls := nestedBlock (some (Text.lines source)) code.statements
  if stack.all (calls ≤ ·.calls) then
    return ⟨analyze c code.statements (some source), code.diagnostics⟩
  else throw .tooDeep

end NotebookSlice.Flow
