import NotebookSlice.Syntax.Depth
import NotebookSlice.Syntax.Program

/-! # Stacks

Code is parsed and analysed by functions that call themselves for its parts. The
interpreter limits how many calls may be open at once.
-/

namespace NotebookSlice

open Syntax

/-- What a stack has room for: so many nested calls of the analysis, and the parser on a text. -/
structure Stack where
  calls : Nat
  parses : String → Bool

namespace Stack

/-- The calls that the interpreter allows by default, less those that are open when a notebook is
replayed from the command line. -/
def defaultCalls : Nat := 1000 - 8

/-- The default stack. The parser builds trees of three times that depth. -/
def default : Stack where
  calls := defaultCalls
  parses text :=
    match parse 1 text.toList with
    | .ok statements => 1 + depthStmts statements ≤ 3 * defaultCalls
    | .error _ => true

end Stack

end NotebookSlice
