import NotebookSlice.Cell.Chunk
import NotebookSlice.Cell.Stack
import NotebookSlice.Value.Show

/-! # The code of a cell

The statements of a cell and the diagnostics of what could not be parsed. A cell
that is faulty as a whole is parsed chunk by chunk.
-/

namespace NotebookSlice

open Syntax

/-- A chunk that could not be parsed: the line of the fault and the chunk's first line. -/
structure Diagnostic where
  line : Nat
  text : String
  deriving DecidableEq, Repr

def Diagnostic.shown (line message : Value) : String :=
  "ParseDiagnostic(line=" ++ line.toText ++ ", message=" ++ message.shown ++ ")"

/-- The statements of a cell, in order, with what could not be parsed. -/
structure Code where
  statements : List Stmt
  diagnostics : List Diagnostic

inductive CodeError
  /-- the code holds a null character, which interpreters up to 3.11.3 refuse in this way -/
  | nullCharacter
  /-- the code nests deeper than the stack allows -/
  | tooDeep
  deriving DecidableEq, Repr

namespace CodeError

def message : CodeError → String
  | nullCharacter => "source code string cannot contain null bytes"
  | tooDeep => "maximum recursion depth exceeded"

end CodeError

namespace Code

def ofChunk (c : Chunk) : Code :=
  match parse c.line c.text.toList with
  | .ok statements => ⟨statements, []⟩
  | .error line => ⟨[], [⟨line, c.heading⟩]⟩

def append (a b : Code) : Code := ⟨a.statements ++ b.statements, a.diagnostics ++ b.diagnostics⟩

/-- The code of a text without lines of the notebook's own. -/
def ofPlain (cleaned : String) : Code :=
  match parse 1 cleaned.toList with
  | .ok statements => ⟨statements, []⟩
  | .error _ => ((Chunk.ofText cleaned).map ofChunk).foldr append ⟨[], []⟩

/-- The texts that are parsed for a text without lines of the notebook's own. -/
def parsedTexts (cleaned : String) : List String :=
  match parse 1 cleaned.toList with
  | .ok _ => [cleaned]
  | .error _ => cleaned :: (Chunk.ofText cleaned).map Chunk.text

def ofText (source : String) (stack : Option Stack := none) : Except CodeError Code :=
  let cleaned := blankMagic source
  if cleaned.toList.contains '\x00' then .error .nullCharacter
  else if stack.all ((parsedTexts cleaned).all ·.parses) then .ok (ofPlain cleaned)
  else .error .tooDeep

end Code

end NotebookSlice
