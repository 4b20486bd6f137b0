import NotebookSlice.Text.Blank
import NotebookSlice.Text.Lines

/-! # Chunks

A cell is cut into chunks at the lines where a top-level statement seems to
start, so that faulty code spoils its own chunk only. Lines for the notebook
itself, which begin with `%`, `!` or `?`, are blanked beforehand.
-/

namespace NotebookSlice

open Text

/-- Is the line for the notebook and not for the interpreter? -/
def isMagic (line : String) : Bool :=
  match trimStart line.toList with
  | '%' :: _ | '!' :: _ | '?' :: _ => true
  | _ => false

/-- The text with the notebook's own lines blanked. -/
def blankMagic (source : String) : String :=
  unlines ((lines source).map fun l => if isMagic l then "" else l)

/-- Consecutive lines of a cell, with the number of the first one. -/
structure Chunk where
  line : Nat
  lines : List String
  deriving DecidableEq, Repr

namespace Chunk

def text (c : Chunk) : String := unlines c.lines

/-- The line that stands for the chunk in a diagnostic. -/
def heading (c : Chunk) : String := c.lines.head?.getD ""

/-- Words that continue the statement above when they begin a line. -/
def continuationWords : List String := ["else", "elif", "except", "finally", "case"]

/-- Does the line, without its last blanks, end in a way that the next one belongs to it? -/
def continues (line : List Char) : Bool :=
  (match (trimEnd line).getLast? with
    | some c => c == '\\' || c == ',' || c == '(' || c == '[' || c == '{'
    | none => false) ||
  (trim line).head? == some '@'

/-- Does a line start a chunk, after the given line of code? -/
def starts (line : String) (previous : Option String) : Bool :=
  let cs := line.toList
  match cs with
  | [] => false
  | c :: _ =>
    if allBlank cs || c == ' ' || c == '\t' || c == '#' then false
    else
      let word := ((firstWord cs).reverse.dropWhile (· == ':')).reverse
      if continuationWords.contains (String.ofList word) then false
      else if c == ')' || c == ']' || c == '}' then false
      else match previous with
        | some p => !continues p.toList
        | none => true

/-- Is the line code, and neither blank nor a comment? -/
def isCode (line : String) : Bool :=
  match trimStart line.toList with
  | [] => false
  | c :: _ => c != '#'

/-- The lines that still belong to the chunk above, and the chunks after them. -/
def cut : (line : Nat) → (previous : Option String) → List String → List String × List Chunk
  | _, _, [] => ([], [])
  | n, previous, l :: ls =>
    let (rest, chunks) := cut (n + 1) (if isCode l then some l else previous) ls
    if starts l previous then ([], ⟨n, l :: rest⟩ :: chunks) else (l :: rest, chunks)

def ofText (source : String) : List Chunk :=
  match Text.lines source with
  | [] => []
  | l :: ls =>
    let (rest, chunks) := cut 2 (if isCode l then some l else none) ls
    ⟨1, l :: rest⟩ :: chunks

end Chunk

end NotebookSlice
