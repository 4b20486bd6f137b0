/-! # Lines

A text is a list of lines separated by line feeds; `join` and `split` are
inverse to each other on lists of lines that hold no line feed.
-/

namespace NotebookSlice.Text

/-- The pieces of `s` between the occurrences of `sep`; there is always at least one. -/
def splitAt (sep : Char) : List Char → List (List Char)
  | [] => [[]]
  | c :: cs =>
    if c = sep then [] :: splitAt sep cs
    else match splitAt sep cs with
      | [] => [[c]]
      | piece :: pieces => (c :: piece) :: pieces

/-- The lines of a text, without their line feeds. -/
def splitLines (s : List Char) : List (List Char) := splitAt '\n' s

/-- The lines of a text, without their line feeds. -/
def lines (s : String) : List String := (splitLines s.toList).map String.ofList

def unlines (ls : List String) : String := String.intercalate "\n" ls

theorem splitAt_ne_nil (sep : Char) (s : List Char) : splitAt sep s ≠ [] := by
  cases s with
  | nil => simp [splitAt]
  | cons c cs =>
    unfold splitAt
    split
    · simp
    · split <;> simp

theorem lines_ne_nil (s : String) : lines s ≠ [] := by
  simp [lines, splitLines, splitAt_ne_nil]

end NotebookSlice.Text
