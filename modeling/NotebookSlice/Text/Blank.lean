/-! # Blank characters

The white space that trimming removes and that separates words. It is the
class of Unicode separators and controls of bidirectional class `WS`, `B` or `S`.
-/

namespace NotebookSlice.Text

/-- The white space of Unicode, controls `U+001C` to `U+001F` included. -/
def isBlank (c : Char) : Bool :=
  let n := c.toNat
  (9 ≤ n && n ≤ 13) || (28 ≤ n && n ≤ 32) || n == 0x85 || n == 0xA0 || n == 0x1680 ||
    (0x2000 ≤ n && n ≤ 0x200A) || n == 0x2028 || n == 0x2029 || n == 0x202F ||
    n == 0x205F || n == 0x3000

def trimStart (s : List Char) : List Char := s.dropWhile isBlank

def trimEnd (s : List Char) : List Char := (s.reverse.dropWhile isBlank).reverse

def trim (s : List Char) : List Char := trimEnd (trimStart s)

/-- The first word: the longest run of characters that are not blank, leading blanks skipped. -/
def firstWord (s : List Char) : List Char := (trimStart s).takeWhile fun c => !isBlank c

def allBlank (s : List Char) : Bool := s.all isBlank

end NotebookSlice.Text
