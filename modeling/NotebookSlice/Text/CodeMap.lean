import NotebookSlice.Text.CodeRanges

/-! # Maps on code points

A map is a text of entries such as `B5>3BC`, `DF>53+53` for an image of several
code points, and `61-7A>41` for a range that is shifted as a whole.
-/

namespace NotebookSlice.Text

/-- Images of ranges of code points, in increasing order of the ranges. -/
structure CodeMap where
  entries : Array (Nat × Nat × List Nat)

namespace CodeMap

/-- The pieces of a word between the occurrences of a separator. -/
def pieces (sep : Char) (w : List Char) : List (List Char) :=
  w.foldr (fun c ps => if c == sep then [] :: ps else
    match ps with
    | p :: ps => (c :: p) :: ps
    | [] => [[c]]) [[]]

private def entryOf (w : List Char) : Nat × Nat × List Nat :=
  let source := w.takeWhile (· != '>')
  let image := (w.dropWhile (· != '>')).drop 1
  let (first, last) := match pieces '-' source with
    | [a, b] => (hexValue a, hexValue b)
    | _ => (hexValue source, hexValue source)
  (first, last, (pieces '+' image).map hexValue)

def ofText (s : String) : CodeMap := ⟨((CodeRanges.words s).map entryOf).toArray⟩

private def search (es : Array (Nat × Nat × List Nat)) (n : Nat) : Nat → Nat → Nat →
    Option (Nat × List Nat)
  | 0, _, _ => none
  | fuel + 1, lo, hi =>
    if lo < hi then
      let mid := (lo + hi) / 2
      match es[mid]? with
      | none => none
      | some (a, b, image) =>
        if n < a then search es n fuel lo mid
        else if b < n then search es n fuel (mid + 1) hi
        else some (a, image)
    else none

/-- The first code point of the range that a code point is in, and what the range maps to. -/
def locate? (m : CodeMap) (n : Nat) : Option (Nat × List Nat) :=
  search m.entries n (m.entries.size + 1) 0 m.entries.size

/-- The image of a code point, if the map has one. -/
def find? (m : CodeMap) (n : Nat) : Option (List Nat) :=
  (m.locate? n).map fun (first, image) =>
    match image with
    | [i] => [i + (n - first)]
    | is => is

end CodeMap

end NotebookSlice.Text
