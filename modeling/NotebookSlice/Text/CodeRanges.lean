/-! # Tables of code points

A table is a text of hexadecimal code points and ranges of them, such as
`41-5A 5F`; it is decoded once and searched by halving.
-/

namespace NotebookSlice.Text

def hexDigit? (c : Char) : Option Nat :=
  if '0' ≤ c ∧ c ≤ '9' then some (c.toNat - 48)
  else if 'A' ≤ c ∧ c ≤ 'F' then some (c.toNat - 55)
  else if 'a' ≤ c ∧ c ≤ 'f' then some (c.toNat - 87)
  else none

/-- The number that hexadecimal digits write; other characters are passed over. -/
def hexValue (s : List Char) : Nat :=
  s.foldl (fun n c => match hexDigit? c with | some d => 16 * n + d | none => n) 0

/-- Closed ranges of code points in increasing order. -/
structure CodeRanges where
  ranges : Array (Nat × Nat)

namespace CodeRanges

private def endWord : List Char × List (List Char) → List (List Char)
  | ([], done) => done
  | (word, done) => word.reverse :: done

private def addDigit (s : List Char × List (List Char)) (c : Char) : List Char × List (List Char) :=
  if c == ' ' || c == '\n' then ([], endWord s) else (c :: s.1, s.2)

/-- The words of a text, separated by spaces and line ends. -/
def words (s : String) : List (List Char) := (endWord (s.toList.foldl addDigit ([], []))).reverse

def ofText (s : String) : CodeRanges :=
  ⟨((words s).map fun w =>
    let first := w.takeWhile (· != '-')
    match w.dropWhile (· != '-') with
    | [] => (hexValue first, hexValue first)
    | _ :: last => (hexValue first, hexValue last)).toArray⟩

private def search (rs : Array (Nat × Nat)) (n : Nat) : Nat → Nat → Nat → Bool
  | 0, _, _ => false
  | fuel + 1, lo, hi =>
    if lo < hi then
      let mid := (lo + hi) / 2
      match rs[mid]? with
      | none => false
      | some (a, b) =>
        if n < a then search rs n fuel lo mid
        else if b < n then search rs n fuel (mid + 1) hi
        else true
    else false

def contains (t : CodeRanges) (n : Nat) : Bool :=
  search t.ranges n (t.ranges.size + 1) 0 t.ranges.size

end CodeRanges

end NotebookSlice.Text
