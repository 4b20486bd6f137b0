/-! # Line ranges

Closed ranges of line numbers. The normal form of a list of ranges is sorted and
holds no two ranges that overlap or touch.
-/

namespace NotebookSlice

/-- The lines from `first` to `last`; none if `last` is smaller. -/
structure LineRange where
  first : Int
  last : Int
  deriving DecidableEq, Repr

namespace LineRange

def le (a b : LineRange) : Bool :=
  decide (a.first < b.first) || (decide (a.first = b.first) && decide (a.last ≤ b.last))

/-- Joins sorted ranges that overlap or touch, starting with the one at hand. -/
def fuse : LineRange → List LineRange → List LineRange
  | current, [] => [current]
  | current, r :: rs =>
    if r.first ≤ current.last + 1 then fuse ⟨current.first, max current.last r.last⟩ rs
    else current :: fuse r rs

def normalize (rs : List LineRange) : List LineRange :=
  match rs.mergeSort le with
  | [] => []
  | r :: rest => fuse r rest

def lines (r : LineRange) : List Int :=
  (List.range (r.last + 1 - r.first).toNat).map fun (n : Nat) => r.first + n

def shown (r : LineRange) : String := "(" ++ toString r.first ++ ", " ++ toString r.last ++ ")"

def shownAll : List LineRange → String
  | [r] => "(" ++ r.shown ++ ",)"
  | rs => "(" ++ String.intercalate ", " (rs.map shown) ++ ")"

end LineRange

end NotebookSlice
