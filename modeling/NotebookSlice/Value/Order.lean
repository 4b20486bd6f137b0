import NotebookSlice.Value.Basic

/-! # The order of values

Numbers are ordered by value and texts by code points. Other values have no
order, and neither have a number and a text.
-/

namespace NotebookSlice

inductive Rank
  | number (q : Rat)
  | text (s : String)
  | unordered
  deriving DecidableEq

namespace Rank

/-- Numbers come before texts, and texts before what has no order. -/
def le : Rank → Rank → Bool
  | number a, number b => decide (a ≤ b)
  | number _, _ => true
  | text _, number _ => false
  | text a, text b => !decide (b < a)
  | text _, unordered => true
  | unordered, unordered => true
  | unordered, _ => false

def comparable : Rank → Rank → Bool
  | number _, number _ => true
  | text _, text _ => true
  | _, _ => false

end Rank

namespace Value

/-- Stands for infinity: larger than any finite floating point number. -/
def beyondAll : Rat := mkRat (1 <<< 2000) 1

def floatRank (x : Float) : Rank :=
  match Decimal.partsOf x with
  | .nan => .unordered
  | .infinite negative => .number (if negative then -beyondAll else beyondAll)
  | .zero _ => .number 0
  | .finite negative v =>
    .number (if negative then -v.toRat else v.toRat)

def rank : Value → Rank
  | bool b => .number (if b then 1 else 0)
  | int i => .number i
  | float x => floatRank x
  | text s => .text s
  | _ => .unordered

/-- The value of an integer; booleans are integers. -/
def integer? : Value → Option Int
  | bool b => some (if b then 1 else 0)
  | int i => some i
  | _ => none

mutual

/-- Can the value be a key? Lists, sets and maps cannot. -/
def isKey : Value → Bool
  | list _ | set _ | map _ => false
  | tuple vs => areKeys vs
  | _ => true

def areKeys : List Value → Bool
  | [] => true
  | v :: vs => isKey v && areKeys vs

end

end Value

end NotebookSlice
