import NotebookSlice.Decimal.Shortest

/-! # Decimal layout

How a shortest decimal is written: positionally for moderate exponents, with an
exponent of two digits at least otherwise.
-/

namespace NotebookSlice.Decimal

structure Layout where
  /-- the least exponent of the leading digit that is written positionally -/
  least : Int
  /-- the exponent of the leading digit from which on an exponent is written -/
  limit : Int
  nan : String
  infinity : String

/-- Digits with a point after the first `n`; zeros fill up, and a digit stands on both sides. -/
def positional (digits : String) (n : Int) : String :=
  let count : Int := digits.length
  if n ≤ 0 then "0." ++ String.ofList (List.replicate (-n).toNat '0') ++ digits
  else if count ≤ n then
    digits ++ String.ofList (List.replicate (n - count).toNat '0') ++ ".0"
  else String.ofList (digits.toList.take n.toNat) ++ "." ++
    String.ofList (digits.toList.drop n.toNat)

/-- Digits with a point after the first one, and the exponent. -/
def scientific (digits : String) (e : Int) : String :=
  let mantissa := match digits.toList with
    | [c] => String.ofList [c]
    | c :: cs => String.ofList (c :: '.' :: cs)
    | [] => "0"
  let power := toString e.natAbs
  let power := if power.length < 2 then "0" ++ power else power
  mantissa ++ (if e < 0 then "e-" else "e+") ++ power

def Layout.decimal (l : Layout) (d : Scaled) : String :=
  let digits := toString d.digits
  let e : Int := digits.length + d.exponent - 1
  if l.least ≤ e ∧ e < l.limit then positional digits (e + 1) else scientific digits e

def Layout.float (l : Layout) (x : Float) : String :=
  let sign (negative : Bool) := if negative then "-" else ""
  match partsOf x with
  | .nan => l.nan
  | .infinite negative => sign negative ++ l.infinity
  | .zero negative => sign negative ++ "0.0"
  | .finite negative value => sign negative ++ l.decimal (shortest value)

end NotebookSlice.Decimal
