/-! # Reading decimals

Numbers from decimal digits. Integers are read up to a length, floating point
numbers are rounded to the nearest one.
-/

namespace NotebookSlice.Decimal

def maxDigits : Nat := 4300

/-- The value of decimal digits; other characters are passed over. -/
def natOfDigits (s : List Char) : Nat :=
  s.foldl (fun n c => if '0' ≤ c ∧ c ≤ '9' then 10 * n + (c.toNat - 48) else n) 0

/-- The floating point number nearest to `digits × 10 ^ exponent`. -/
def toFloat (negative : Bool) (digits : Nat) (exponent : Int) : Float :=
  let size : Int := (toString digits).length + exponent
  let magnitude :=
    if digits == 0 || size < -400 then 0.0
    else if 400 < size then Float.ofScientific 1 false 400
    else Float.ofScientific digits (exponent < 0) exponent.natAbs
  if negative then -magnitude else magnitude

end NotebookSlice.Decimal
