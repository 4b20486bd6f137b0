/-! # Shortest decimals

The decimal with the fewest digits that reads back as a given binary floating
point number, and of those the nearest one. Everything is exact arithmetic on
natural numbers.
-/

namespace NotebookSlice.Decimal

structure Scaled where
  digits : Nat
  exponent : Int
  deriving DecidableEq, Repr

/-- A positive binary number `mantissa × 2 ^ exponent`. -/
structure Binary where
  mantissa : Nat
  exponent : Int
  /-- is the next smaller number only half as far away as the next larger one? -/
  narrow : Bool
  deriving DecidableEq, Repr

namespace Binary

def floor (x : Binary) : Nat :=
  if 0 ≤ x.exponent then x.mantissa <<< x.exponent.toNat
  else x.mantissa >>> (-x.exponent).toNat

def toRat (x : Binary) : Rat :=
  if 0 ≤ x.exponent then mkRat x.floor 1
  else mkRat x.mantissa (1 <<< (-x.exponent).toNat)

end Binary

def tens (n : Nat) : Nat := Nat.pow 10 n

def compareScaled (a : Nat) (p : Int) (b : Nat) (q : Int) : Ordering :=
  compare ((a * tens p.toNat) <<< (-q).toNat) ((b <<< q.toNat) * tens (-p).toNat)

/-- Does the decimal read back as the number? The middle between two numbers goes to the even
mantissa. -/
def readsBack (x : Binary) (a : Nat) (p : Int) : Bool :=
  let even := x.mantissa % 2 == 0
  let low := if x.narrow then compareScaled a p (4 * x.mantissa - 1) (x.exponent - 2)
    else compareScaled a p (2 * x.mantissa - 1) (x.exponent - 1)
  let high := compareScaled a p (2 * x.mantissa + 1) (x.exponent - 1)
  (low == .gt || (even && low == .eq)) && (high == .lt || (even && high == .eq))

/-- The quotient of the number and a power of ten, rounded down. -/
def quotient (x : Binary) (p : Int) : Nat :=
  ((x.mantissa <<< x.exponent.toNat) * tens (-p).toNat) / (tens p.toNat <<< (-x.exponent).toNat)

/-- Is the upper one of two neighbouring decimals strictly nearer than the lower one, or as near
and even? -/
def upperIsNearer (x : Binary) (lower : Nat) (p : Int) : Bool :=
  match compareScaled (2 * lower + 1) p (2 * x.mantissa) x.exponent with
  | .lt => true
  | .gt => false
  | .eq => lower % 2 == 1

/-- A decimal on the grid of steps `10 ^ p` that reads back, if there is one. -/
def onGrid? (x : Binary) (p : Int) : Option Scaled :=
  let lower := quotient x p
  let lowerFits := lower != 0 && readsBack x lower p
  let upperFits := readsBack x (lower + 1) p
  if lowerFits && upperFits then
    some ⟨if upperIsNearer x lower p then lower + 1 else lower, p⟩
  else if lowerFits then some ⟨lower, p⟩
  else if upperFits then some ⟨lower + 1, p⟩
  else none

def search (x : Binary) : Nat → Int → Scaled
  | 0, p => ⟨quotient x p, p⟩
  | fuel + 1, p =>
    match onGrid? x p with
    | some d => d
    | none => search x fuel (p - 1)

def digitCount (n : Nat) : Nat := (toString n).length

def magnitude (x : Binary) : Int :=
  if 0 ≤ x.exponent then digitCount x.floor
  else
    let scaled := (x.mantissa * tens (-x.exponent).toNat) >>> (-x.exponent).toNat
    digitCount scaled + x.exponent

def strip : Nat → Scaled → Scaled
  | 0, d => d
  | fuel + 1, d =>
    if d.digits != 0 && d.digits % 10 == 0 then strip fuel ⟨d.digits / 10, d.exponent + 1⟩ else d

def shortest (x : Binary) : Scaled := strip 400 (search x 20 (magnitude x))

inductive Parts
  | nan
  | infinite (negative : Bool)
  | zero (negative : Bool)
  | finite (negative : Bool) (value : Binary)
  deriving DecidableEq, Repr

def partsOf (x : Float) : Parts :=
  let bits := x.toBits.toNat
  let negative := bits >>> 63 == 1
  let biased := bits >>> 52 % 2048
  let fraction := bits % (1 <<< 52)
  if biased == 2047 then (if fraction == 0 then .infinite negative else .nan)
  else if biased == 0 then
    if fraction == 0 then .zero negative
    else .finite negative ⟨fraction, -1074, false⟩
  else .finite negative ⟨(1 <<< 52) + fraction, (biased : Int) - 1075, fraction == 0 && biased != 1⟩

end NotebookSlice.Decimal
