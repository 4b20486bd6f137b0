import NotebookSlice.Decimal.Read
import NotebookSlice.Text.Blank
import NotebookSlice.Text.CodeRanges

/-! # Integers in text

Reading integers: blanks around the number, a sign, single underscores between
digits and the decimal digits of all scripts are allowed.
-/

namespace NotebookSlice.Text

/-- The code points of the zeros; the digits up to nine follow each of them. -/
def zeros : List Nat :=
  (CodeRanges.words
    "30 660 6F0 7C0 966 9E6 A66 AE6 B66 BE6 C66 CE6 D66 DE6 E50 ED0 F20 1040 1090 17E0 1810
    1946 19D0 1A80 1A90 1B50 1BB0 1C40 1C50 A620 A8D0 A900 A9D0 A9F0 AA50 ABF0 FF10 104A0
    10D30 11066 110F0 11136 111D0 112F0 11450 114D0 11650 116C0 11730 118E0 11950 11C50 11D50
    11DA0 16A60 16AC0 16B50 1D7CE 1D7D8 1D7E2 1D7EC 1D7F6 1E140 1E2F0 1E950 1FBF0").map hexValue

def decimalDigit? (c : Char) : Option Nat :=
  (zeros.find? fun z => z ≤ c.toNat && c.toNat < z + 10).map (c.toNat - ·)

/-- The digits of a number whose underscores stand singly between digits. -/
def groupedDigits : List Char → Option (List Nat)
  | [] => none
  | c :: cs =>
    match decimalDigit? c, cs with
    | none, _ => none
    | some d, [] => some [d]
    | some d, '_' :: rest => (groupedDigits rest).map (d :: ·)
    | some d, rest => (groupedDigits rest).map (d :: ·)

def integer? (s : List Char) : Option Int :=
  let (negative, body) := match trim s with
    | '-' :: body => (true, body)
    | '+' :: body => (false, body)
    | body => (false, body)
  match groupedDigits body with
  | none => none
  | some ds =>
    if Decimal.maxDigits < ds.length then none
    else
      let n : Nat := ds.foldl (fun (n d : Nat) => 10 * n + d) (0 : Nat)
      some (if negative then -(n : Int) else (n : Int))

/-- The text with every line end written as a line feed. -/
def unifyLineEnds : List Char → List Char
  | [] => []
  | '\r' :: '\n' :: cs => '\n' :: unifyLineEnds cs
  | c :: cs => (if c = '\r' then '\n' else c) :: unifyLineEnds cs

end NotebookSlice.Text
