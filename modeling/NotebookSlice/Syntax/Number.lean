import NotebookSlice.Decimal.Read
import NotebookSlice.Text.Identifier

/-! # Number literals

How far a number literal reaches. Digits may be grouped by single underscores;
a literal may run into a word only where that word is an operator such as `or`.
-/

namespace NotebookSlice.Syntax.Number

open Text

/-- Letters, digits, the underscore and everything outside ASCII. -/
def isWordChar (c : Char) : Bool := isAsciiLetter c || isAsciiDigit c || isWide c

/-- Is the text empty, or does it not go on with a word? -/
def endsWord : List Char → Bool
  | c :: _ => !isWordChar c
  | [] => true

/-- The operators and other words that a literal may run into. -/
def wordsBehind : List (List Char) :=
  [['a', 'n', 'd'], ['e', 'l', 's', 'e'], ['f', 'o', 'r'], ['o', 'r'], ['n', 'o', 't']]

/-- The words that a literal may run into even where they go on with other letters. -/
def startsBehind : List (List Char) := [['i', 'f'], ['i', 'n'], ['i', 's']]

def endsBefore (cs : List Char) : Bool :=
  endsWord cs || startsBehind.any (·.isPrefixOf cs) ||
    wordsBehind.any fun word => word.isPrefixOf cs && endsWord (cs.drop word.length)

def close (rest : List Char) : Option (List Char) :=
  if endsBefore rest then some rest else none

def startsWithDigit : List Char → Bool
  | c :: _ => isAsciiDigit c
  | [] => false

/-- What follows a run of decimal digits; `none` if an underscore is not followed by a digit. -/
def afterDigits : List Char → Option (List Char)
  | [] => some []
  | c :: cs =>
    if isAsciiDigit c then afterDigits cs
    else if c == '_' then (if startsWithDigit cs then afterDigits cs else none)
    else some (c :: cs)

def afterZeros : List Char → Option (List Char)
  | '0' :: cs => afterZeros cs
  | '_' :: cs => if startsWithDigit cs then afterZeros cs else none
  | cs => some cs

inductive DigitRun | start | separator | digits
  deriving DecidableEq

/-- What follows the digits of a base, after its letter. -/
def afterBaseDigits (ok : Char → Bool) : DigitRun → List Char → Option (List Char)
  | .digits, [] => some []
  | _, [] => none
  | run, c :: cs =>
    if ok c then afterBaseDigits ok .digits cs
    else match run with
      | .separator => none
      | .start => if c == '_' then afterBaseDigits ok .separator cs else none
      | .digits =>
        if c == '_' then afterBaseDigits ok .separator cs
        else if isAsciiDigit c then none
        else some (c :: cs)

/-- What follows the mark of an imaginary number, if there is one. -/
def suffix : List Char → Option (List Char)
  | 'j' :: cs => close cs
  | 'J' :: cs => close cs
  | cs => close cs

/-- What follows an exponent, if there is one, and a mark of an imaginary number. -/
def exponent : List Char → Option (List Char)
  | [] => some []
  | e :: cs =>
    if e == 'e' || e == 'E' then
      match cs with
      | [] => none
      | c :: r =>
        if c == '+' || c == '-' then
          if startsWithDigit r then (afterDigits r).bind suffix else none
        else if isAsciiDigit c then (afterDigits cs).bind suffix
        else close (e :: cs)
    else suffix (e :: cs)

def fraction (cs : List Char) : Option (List Char) :=
  if startsWithDigit cs then (afterDigits cs).bind exponent else exponent cs

/-- After a leading zero: the old spelling of octal numbers is refused. -/
def afterLeadingZero (cs : List Char) : Option (List Char) := do
  let rest ← afterZeros cs
  let nonzero := startsWithDigit rest
  let rest ← if nonzero then afterDigits rest else some rest
  match rest with
  | '.' :: r => fraction r
  | 'e' :: _ | 'E' :: _ => exponent rest
  | 'j' :: _ | 'J' :: _ => suffix rest
  | _ => if nonzero then none else close rest

/-- What follows the number literal that the text starts with, or `none` if it is malformed. -/
def rest? : List Char → Option (List Char)
  | '0' :: 'x' :: cs => (afterBaseDigits (fun c => (hexDigit? c).isSome) .start cs).bind close
  | '0' :: 'X' :: cs => (afterBaseDigits (fun c => (hexDigit? c).isSome) .start cs).bind close
  | '0' :: 'o' :: cs => (afterBaseDigits (fun c => '0' ≤ c && c ≤ '7') .start cs).bind close
  | '0' :: 'O' :: cs => (afterBaseDigits (fun c => '0' ≤ c && c ≤ '7') .start cs).bind close
  | '0' :: 'b' :: cs => (afterBaseDigits (fun c => c == '0' || c == '1') .start cs).bind close
  | '0' :: 'B' :: cs => (afterBaseDigits (fun c => c == '0' || c == '1') .start cs).bind close
  | '0' :: cs => afterLeadingZero cs
  | '.' :: cs => fraction cs
  | cs => do
    match ← afterDigits cs with
    | '.' :: r => fraction r
    | r => exponent r

def isImaginary (digits : List Char) : Bool :=
  match digits.getLast? with
  | some 'j' | some 'J' => true
  | _ => false

/-- Is the literal a decimal integer of more digits than are read, leading zeros left out? -/
def isTooLong (digits : List Char) : Bool :=
  digits.all (fun c => isAsciiDigit c || c == '_') &&
    Decimal.maxDigits < ((digits.filter isAsciiDigit).dropWhile (· == '0')).length

end NotebookSlice.Syntax.Number
