import NotebookSlice.Value.Basic
import NotebookSlice.Decimal.Read
import NotebookSlice.Text.CodeRanges

/-! # JSON

Values as JSON text. Numbers with a fraction or an exponent are floats, others
integers. What is written is ASCII, with a space after commas and colons.
-/

namespace NotebookSlice.Json

open Text

/-! ## Reading -/

def isSpace (c : Char) : Bool := c == ' ' || c == '\t' || c == '\n' || c == '\r'

def skip (cs : List Char) : List Char := cs.dropWhile isSpace

def isDigit (c : Char) : Bool := '0' ≤ c && c ≤ '9'

/-- The number of four hexadecimal digits, and what follows. -/
def hex4 : List Char → Option (Nat × List Char)
  | a :: b :: c :: d :: rest => do
    let a ← hexDigit? a
    let b ← hexDigit? b
    let c ← hexDigit? c
    let d ← hexDigit? d
    return (((a * 16 + b) * 16 + c) * 16 + d, rest)
  | _ => none

/-- The character of an escape after its backslash; two escapes may make one character. -/
def escape : List Char → Option (Char × List Char)
  | '"' :: cs => some ('"', cs)
  | '\\' :: cs => some ('\\', cs)
  | '/' :: cs => some ('/', cs)
  | 'b' :: cs => some ('\x08', cs)
  | 'f' :: cs => some ('\x0c', cs)
  | 'n' :: cs => some ('\n', cs)
  | 'r' :: cs => some ('\r', cs)
  | 't' :: cs => some ('\t', cs)
  | 'u' :: cs => do
    let (n, cs) ← hex4 cs
    if 0xD800 ≤ n && n < 0xDC00 then
      match cs with
      | '\\' :: 'u' :: more =>
        match hex4 more with
        | some (m, rest) =>
          if 0xDC00 ≤ m && m < 0xE000 then
            some (Char.ofNat (0x10000 + (n - 0xD800) * 0x400 + (m - 0xDC00)), rest)
          else some ('\uFFFD', cs)
        | none => some ('\uFFFD', cs)
      | _ => some ('\uFFFD', cs)
    else if 0xDC00 ≤ n && n < 0xE000 then some ('\uFFFD', cs)
    else some (Char.ofNat n, cs)
  | _ => none

/-- The characters of a string after its opening quote, in reverse, and what follows. -/
def string : Nat → List Char → List Char → Option (List Char × List Char)
  | 0, _, _ => none
  | _, _, [] => none
  | fuel + 1, acc, c :: cs =>
    if c == '"' then some (acc, cs)
    else if c == '\\' then
      match escape cs with
      | some (e, cs) => string fuel (e :: acc) cs
      | none => none
    else if c.toNat < 32 then none
    else string fuel (c :: acc) cs

private def fractionDigits : List Char → List Char
  | '.' :: cs => cs.takeWhile isDigit
  | _ => []

private def exponentOf : List Char → Option (Int × List Char)
  | e :: cs =>
    if e == 'e' || e == 'E' then
      let (negative, ds) := match cs with
        | '-' :: ds => (true, ds)
        | '+' :: ds => (false, ds)
        | ds => (false, ds)
      let digits := ds.takeWhile isDigit
      if digits.isEmpty then none
      else
        let n : Int := Decimal.natOfDigits digits
        some (if negative then -n else n, ds.drop digits.length)
    else none
  | [] => none

def number (cs : List Char) : Option (Value × List Char) :=
  let (negative, body) := match cs with
    | '-' :: body => (true, body)
    | body => (false, body)
  let whole := match body with
    | '0' :: _ => ['0']
    | _ => body.takeWhile isDigit
  if whole.isEmpty then none
  else
    let rest := body.drop whole.length
    let fraction := fractionDigits rest
    let rest := if fraction.isEmpty then rest else rest.drop (fraction.length + 1)
    let exponent := exponentOf rest
    if fraction.isEmpty && exponent.isNone then
      if Decimal.maxDigits < whole.length then none
      else
        let n : Int := Decimal.natOfDigits whole
        some (.int (if negative then -n else n), rest)
    else
      let (e, rest) := exponent.getD (0, rest)
      some (.float (Decimal.toFloat negative (Decimal.natOfDigits (whole ++ fraction))
        (e - fraction.length)), rest)

/-- The text after a word, if the text starts with it. -/
def afterWord (word : String) (cs : List Char) : Option (List Char) :=
  if word.toList.isPrefixOf cs then some (cs.drop word.length) else none

private def infinity : Float := Decimal.toFloat false 1 500

private def notANumber : Float := infinity - infinity

private def words : List (String × Value) :=
  [("null", .null), ("true", .bool true), ("false", .bool false), ("NaN", .float notANumber),
    ("Infinity", .float infinity), ("-Infinity", .float (-infinity))]

private def word (cs : List Char) : Option (Value × List Char) :=
  words.findSome? fun (w, v) => (afterWord w cs).map fun rest => (v, rest)

mutual

/-- A value at the start of a text, and what follows. -/
def value : Nat → List Char → Option (Value × List Char)
  | 0, _ => none
  | fuel + 1, cs =>
    match cs with
    | '"' :: cs => (string (cs.length + 1) [] cs).map fun (s, rest) =>
      (.text (String.ofList s.reverse), rest)
    | '[' :: cs =>
      match skip cs with
      | ']' :: rest => some (.list [], rest)
      | cs => (items fuel [] cs).map fun (vs, rest) => (.list vs, rest)
    | '{' :: cs =>
      match skip cs with
      | '}' :: rest => some (.map [], rest)
      | cs => (members fuel [] cs).map fun (es, rest) => (.map es, rest)
    | cs => word cs <|> number cs

def items : Nat → List Value → List Char → Option (List Value × List Char)
  | 0, _, _ => none
  | fuel + 1, acc, cs =>
    match value fuel (skip cs) with
    | none => none
    | some (v, rest) =>
      match skip rest with
      | ',' :: rest => items fuel (v :: acc) rest
      | ']' :: rest => some ((v :: acc).reverse, rest)
      | _ => none

/-- The entries of an object after its brace; a repeated key keeps its first place. -/
def members : Nat → List (Value × Value) → List Char → Option (List (Value × Value) × List Char)
  | 0, _, _ => none
  | fuel + 1, acc, cs =>
    match skip cs with
    | '"' :: cs =>
      match string (cs.length + 1) [] cs with
      | none => none
      | some (k, rest) =>
        match skip rest with
        | ':' :: rest =>
          match value fuel (skip rest) with
          | none => none
          | some (v, rest) =>
            let acc := Value.insertEntry (.text (String.ofList k.reverse)) v acc
            match skip rest with
            | ',' :: rest => members fuel acc rest
            | '}' :: rest => some (acc, rest)
            | _ => none
        | _ => none
    | _ => none

end

/-- The value that a text writes, or `none` if the text is no JSON. -/
def parse? (s : String) : Option Value :=
  let cs := s.toList
  match value (2 * cs.length + 2) (skip cs) with
  | some (v, rest) => if (skip rest).isEmpty then some v else none
  | none => none

/-! ## Writing -/

def numbers : Decimal.Layout := ⟨-4, 16, "NaN", "Infinity"⟩

def escaped (c : Char) : List Char :=
  if c == '"' then ['\\', '"']
  else if c == '\\' then ['\\', '\\']
  else if c == '\n' then ['\\', 'n']
  else if c == '\r' then ['\\', 'r']
  else if c == '\t' then ['\\', 't']
  else if c == '\x08' then ['\\', 'b']
  else if c == '\x0c' then ['\\', 'f']
  else
    let n := c.toNat
    if 32 ≤ n && n < 127 then [c]
    else if n < 0x10000 then ['\\', 'u'] ++ hexText 4 n
    else
      let m := n - 0x10000
      ['\\', 'u'] ++ hexText 4 (0xD800 + m / 0x400) ++ ['\\', 'u'] ++ hexText 4 (0xDC00 + m % 0x400)

def quote (s : String) : String := String.ofList ('"' :: s.toList.flatMap escaped ++ ['"'])

/-- A key of an object; keys that are no texts are written as texts. -/
def key : Value → String
  | .text s => s
  | .bool true => "true"
  | .bool false => "false"
  | .int i => toString i
  | .float x => numbers.float x
  | _ => "null"

mutual

def render : Value → String
  | .null => "null"
  | .bool true => "true"
  | .bool false => "false"
  | .int i => toString i
  | .float x => numbers.float x
  | .text s => quote s
  | .list vs => "[" ++ String.intercalate ", " (renderItems vs) ++ "]"
  | .tuple vs => "[" ++ String.intercalate ", " (renderItems vs) ++ "]"
  | .set vs => "[" ++ String.intercalate ", " (renderItems vs) ++ "]"
  | .map es => "\x7b" ++ String.intercalate ", " (renderEntries es) ++ "\x7d"
  | .bytes _ => "null"
  | .timestamp _ => "null"

def renderItems : List Value → List String
  | [] => []
  | v :: vs => render v :: renderItems vs

def renderEntries : List (Value × Value) → List String
  | [] => []
  | (k, v) :: es => (quote (key k) ++ ": " ++ render v) :: renderEntries es

end

end NotebookSlice.Json
