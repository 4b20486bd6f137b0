import NotebookSlice.Text.Printable

/-! # Quoted text

How a text is shown between quotes: single quotes unless only double ones avoid
escaping, with escapes for backslashes, line ends and what cannot be printed.
-/

namespace NotebookSlice.Text

/-- The digit of a number below sixteen, in lower case. -/
def hexDigit (n : Nat) : Char :=
  if n < 10 then Char.ofNat (48 + n) else Char.ofNat (87 + n)

/-- A number below `16 ^ width` in `width` hexadecimal digits. -/
def hexText : (width : Nat) → Nat → List Char
  | 0, _ => []
  | width + 1, n => hexText width (n / 16) ++ [hexDigit (n % 16)]

/-- A character as it stands between the given quotes. -/
def quotedChar (quote c : Char) : List Char :=
  if c == quote || c == '\\' then ['\\', c]
  else if c == '\n' then ['\\', 'n']
  else if c == '\t' then ['\\', 't']
  else if c == '\r' then ['\\', 'r']
  else if isPrintable c then [c]
  else
    let n := c.toNat
    if n < 0x100 then ['\\', 'x'] ++ hexText 2 n
    else if n < 0x10000 then ['\\', 'u'] ++ hexText 4 n
    else ['\\', 'U'] ++ hexText 8 n

def quoteFor (s : List Char) : Char :=
  if s.contains '\'' && !s.contains '"' then '"' else '\''

def quoted (s : String) : String :=
  let cs := s.toList
  let q := quoteFor cs
  String.ofList (q :: cs.flatMap (quotedChar q) ++ [q])

def bracketed (items : List String) : String := "[" ++ String.intercalate ", " items ++ "]"

end NotebookSlice.Text
