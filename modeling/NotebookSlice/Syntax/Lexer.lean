import NotebookSlice.Syntax.Token
import NotebookSlice.Syntax.Number
import NotebookSlice.Text.Normal

/-! # Lexical analysis

A text is cut into tokens up to its end or up to the first lexical fault.
Indentation opens and closes blocks outside brackets; inside brackets line ends
do not count.
-/

namespace NotebookSlice.Syntax

open Text

/-- All line ends become line feeds. The last line is ended if it is not, and a text that
ends in a carriage return and a line feed gets an empty line more. -/
def unifyLineEnds : List Char → List Char
  | [] => ['\n']
  | '\r' :: '\n' :: cs => '\n' :: unifyLineEnds cs
  | ['\r'] => ['\n']
  | '\r' :: cs => '\n' :: unifyLineEnds cs
  | ['\n'] => ['\n']
  | c :: cs => c :: unifyLineEnds cs

structure LexicalFault where
  /-- the line that is reported when the fault is met while parsing -/
  line : Nat
  /-- does the fault take precedence over an earlier fault of the grammar? -/
  decisive : Bool
  /-- the line of the innermost open bracket -/
  bracket : Option Nat
  deriving DecidableEq, Repr

/-- The tokens of a text, and the fault that ended them early if there is one. -/
structure Lexed where
  tokens : Array Token
  fault : Option LexicalFault
  deriving DecidableEq, Repr

def Lexed.weight (l : Lexed) : Nat := l.tokens.toList.foldr (fun t n => t.weight + n) 0

namespace Lexer

structure State where
  /-- the line that is being read -/
  line : Nat
  /-- is the next character the first of a line? -/
  fresh : Bool
  /-- the open indentations, innermost first: columns with tabs to multiples of eight, and
  columns with tabs of width one -/
  indents : List (Nat × Nat)
  /-- the open brackets and their lines, innermost first -/
  brackets : List (Char × Nat)

namespace State

def bracketLine (s : State) : Option Nat := s.brackets.head?.map (·.2)

/-- A fault that stands whatever the grammar found before. -/
def decisive (s : State) : LexicalFault := ⟨s.line, true, s.bracketLine⟩

/-- A fault that yields to an earlier fault of the grammar. -/
def yielding (s : State) : LexicalFault := ⟨s.line, false, s.bracketLine⟩

/-- The text ended too early: an open bracket is to blame if there is one. -/
def early (s : State) : LexicalFault := ⟨s.bracketLine.getD s.line, false, s.bracketLine⟩

def token (s : State) (kind : Token.Kind) : Token := ⟨kind, s.line, s.line, s.brackets.length⟩

end State

def maxBrackets : Nat := 200

def maxIndents : Nat := 100

/-- The column of the first character of a line that is not indentation, in both ways of
counting tabs, and the text from there. The first backslash settles the column of a line
that is continued. -/
def measure (s : State) : (column wideTabs : Nat) → (settled : Nat) → List Char →
    Except LexicalFault (State × (Nat × Nat) × List Char)
  | n, m, k, [] => .ok (s, if k = 0 then (n, m) else (k, k), [])
  | n, m, k, ' ' :: cs => measure s (n + 1) (m + 1) k cs
  | n, m, k, '\t' :: cs => measure s ((n / 8 + 1) * 8) (m + 1) k cs
  | _, _, k, '\x0c' :: cs => measure s 0 0 k cs
  | n, m, k, '\\' :: '\n' :: cs =>
    if cs.isEmpty then .error s.early
    else measure { s with line := s.line + 1 } n m (if k = 0 then n else k) cs
  | n, m, k, c :: cs =>
    if c == '\\' then .error s.yielding
    else .ok (s, if k = 0 then (n, m) else (k, k), c :: cs)

/-- Closes the indentations that are deeper than the column. -/
def dedent (column : Nat) : List (Nat × Nat) → Nat × List (Nat × Nat)
  | top :: next :: rest =>
    if column < top.1 then
      let (n, stack) := dedent column (next :: rest)
      (n + 1, stack)
    else (0, top :: next :: rest)
  | stack => (0, stack)

/-- The layout tokens for a line that starts at the given column. -/
def indentation (s : State) (column : Nat × Nat) : Except LexicalFault (State × List Token) :=
  match s.indents with
  | [] => .error s.yielding
  | (top, topWide) :: _ =>
    if column.1 = top then
      if column.2 = topWide then .ok (s, []) else .error s.yielding
    else if top < column.1 then
      if maxIndents ≤ s.indents.length || column.2 ≤ topWide then .error s.yielding
      else .ok ({ s with indents := column :: s.indents }, [s.token .indent])
    else
      let (n, stack) := dedent column.1 s.indents
      if stack.head? = some column then
        .ok ({ s with indents := stack }, List.replicate n (s.token .dedent))
      else .error s.yielding

/-- What follows a string of one line after its opening quote. -/
def closeQuote (q : Char) : List Char → Option (List Char)
  | [] => none
  | '\n' :: _ => none
  | '\\' :: _ :: cs => closeQuote q cs
  | c :: cs => if c == q then some cs else closeQuote q cs

/-- What follows a string in triple quotes after the opening quotes and `n` closing ones. -/
def closeTriple (q : Char) : Nat → List Char → Option (List Char)
  | _, [] => none
  | _, '\\' :: _ :: cs => closeTriple q 0 cs
  | n, c :: cs =>
    if c == q then (if n = 2 then some cs else closeTriple q (n + 1) cs)
    else closeTriple q 0 cs

/-- What follows the string that the text, starting with a quote, begins with. -/
def afterString : List Char → Option (List Char)
  | a :: b :: c :: cs =>
    if a == b && b == c then closeTriple a 0 cs
    else if a == b then some (c :: cs)
    else closeQuote a (b :: c :: cs)
  | a :: cs => if cs == [a] then some [] else closeQuote a cs
  | [] => none

/-- Which prefix letters a string literal has so far. -/
structure Prefix where
  bytes : Bool
  unicode : Bool
  raw : Bool
  template : Bool

/-- The prefix after one more letter, or `none` if the letter cannot be added. -/
def Prefix.add (p : Prefix) (c : Char) : Option Prefix :=
  if (c == 'b' || c == 'B') && !(p.bytes || p.unicode || p.template) then
    some { p with bytes := true }
  else if (c == 'u' || c == 'U') && !(p.bytes || p.unicode || p.raw || p.template) then
    some { p with unicode := true }
  else if (c == 'r' || c == 'R') && !(p.raw || p.unicode) then some { p with raw := true }
  else if (c == 'f' || c == 'F') && !(p.template || p.bytes || p.unicode) then
    some { p with template := true }
  else none

def isQuote (c : Char) : Bool := c == '\'' || c == '"'

/-- The text from the quote on, if the text begins with a prefix and a quote. -/
def afterPrefix (p : Prefix) : List Char → Option (List Char)
  | [] => none
  | c :: cs =>
    match p.add c with
    | none => none
    | some p =>
      match cs with
      | [] => none
      | q :: _ => if isQuote q then some cs else afterPrefix p cs

def before (whole rest : List Char) : List Char := whole.take (whole.length - rest.length)

def closer : Char → Char
  | '(' => ')'
  | '[' => ']'
  | c => if c == '{' then '}' else c

def isOpening (c : Char) : Bool := c == '(' || c == '[' || c == '{'

def isClosing (c : Char) : Bool := c == ')' || c == ']' || c == '}'

/-- Control characters, which no text may hold outside strings and comments. -/
def isControl (c : Char) : Bool := c.toNat < 32 || c.toNat == 127

/-- One step: tokens, the next state and the rest of the text, or a fault. -/
abbrev Step := Except LexicalFault (List Token × State × List Char)

def stringToken (s : State) (whole quoted : List Char) : Step :=
  match afterString quoted with
  | none => .error s.decisive
  | some rest =>
    let text := before whole rest
    let last := s.line + text.count '\n'
    .ok ([⟨.string text, s.line, last, s.brackets.length⟩], { s with line := last }, rest)

/-- What a word is; outside ASCII not all words are names. -/
def nameKind (word : List Char) : Option Token.Kind :=
  if word.any isWide then
    if isIdentifier word then some (.name (String.ofList (normalize word)) none) else none
  else match Keyword.ofSpelling? word with
    | some k => some (.keyword k)
    | none => some (.name (String.ofList word) (SoftKeyword.ofSpelling? word))

def nameToken (s : State) (cs : List Char) : Step :=
  match nameKind (cs.takeWhile Number.isWordChar) with
  | some kind => .ok ([s.token kind], s, cs.dropWhile Number.isWordChar)
  | none => .error s.decisive

def numberToken (s : State) (cs : List Char) : Step :=
  match Number.rest? cs with
  | none => .error s.decisive
  | some rest => .ok ([s.token (.number (before cs rest))], s, rest)

/-- The state after a bracket, if the bracket may stand there. -/
def afterBracket (s : State) (c : Char) : Option State :=
  if isOpening c then
    if maxBrackets ≤ s.brackets.length then none
    else some { s with brackets := (c, s.line) :: s.brackets }
  else match s.brackets with
    | [] => none
    | (o, _) :: rest => if closer o == c then some { s with brackets := rest } else none

/-- The state after a character that is a mark of its own, if it may stand there. -/
def afterMark (s : State) (c : Char) : Option State :=
  if isOpening c || isClosing c then afterBracket s c
  else if isControl c then none
  else some s

/-- The mark of three or two characters that a text starts with, and what follows it. -/
def longMark (c : Char) (cs : List Char) : Option (Punct × List Char) :=
  let triple := match cs with
    | d :: e :: r => (Punct.ofTriple? c d e).map (·, r)
    | _ => none
  let pair := match cs with
    | d :: r => (Punct.ofPair? c d).map (·, r)
    | [] => none
  triple <|> pair

def punctToken (s : State) (c : Char) (cs : List Char) : Step :=
  match longMark c cs with
  | some (mark, rest) => .ok ([s.token (.punct mark)], s, rest)
  | none =>
    match afterMark s c with
    | some s => .ok ([s.token (.punct (.ofChar c))], s, cs)
    | none => .error s.decisive

/-- What a line holds after its first blanks: nothing, a comment, or code, with the layout tokens
that its column asks for. -/
def lineHead (s : State) (column : Nat × Nat) (rest : List Char) : Step :=
  match rest with
  | '\n' :: more => .ok ([], { s with fresh := true }, more)
  | '#' :: more => .ok ([], { s with fresh := true }, (more.dropWhile (· != '\n')).drop 1)
  | _ =>
    if s.brackets.isEmpty then
      match indentation s column with
      | .ok (s, tokens) => .ok (tokens, s, rest)
      | .error fault => .error fault
    else .ok ([], s, rest)

/-- The state in which the first blanks of a line are read. -/
def State.enter (s : State) (cs : List Char) : State :=
  { s with fresh := false, line := if cs.isEmpty then s.line else s.line + 1 }

def lineStart (s : State) (cs : List Char) : Step :=
  match measure (s.enter cs) 0 0 0 cs with
  | .ok (s, column, rest) => lineHead s column rest
  | .error fault => .error fault

def isSpace (c : Char) : Bool := c == ' ' || c == '\t' || c == '\x0c'

def codeToken (s : State) (c : Char) (more : List Char) : Step :=
  if isAsciiLetter c || isWide c then
    match afterPrefix ⟨false, false, false, false⟩ (c :: more) with
    | some quoted => stringToken s (c :: more) quoted
    | none => nameToken s (c :: more)
  else if isAsciiDigit c || (c == '.' && (more.head?.map isAsciiDigit).getD false) then
    numberToken s (c :: more)
  else if isQuote c then stringToken s (c :: more) (c :: more)
  else punctToken s c more

/-- What a text without blanks before it begins with. -/
def tokenStep (s : State) : List Char → Step
  | [] => .error s.early
  | '#' :: more => .ok ([], s, more.dropWhile (· != '\n'))
  | '\n' :: more =>
    .ok (if s.brackets.isEmpty then [s.token .newline] else [], { s with fresh := true }, more)
  | '\\' :: '\n' :: more =>
    if more.isEmpty then .error s.early else .ok ([], { s with line := s.line + 1 }, more)
  | '\\' :: _ => .error s.yielding
  | c :: more => codeToken s c more

def inLine (s : State) (cs : List Char) : Step := tokenStep s (cs.dropWhile isSpace)

def step (s : State) (cs : List Char) : Step := if s.fresh then lineStart s cs else inLine s cs

def State.done (s : State) (cs : List Char) : Bool := !s.fresh && cs.isEmpty && s.brackets.isEmpty

/-- All tokens from a state on. Two steps consume a character at least, until the end. -/
def loop : Nat → State → List Char → Array Token → Lexed
  | 0, s, _, acc => ⟨acc, some s.decisive⟩
  | fuel + 1, s, cs, acc =>
    if s.done cs then ⟨acc.push (s.token .endmarker), none⟩
    else match step s cs with
      | .error fault => ⟨acc, some fault⟩
      | .ok (tokens, s, rest) => loop fuel s rest (acc ++ tokens)

def State.start (firstLine : Nat) : State := ⟨firstLine - 1, true, [(0, 0)], []⟩

end Lexer

/-- The tokens of a text whose first line has the given number. -/
def lex (firstLine : Nat) (text : List Char) : Lexed :=
  let cs := unifyLineEnds text
  Lexer.loop (2 * cs.length + 2) (.start firstLine) cs #[]

end NotebookSlice.Syntax
