import NotebookSlice.Syntax.Lexer
import NotebookSlice.Syntax.Tree

/-! # String literals

The value of adjacent string literals: a plain literal, or a template when one
of them has replacement fields. Escapes must be complete, fields must be closed,
and texts and byte strings do not mix.
-/

namespace NotebookSlice.Syntax.StringLiteral

open Text

/-- Where a fault in a literal is placed: at a line, or where the parser stands. -/
inductive Misplaced | here | at (line : Nat)
  deriving DecidableEq, Repr

/-- How the letters before the quote change the meaning of a literal, and its contents. -/
structure Parts where
  bytes : Bool
  raw : Bool
  template : Bool
  body : List Char

/-- What stands between the quotes of a literal, which are single or tripled. -/
def stripQuotes : List Char → List Char
  | q :: rest =>
    let inner := rest.dropLast
    match inner with
    | a :: b :: more =>
      if a == q && b == q && 4 ≤ inner.length then more.dropLast.dropLast else inner
    | _ => inner
  | [] => []

def splitPrefix (p : Parts) : List Char → Parts
  | [] => p
  | c :: cs =>
    if Lexer.isQuote c then { p with body := stripQuotes (c :: cs) }
    else if c == 'b' || c == 'B' then splitPrefix { p with bytes := true } cs
    else if c == 'r' || c == 'R' then splitPrefix { p with raw := true } cs
    else if c == 'f' || c == 'F' then splitPrefix { p with template := true } cs
    else splitPrefix p cs

def partsOf (text : List Char) : Parts := splitPrefix ⟨false, false, false, []⟩ text

/-- Do the first `n` characters exist, and are they hexadecimal digits? -/
def allHex (n : Nat) (cs : List Char) : Bool :=
  (cs.take n).length = n && (cs.take n).all fun c => (hexDigit? c).isSome

def isCharacterName (name : List Char) : Bool :=
  !name.isEmpty && name.all fun c =>
    (isAsciiLetter c && c != '_') || isAsciiDigit c || c == ' ' || c == '-'

def escapesComplete : List Char → Bool
  | [] => true
  | '\\' :: 'x' :: cs => allHex 2 cs && escapesComplete cs
  | '\\' :: 'u' :: cs => allHex 4 cs && escapesComplete cs
  | '\\' :: 'U' :: cs => allHex 8 cs && hexValue (cs.take 8) ≤ 0x10FFFF && escapesComplete cs
  | '\\' :: 'N' :: '{' :: cs =>
    cs.contains '}' && isCharacterName (cs.takeWhile (· != '}')) && escapesComplete cs
  | '\\' :: 'N' :: _ => false
  | '\\' :: _ :: cs => escapesComplete cs
  | _ :: cs => escapesComplete cs

def byteEscapesComplete : List Char → Bool
  | [] => true
  | '\\' :: 'x' :: cs => allHex 2 cs && byteEscapesComplete cs
  | '\\' :: _ :: cs => byteEscapesComplete cs
  | _ :: cs => byteEscapesComplete cs

structure Run where
  text : List Char
  /-- did it end in a doubled brace, so that more literal text may follow? -/
  doubled : Bool
  rest : List Char

def Run.push (c : Char) (r : Run) : Run := { r with text := c :: r.text }

def isBrace (c : Char) : Bool := c == '{' || c == '}'

/-- Literal text up to a field, a closing brace or the end. Doubled braces count only at the
top; a single closing brace there is a fault. -/
def literalRun (raw top : Bool) : (inName : Bool) → List Char → Option Run
  | _, [] => some ⟨[], false, []⟩
  | true, c :: cs => (literalRun raw top (c != '}') cs).map (.push c)
  | false, '\\' :: 'N' :: '{' :: cs =>
    if raw then
      if top && cs.head? = some '{' then some ⟨['\\', 'N', '{'], true, cs.drop 1⟩
      else some ⟨['\\', 'N'], false, '{' :: cs⟩
    else (literalRun raw top true cs).map fun r => ((r.push '{').push 'N').push '\\'
  | false, '\\' :: c :: cs =>
    if raw || isBrace c then
      (literalRun raw top false (c :: cs)).map (.push '\\')
    else (literalRun raw top false cs).map fun r => (r.push c).push '\\'
  | false, c :: cs =>
    if isBrace c then
      if top && cs.head? = some c then some ⟨[c], true, cs.drop 1⟩
      else if top && c == '}' then none
      else some ⟨[], false, c :: cs⟩
    else (literalRun raw top false cs).map (.push c)

def twoAhead (q : Char) : List Char → Bool
  | a :: b :: _ => a == q && b == q
  | _ => false

/-- Do the two characters make a comparison, so that the first ends no expression? -/
def isOperator (c d : Char) : Bool :=
  d == '=' && (c == '!' || c == '=' || c == '<' || c == '>')

/-- Does the character end an expression outside all brackets? -/
def endsField (c : Char) : Bool := c == '!' || c == ':' || c == '}' || c == '='

/-- The expression of a field, and the text from the character that ends it. Inside, brackets
must match, strings must be closed, and backslashes and comments are faults. -/
def expressionRun : (skip : Nat) → (quote : Option (Char × Bool)) → (brackets : List Char) →
    List Char → Option (List Char × List Char)
  | _, _, _, [] => none
  | skip + 1, quote, open_, c :: cs =>
    (expressionRun skip quote open_ cs).map fun (e, r) => (c :: e, r)
  | 0, quote, open_, c :: cs =>
    let go (skip : Nat) (quote : Option (Char × Bool)) (open_ : List Char) :=
      (expressionRun skip quote open_ cs).map fun (e, r) => (c :: e, r)
    if c == '\\' then none
    else match quote with
      | some (q, triple) =>
        if c == q then
          if triple then (if twoAhead q cs then go 2 none open_ else go 0 quote open_)
          else go 0 none open_
        else go 0 quote open_
      | none =>
        if Lexer.isQuote c then
          if twoAhead c cs then go 2 (some (c, true)) open_ else go 0 (some (c, false)) open_
        else if Lexer.isOpening c then
          if Lexer.maxBrackets ≤ open_.length then none else go 0 none (c :: open_)
        else if c == '#' then none
        else if open_.isEmpty && (endsField c || c == '<' || c == '>') then
          if (cs.head?.map (isOperator c)).getD false then go 1 none open_
          else if c == '<' || c == '>' then go 0 none open_
          else some ([], c :: cs)
        else if Lexer.isClosing c then
          match open_ with
          | [] => none
          | o :: more => if Lexer.closer o == c then go 0 none more else none
        else go 0 none open_

def isSpaceInField (c : Char) : Bool := c == ' ' || c == '\t' || c == '\n' || c == '\x0c'

def isAsciiSpace (c : Char) : Bool := c == ' ' || (9 ≤ c.toNat && c.toNat ≤ 13)

def newlines (s : List Char) : Nat := s.count '\n'

def maxFieldDepth : Nat := 2

/-- Parses a replacement field's expression; the number is the line its brace stands on. -/
abbrev FieldReader := Nat → List Char → Except Nat Expr

/-- The conversion after an expression, and the text after it. -/
def conversion? : List Char → Except Misplaced (Option Char × List Char)
  | '!' :: c :: rest =>
    if c == 's' || c == 'r' || c == 'a' then .ok (some c, rest) else .error .here
  | ['!'] => .error .here
  | rest => .ok (none, rest)

/-- The parts of a template up to its end, or up to the brace that closes a format
specification; with the rest and its line. -/
def templateParts (read : FieldReader) (raw : Bool) : (fuel : Nat) → (depth line : Nat) →
    List Char → Except Misplaced (List Expr × Nat × List Char)
  | 0, _, _, _ => .error .here
  | fuel + 1, depth, line, cs => do
    match literalRun raw (depth = 0) false cs with
    | none => .error .here
    | some run =>
      if !raw && !escapesComplete run.text then .error .here
      else
        let next := line + newlines run.text
        let literal :=
          if run.text.isEmpty then [] else [Expr.literal line (String.ofList run.text)]
        if run.doubled then
          let (parts, last, rest) ← templateParts read raw fuel depth next run.rest
          return (literal ++ parts, last, rest)
        else match run.rest with
          | '{' :: body =>
            if maxFieldDepth ≤ depth then .error .here
            else match expressionRun 0 none [] body with
              | none => .error .here
              | some (source, after) =>
                if source.all isSpaceInField then .error .here
                else
                  let value ← (read next ('(' :: source ++ [')'])).mapError .at
                  let (after, shown) := match after with
                    | '=' :: r => (r.dropWhile isAsciiSpace, r.takeWhile isAsciiSpace)
                    | r => (r, [])
                  let after' := next + newlines source + newlines shown
                  let (conversion, after) ← conversion? after
                  let (spec, last, after) ← match after with
                    | ':' :: r => do
                      if r.isEmpty then .error .here
                      let (parts, last, r) ← templateParts read raw fuel (depth + 1) after' r
                      pure (some (Expr.template line parts), last, r)
                    | r => pure (none, after', r)
                  match after with
                  | '}' :: r =>
                    let (parts, last, rest) ← templateParts read raw fuel depth last r
                    return (literal ++ .field next value conversion spec :: parts, last, rest)
                  | _ => .error .here
          | rest => return (literal, next, rest)

/-- The expression that adjacent literals, each with its line, stand for. -/
def value (read : FieldReader) (literals : List (Nat × List Char)) : Except Misplaced Expr := do
  let firstLine := (literals.head?.map (·.1)).getD 1
  let bytesMode := (literals.head?.map fun l => (partsOf l.2).bytes).getD false
  let step (acc : Bool × List Expr) (l : Nat × List Char) :
      Except Misplaced (Bool × List Expr) := do
    let (line, text) := l
    let p := partsOf text
    let plain := p.raw || !text.contains '\\'
    if p.bytes && text.any isWide then .error (.at line)
    if !p.template && !plain &&
        !(if p.bytes then byteEscapesComplete p.body else escapesComplete p.body) then
      .error .here
    if p.bytes != bytesMode then .error .here
    if p.template then
      let (parts, _, _) ← templateParts read p.raw (p.body.length + 2) 0 line p.body
      return (true, acc.2 ++ parts)
    else return (acc.1, acc.2 ++ [.literal line (String.ofList text)])
  let (isTemplate, parts) ← literals.foldlM step (false, [])
  if isTemplate then return .template firstLine parts
  else return .literal firstLine (String.ofList (literals.map (·.2)).flatten)

end NotebookSlice.Syntax.StringLiteral
