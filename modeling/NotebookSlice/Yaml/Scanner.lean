import NotebookSlice.Yaml.Token
import NotebookSlice.Text.CodeRanges

/-! # Scanning YAML

From text to tokens. A mapping key is recognized only at the colon after it, so
places where a key may have begun are kept, and its token is put there later.
-/

namespace NotebookSlice.Yaml

structure Candidate where
  /-- the number of tokens before it -/
  slot : Nat
  /-- nothing but a key fits here -/
  required : Bool
  index : Nat
  line : Nat
  column : Nat

/-- What goes in front of a token that turns out to begin a key. -/
inductive Mark
  | none
  | key
  | mapping
  deriving DecidableEq

structure Scanner where
  rest : List Char
  index : Nat
  line : Nat
  column : Nat
  /-- the column of the open block, and the columns of those around it -/
  indent : Int
  outer : List Int
  /-- how many brackets are open -/
  depth : Nat
  keyAllowed : Bool
  /-- at most one candidate for each depth -/
  candidates : List (Nat × Candidate)
  /-- the tokens so far, with what goes in front of them -/
  tokens : Array (Mark × Token)

abbrev Scan := StateT Scanner (Except ReadError)

namespace Scan

def fail {α : Type} : Scan α := throw .malformed

/-! ## Characters -/

def peekAt (n : Nat) : Scan Char := return ((← get).rest.drop n).headD endMark

def peek : Scan Char := peekAt 0

def step (s : Scanner) : Scanner :=
  match s.rest with
  | [] => s
  | c :: cs =>
    if isBreak c then { s with rest := cs, index := s.index + 1, line := s.line + 1, column := 0 }
    else if c == '\uFEFF' then { s with rest := cs, index := s.index + 1 }
    else { s with rest := cs, index := s.index + 1, column := s.column + 1 }

def skip (n : Nat) : Scan Unit := modify fun s => n.repeat step s

def take (n : Nat) : Scan (List Char) := do
  let cs := (← get).rest.take n
  skip n
  return cs

def takeWhile (p : Char → Bool) : Scan (List Char) := do
  take ((← get).rest.takeWhile p).length

/-- The line break here, passed over; nothing if there is none. -/
def lineBreak : Scan (List Char) := do
  let c ← peek
  if isBreak c then
    skip 1
    return [if c == '\x85' then '\n' else c]
  else return []

/-- A bound for loops each round of which passes over some character. -/
def bound : Scan Nat := return (← get).rest.length + 1

def atMarker (mark : List Char) : Scan Bool := do
  let cs := (← get).rest
  return cs.take 3 == mark && isGap ((cs.drop 3).headD endMark)

def atAnyMarker : Scan Bool := do
  return (← atMarker ['-', '-', '-']) || (← atMarker ['.', '.', '.'])

/-- Passes over spaces, comments and line breaks before a token. -/
def skipToToken : Nat → Scan Unit
  | 0 => return
  | rounds + 1 => do
    let _ ← takeWhile (· == ' ')
    if (← peek) == '#' then
      let _ ← takeWhile fun c => !isLineEnd c
    if (← lineBreak).isEmpty then return
    modify fun s => if s.depth = 0 then { s with keyAllowed := true } else s
    skipToToken rounds

/-! ## Keys and blocks -/

def push (t : Token) : Scan Unit := modify fun s => { s with tokens := s.tokens.push (.none, t) }

def allowKey (b : Bool) : Scan Unit := modify fun s => { s with keyAllowed := b }

def candidate? : Scan (Option Candidate) := return (← get).candidates.lookup (← get).depth

def dropCandidate : Scan Unit := do
  match ← candidate? with
  | none => return
  | some c =>
    if c.required then fail
    modify fun s => { s with candidates := s.candidates.filter (·.1 != s.depth) }

/-- Gives up the candidates that cannot be keys any more: a key ends on its line and is short. -/
def dropStale : Scan Unit := do
  let s ← get
  let stale (e : Nat × Candidate) : Bool := e.2.line != s.line || s.index > e.2.index + 1024
  if s.candidates.any fun e => stale e && e.2.required then fail
  set { s with candidates := s.candidates.filter fun e => !stale e }

def saveCandidate : Scan Unit := do
  let s ← get
  if s.keyAllowed then
    dropCandidate
    let required := s.depth == 0 && s.indent == s.column
    let c : Candidate := ⟨s.tokens.size, required, s.index, s.line, s.column⟩
    modify fun s => { s with candidates := (s.depth, c) :: s.candidates }

private def closeBlocks (column : Int) : List Int → Int → Array (Mark × Token) →
    List Int × Int × Array (Mark × Token)
  | outer, indent, tokens =>
    match outer with
    | [] => ([], indent, tokens)
    | next :: outer =>
      if column < indent then closeBlocks column outer next (tokens.push (.none, .blockEnd))
      else (next :: outer, indent, tokens)

/-- Closes the blocks that are indented more than the given column. -/
def unwind (column : Int) : Scan Unit := modify fun s =>
  if s.depth ≠ 0 then s
  else
    let (outer, indent, tokens) := closeBlocks column s.outer s.indent s.tokens
    { s with outer, indent, tokens }

/-- Opens a block at a column that is indented more than the open one. -/
def openBlock (column : Nat) : Scan Bool := do
  let s ← get
  if s.indent < column then
    set { s with indent := (column : Int), outer := s.indent :: s.outer }
    return true
  else return false

/-! ## Directives, anchors and tags -/

private def textOf (cs : List Char) : String := String.ofList cs

private def natOf (cs : List Char) : Nat := cs.foldl (fun n c => 10 * n + (c.toNat - 48)) 0

private def number : Scan Nat := do
  let ds ← takeWhile Char.isDigit
  if ds.isEmpty then fail
  return natOf ds

/-- A handle: exclamation marks around a word that may be missing. -/
def tagHandle : Scan String := do
  if (← peek) != '!' then fail
  let cs := (← get).rest.drop 1
  if cs.headD endMark == ' ' then return textOf (← take 1)
  let word := cs.takeWhile isWordChar
  match cs.drop word.length with
  | '!' :: _ => return textOf (← take (word.length + 2))
  | _ => fail

def escapedBytes : Nat → Scan (List UInt8)
  | 0 => return []
  | rounds + 1 => do
    if (← peek) != '%' then return []
    match Text.hexDigit? (← peekAt 1), Text.hexDigit? (← peekAt 2) with
    | some a, some b =>
      skip 3
      return UInt8.ofNat (16 * a + b) :: (← escapedBytes rounds)
    | _, _ => fail

def tagUri : Nat → Scan (List Char)
  | 0 => return []
  | rounds + 1 => do
    let cs ← takeWhile isUriChar
    if (← peek) == '%' then
      match String.fromUTF8? (ByteArray.mk (← escapedBytes (← bound)).toArray) with
      | some s => return cs ++ s.toList ++ (← tagUri rounds)
      | none => fail
    else return cs

def uri : Scan String := do
  let cs ← tagUri (← bound)
  if cs.isEmpty then fail
  return textOf cs

/-- The rest of a line that holds nothing but a comment. -/
def ignoredLine : Scan Unit := do
  let _ ← takeWhile (· == ' ')
  if (← peek) == '#' then
    let _ ← takeWhile fun c => !isLineEnd c
  if !isLineEnd (← peek) then fail
  let _ ← lineBreak

def directive : Scan Token := do
  skip 1
  let name ← takeWhile isWordChar
  if name.isEmpty || !isSpace (← peek) then fail
  let d ← match textOf name with
    | "YAML" => do
      let _ ← takeWhile (· == ' ')
      let major ← number
      if (← peek) != '.' then fail
      skip 1
      let minor ← number
      if !isSpace (← peek) then fail
      pure (Directive.version major minor)
    | "TAG" => do
      let _ ← takeWhile (· == ' ')
      let handle ← tagHandle
      if (← peek) != ' ' then fail
      let _ ← takeWhile (· == ' ')
      let uri ← uri
      if !isSpace (← peek) then fail
      pure (Directive.tag handle uri)
    | _ => do
      let _ ← takeWhile fun c => !isLineEnd c
      pure Directive.unknown
  ignoredLine
  return .directive d

/-- The name of an anchor or an alias, after its mark. -/
def anchorName : Scan String := do
  skip 1
  let name ← takeWhile isWordChar
  let c ← peek
  if name.isEmpty || !(isGap c || "?:,]\x7d%@\x60".toList.contains c) then fail
  return textOf name

def tag : Scan Token := do
  let next ← peekAt 1
  let t ←
    if next == '<' then do
      skip 2
      let suffix ← uri
      if (← peek) != '>' then fail
      skip 1
      pure (Token.tag none suffix)
    else if isGap next then do
      skip 1
      pure (Token.tag none "!")
    else do
      let word := ((← get).rest.drop 1).takeWhile fun c => !isSpace c
      let handle ← if word.contains '!' then tagHandle else do
        skip 1
        pure "!"
      pure (Token.tag (some handle) (← uri))
  if !isSpace (← peek) then fail
  return t

/-! ## Scalars -/

/-- The length of the piece of a plain scalar that begins here. -/
def plainLength (inFlow : Bool) : List Char → Nat
  | [] => 0
  | c :: cs =>
    let next := cs.headD endMark
    if isGap c || (c == ':' && (isGap next || (inFlow && ",[]\x7b\x7d".toList.contains next))) ||
        (inFlow && ",?[]\x7b\x7d".toList.contains c) then 0
    else 1 + plainLength inFlow cs

/-- Further line breaks with spaces among them; nothing at a document marker. -/
def plainBreaks : Nat → Scan (Option (List Char))
  | 0 => return some []
  | rounds + 1 => do
    let c ← peek
    if c == ' ' then
      skip 1
      plainBreaks rounds
    else if isBreak c then
      let b ← lineBreak
      if ← atAnyMarker then return none
      return (← plainBreaks rounds).map (b ++ ·)
    else return some []

/-- A line break stands for a space, unless others follow it. -/
def folded (lineBreak breaks : List Char) : List Char :=
  (if lineBreak != ['\n'] then lineBreak else if breaks.isEmpty then [' '] else []) ++ breaks

/-- What stands for the space inside a plain scalar; nothing if the scalar ends here. -/
def plainSpaces : Scan (List Char) := do
  let spaces ← takeWhile (· == ' ')
  if !isBreak (← peek) then return spaces
  let b ← lineBreak
  allowKey true
  if ← atAnyMarker then return []
  match ← plainBreaks (← bound) with
  | none => return []
  | some breaks => return folded b breaks

def plainPieces (indent : Int) : Nat → List Char → Scan (List Char)
  | 0, _ => return []
  | rounds + 1, spaces => do
    if (← peek) == '#' then return []
    let s ← get
    let length := plainLength (s.depth != 0) s.rest
    if length = 0 then return []
    allowKey false
    let piece ← take length
    let next ← plainSpaces
    let s ← get
    if next.isEmpty || (← peek) == '#' || (s.depth == 0 && s.column < indent) then
      return spaces ++ piece
    return spaces ++ piece ++ (← plainPieces indent rounds next)

def plain : Scan Token := do
  return .scalar (textOf (← plainPieces ((← get).indent + 1) (← bound) [])) true

/-- What is left of the line breaks at the end of a block scalar. -/
inductive Chomping | clip | strip | keep
  deriving DecidableEq

private def chompingOf? (c : Char) : Option Chomping :=
  if c == '+' then some .keep else if c == '-' then some .strip else none

private def incrementOf? (c : Char) : Scan (Option Nat) :=
  if c == '0' then fail else return if c.isDigit then some (c.toNat - 48) else none

def blockHeader : Scan (Chomping × Option Nat) := do
  let c ← peek
  let header ← match chompingOf? c with
    | some chomping => do
      skip 1
      let increment ← incrementOf? (← peek)
      if increment.isSome then skip 1
      pure (chomping, increment)
    | none => do
      let increment ← incrementOf? c
      if increment.isNone then pure (Chomping.clip, none)
      else do
        skip 1
        match chompingOf? (← peek) with
        | some chomping => do
          skip 1
          pure (chomping, increment)
        | none => pure (Chomping.clip, increment)
  if !isSpace (← peek) then fail
  return header

/-- Blank lines before a block scalar, and the widest indentation among them. -/
def blockIndentation : Nat → Nat → Scan (List Char × Nat)
  | 0, widest => return ([], widest)
  | rounds + 1, widest => do
    let c ← peek
    if c == ' ' then
      skip 1
      blockIndentation rounds (max widest (← get).column)
    else if isBreak c then
      let b ← lineBreak
      let (bs, widest) ← blockIndentation rounds widest
      return (b ++ bs, widest)
    else return ([], widest)

def skipIndent (indent : Nat) : Scan Unit := do
  let s ← get
  skip (min (indent - s.column) (s.rest.takeWhile (· == ' ')).length)

def blockBreaks (indent : Nat) : Nat → Scan (List Char)
  | 0 => return []
  | rounds + 1 => do
    skipIndent indent
    if isBreak (← peek) then
      let b ← lineBreak
      return b ++ (← blockBreaks indent rounds)
    else return []

/-- The lines of a block scalar from the one here on, with the break after the last of them and the
blank lines after that. -/
def blockLines (fold : Bool) (indent : Nat) : Nat → Scan (List Char × List Char × List Char)
  | 0 => return ([], [], [])
  | rounds + 1 => do
    let isText (c : Char) : Bool := c != ' ' && c != '\t'
    let leading := isText (← peek)
    let line ← takeWhile fun c => !isLineEnd c
    let b ← lineBreak
    let breaks ← blockBreaks indent (← bound)
    let s ← get
    if s.column == indent && !s.rest.isEmpty then
      let between :=
        if fold && b == ['\n'] && leading && isText (← peek) then
          if breaks.isEmpty then [' '] else []
        else b
      let (more, last, tail) ← blockLines fold indent rounds
      return (line ++ between ++ breaks ++ more, last, tail)
    else return (line, b, breaks)

def blockScalar (fold : Bool) : Scan Token := do
  skip 1
  let (chomping, increment) ← blockHeader
  ignoredLine
  let least := (max 1 ((← get).indent + 1)).toNat
  let (indent, first) ← match increment with
    | some n => do
      let indent := least + n - 1
      pure (indent, ← blockBreaks indent (← bound))
    | none => do
      let (first, widest) ← blockIndentation (← bound) 0
      pure (max least widest, first)
  let s ← get
  if s.column == indent && !s.rest.isEmpty then
    let (text, last, tail) ← blockLines fold indent (← bound)
    return .scalar (textOf (first ++ text ++ (match chomping with
      | .strip => []
      | .clip => last
      | .keep => last ++ tail))) false
  else return .scalar (textOf (if chomping == .keep then first else [])) false

def escapes : List (Char × Char) :=
  [('0', '\x00'), ('a', '\x07'), ('b', '\x08'), ('t', '\t'), ('\t', '\t'), ('n', '\n'),
    ('v', '\x0b'), ('f', '\x0c'), ('r', '\r'), ('e', '\x1b'), (' ', ' '), ('"', '"'),
    ('\\', '\\'), ('/', '/'), ('N', '\x85'), ('_', '\xa0'), ('L', '\u2028'), ('P', '\u2029')]

def escapeWidths : List (Char × Nat) := [('x', 2), ('u', 4), ('U', 8)]

/-- Blank lines inside a quoted scalar; no document marker may begin one. -/
def quotedBreaks : Nat → Scan (List Char)
  | 0 => return []
  | rounds + 1 => do
    if ← atAnyMarker then fail
    let _ ← takeWhile fun c => c == ' ' || c == '\t'
    if isBreak (← peek) then
      let b ← lineBreak
      return b ++ (← quotedBreaks rounds)
    else return []

def escape : Scan (List Char) := do
  let c ← peek
  match escapes.lookup c, escapeWidths.lookup c with
  | some e, _ =>
    skip 1
    return [e]
  | none, some width =>
    skip 1
    let ds ← take width
    if ds.length < width || !ds.all (fun d => (Text.hexDigit? d).isSome) then fail
    let n := Text.hexValue ds
    if 0x110000 ≤ n then throw .badNumber
    return [if n.isValidChar then Char.ofNat n else '\uFFFD']
  | none, none =>
    if isBreak c then
      let _ ← lineBreak
      quotedBreaks (← bound)
    else fail

/-- Characters of a quoted scalar up to a space or the closing quote. -/
def quotedText (quote : Char) : Nat → Scan (List Char)
  | 0 => return []
  | rounds + 1 => do
    let cs ← takeWhile fun c => !(isGap c || c == '\'' || c == '"' || c == '\\')
    let c ← peek
    if c == quote then
      if quote == '\'' && (← peekAt 1) == '\'' then
        skip 2
        return cs ++ '\'' :: (← quotedText quote rounds)
      else return cs
    else if c == '\\' && quote == '"' then
      skip 1
      let e ← escape
      return cs ++ e ++ (← quotedText quote rounds)
    else if c == '\'' || c == '"' || c == '\\' then
      skip 1
      return cs ++ c :: (← quotedText quote rounds)
    else return cs

def quotedSpaces : Scan (List Char) := do
  let spaces ← takeWhile fun c => c == ' ' || c == '\t'
  if (← get).rest.isEmpty then fail
  if isBreak (← peek) then
    let b ← lineBreak
    return folded b (← quotedBreaks (← bound))
  else return spaces

def quotedPieces (quote : Char) : Nat → Scan (List Char)
  | 0 => fail
  | rounds + 1 => do
    let cs ← quotedText quote (← bound)
    if (← peek) == quote then return cs
    let spaces ← quotedSpaces
    return cs ++ spaces ++ (← quotedPieces quote rounds)

def quotedScalar (quote : Char) : Scan Token := do
  skip 1
  let cs ← quotedPieces quote (← bound)
  skip 1
  return .scalar (textOf cs) false

/-! ## Tokens -/

def keyLike (token : Scan Token) : Scan Unit := do
  saveCandidate
  allowKey false
  push (← token)

def document (token : Scan Token) : Scan Unit := do
  unwind (-1)
  dropCandidate
  allowKey false
  push (← token)

def openBracket (t : Token) : Scan Unit := do
  saveCandidate
  modify fun s => { s with depth := s.depth + 1 }
  allowKey true
  skip 1
  push t

def closeBracket (t : Token) : Scan Unit := do
  dropCandidate
  if (← get).depth = 0 then fail
  modify fun s => { s with depth := s.depth - 1 }
  allowKey false
  skip 1
  push t

/-- The mark of an entry or of an explicit key, which may open a block. -/
def blockMark (opening t : Token) (allow : Bool) : Scan Unit := do
  let s ← get
  if s.depth = 0 then
    if !s.keyAllowed then fail
    if ← openBlock s.column then push opening
  allowKey allow
  dropCandidate
  skip 1
  push t

/-- A colon: what began at the candidate was a key. -/
def valueMark : Scan Unit := do
  match ← candidate? with
  | some c =>
    modify fun s => { s with candidates := s.candidates.filter (·.1 != s.depth) }
    let opens ← if (← get).depth = 0 then openBlock c.column else pure false
    let mark : Mark := if opens then .mapping else .key
    modify fun s => { s with tokens := s.tokens.modify c.slot fun t => (mark, t.2) }
    allowKey false
    skip 1
    push .value
  | none => blockMark .blockMapping .value ((← get).depth == 0)

/-- Scans one token, or some tokens that belong together; `false` at the end of the text. -/
def next : Scan Bool := do
  skipToToken (← bound)
  dropStale
  unwind (← get).column
  let s ← get
  let c ← peek
  let after ← peekAt 1
  let inFlow := s.depth != 0
  if s.rest.isEmpty then
    unwind (-1)
    dropCandidate
    push .streamEnd
    return false
  if c == '%' && s.column == 0 then document directive
  else if s.column == 0 && (← atMarker ['-', '-', '-']) then
    document do
      skip 3
      pure .documentStart
  else if s.column == 0 && (← atMarker ['.', '.', '.']) then
    document do
      skip 3
      pure .documentEnd
  else if c == '[' then openBracket .sequenceStart
  else if c == '\x7b' then openBracket .mappingStart
  else if c == ']' then closeBracket .sequenceEnd
  else if c == '\x7d' then closeBracket .mappingEnd
  else if c == ',' then
    allowKey true
    dropCandidate
    skip 1
    push .comma
  else if c == '-' && isGap after then blockMark .blockSequence .entry true
  else if c == '?' && (inFlow || isGap after) then blockMark .blockMapping .key (!inFlow)
  else if c == ':' && (inFlow || isGap after) then valueMark
  else if c == '*' then keyLike (do return .alias (← anchorName))
  else if c == '&' then keyLike (do return .anchor (← anchorName))
  else if c == '!' then keyLike tag
  else if (c == '|' || c == '>') && !inFlow then
    allowKey true
    dropCandidate
    push (← blockScalar (c == '>'))
  else if c == '\'' || c == '"' then keyLike (quotedScalar c)
  else if !(isGap c || "-?:,[]\x7b\x7d#&*!|>'\"%@\x60".toList.contains c) ||
      (!isGap after && (c == '-' || (!inFlow && (c == '?' || c == ':')))) then keyLike plain
  else fail
  return true

def all : Nat → Scan Unit
  | 0 => fail
  | rounds + 1 => do if ← next then all rounds

end Scan

private def expand : Mark × Token → List Token
  | (.none, t) => [t]
  | (.key, t) => [.key, t]
  | (.mapping, t) => [.blockMapping, .key, t]

def tokens (text : List Char) : Except ReadError (List Token) := do
  if !text.all isAllowed then throw .malformed
  let text := match text with
    | '\uFEFF' :: cs => cs
    | cs => cs
  let start : Scanner := ⟨text, 0, 0, 0, -1, [], 0, true, [], #[]⟩
  let ((), s) ← (Scan.all (text.length + 2)).run start
  return s.tokens.toList.flatMap expand

end NotebookSlice.Yaml
