import NotebookSlice.Syntax.Lexer
import NotebookSlice.Syntax.Legal

/-! # Parsers

A parser reads tokens from a position and succeeds, fails or raises a fault.
Alternatives are ordered, and results of nonterminals are remembered by position.
A fault ends the whole parse; its line may be the last one looked at, so a
parser also keeps how far it has looked.
-/

namespace NotebookSlice.Syntax

/-- The nonterminals of the grammar that occur below themselves, or are worth remembering. -/
inductive Nonterminal
  | file | replacement
  | simpleStatement | block | elifClause
  | expression | starExpression | disjunction | conjunction | inversion
  | bitwiseOr | bitwiseXor | bitwiseAnd | shift | sum | term | factor | awaitPrimary | primary
  | strings | arguments | misplacedAssignment
  | starTarget | unparenthesizedTarget | targetPrimary | deleteTarget | singleTarget
  | annotationTarget
  | closedPattern | starPattern | attributePath | dottedName
  deriving DecidableEq, Repr

structure CallArguments where
  positional : List Expr
  keywords : List Argument

namespace Nonterminal

@[reducible] def Out : Nonterminal → Type
  | file => LegalStmts
  | block | elifClause => Suite
  | simpleStatement => LegalStmt
  | arguments => CallArguments
  | closedPattern | starPattern => Pattern
  | dottedName => String
  | _ => Expr

def isRemembered : Nonterminal → Bool
  | file | replacement | elifClause | singleTarget | annotationTarget => false
  | _ => true

end Nonterminal

/-- A fault: its line, the number of tokens looked at by then, and whether it is lexical. -/
structure Fault where
  line : Nat
  reached : Nat
  lexical : Bool
  deriving DecidableEq, Repr

structure Input where
  lexed : Lexed
  /-- are the alternatives tried that recognise faulty code in order to place the fault? -/
  diagnosing : Bool

/-- A remembered result: a value and the position after it, or failure. -/
structure Memory.Entry where
  nonterminal : Nonterminal
  result : Option (nonterminal.Out × Nat)

structure Memory where
  /-- the number of tokens looked at -/
  reached : Nat
  /-- the remembered results, by position -/
  entries : Array (List Memory.Entry)

namespace Memory

def empty (size : Nat) : Memory := ⟨0, Array.replicate (size + 2) []⟩

def reach (m : Memory) (n : Nat) : Memory := { m with reached := max m.reached n }

/-- The first result of a nonterminal among those of a position. -/
def lookup (n : Nonterminal) : List Entry → Option (Option (n.Out × Nat))
  | [] => none
  | e :: es => if h : e.nonterminal = n then some (h ▸ e.result) else lookup n es

/-- The remembered result of a nonterminal at a position. -/
def find? (m : Memory) (n : Nonterminal) (pos : Nat) : Option (Option (n.Out × Nat)) :=
  lookup n ((m.entries[pos]?).getD [])

def insert (m : Memory) (n : Nonterminal) (pos : Nat) (result : Option (n.Out × Nat)) : Memory :=
  let ⟨reached, entries⟩ := m
  ⟨reached, entries.modify pos (⟨n, result⟩ :: ·)⟩

end Memory

/-- The answer of a parser. A final failure also stops the alternatives of its rule. -/
inductive Reply (α : Type)
  | ok (value : α) (pos : Nat) (memory : Memory)
  | fail (final : Bool) (memory : Memory)
  | raised (fault : Fault)

def Parser (α : Type) : Type := Input → Nat → Memory → Reply α

namespace Parser

variable {α β : Type}

protected def pure (a : α) : Parser α := fun _ pos mem => .ok a pos mem

protected def bind (p : Parser α) (f : α → Parser β) : Parser β := fun input pos mem =>
  match p input pos mem with
  | .ok a pos mem => f a input pos mem
  | .fail final mem => .fail final mem
  | .raised fault => .raised fault

instance : Monad Parser where
  pure := Parser.pure
  bind := Parser.bind

def fail : Parser α := fun _ _ mem => .fail false mem

instance : Inhabited (Parser α) := ⟨fail⟩

protected def orElse (p : Parser α) (q : Unit → Parser α) : Parser α := fun input pos mem =>
  match p input pos mem with
  | .fail false mem => q () input pos mem
  | reply => reply

instance : OrElse (Parser α) := ⟨Parser.orElse⟩

def firstOf (ps : List (Parser α)) : Parser α := ps.foldr (fun p q => p <|> q) fail

/-- A grammar rule: final failures inside do not reach beyond it. -/
def rule (p : Parser α) : Parser α := fun input pos mem =>
  match p input pos mem with
  | .fail _ mem => .fail false mem
  | reply => reply

/-- After this point the rule has no other alternative. -/
def commit (p : Parser α) : Parser α := fun input pos mem =>
  match p input pos mem with
  | .fail _ mem => .fail true mem
  | reply => reply

def giveUp : Parser α := commit fail

/-- Tries the parser only while a fault is being placed. -/
def diagnose (p : Parser α) : Parser α := fun input pos mem =>
  if input.diagnosing then p input pos mem else .fail false mem

/-- Runs the parser as if no fault were being placed. -/
def plainly (p : Parser α) : Parser α := fun input pos mem =>
  p { input with diagnosing := false } pos mem

def peek : Parser Token := fun input pos mem =>
  let mem := mem.reach (pos + 1)
  match input.lexed.tokens[pos]? with
  | some t => .ok t pos mem
  | none =>
    match input.lexed.fault with
    | some f => .raised ⟨f.line, mem.reached, true⟩
    | none => .fail true mem

/-- Takes the token at the position if it is acceptable. -/
def accept (f : Token → Option α) : Parser α := fun input pos mem =>
  match peek input pos mem with
  | .ok t pos mem =>
    match f t with
    | some a => .ok a (pos + 1) mem
    | none => .fail false mem
  | .fail final mem => .fail final mem
  | .raised fault => .raised fault

def kind (k : Token.Kind) : Parser Token := accept fun t => if t.kind = k then some t else none

def sym (m : Punct) : Parser Token :=
  accept fun t => match t.kind with
    | .punct m' => if m' = m then some t else none
    | _ => none

def kw (k : Keyword) : Parser Token :=
  accept fun t => match t.kind with
    | .keyword k' => if k' = k then some t else none
    | _ => none

/-- Takes a name that is spelled like a soft keyword. -/
def soft (s : SoftKeyword) : Parser Token :=
  accept fun t => match t.kind with
    | .name _ (some s') => if s' = s then some t else none
    | _ => none

def name : Parser (Nat × String) :=
  accept fun t => match t.kind with
    | .name id _ => some (t.line, id)
    | _ => none

def ident : Parser String := do return (← name).2

def nameExpr (ctx : Context) : Parser Expr := do
  let (line, id) ← name
  return .name line ctx id

def newline : Parser Token := kind .newline

/-- The line of the token at the position; layout starts nothing. -/
def lineHere : Parser Nat := do
  let t ← peek
  if t.isLayout then fail else return t.line

/-- Where something starts: the line and the position. -/
structure Mark where
  line : Nat
  pos : Nat

/-- The start of what begins with the token at the position. -/
def startHere : Parser Mark := fun input pos mem =>
  match lineHere input pos mem with
  | .ok line next mem => .ok ⟨line, pos⟩ next mem
  | .fail final mem => .fail final mem
  | .raised fault => .raised fault

def previous : Parser (Option Token) := fun input pos mem =>
  .ok (if pos = 0 then none else input.lexed.tokens[pos - 1]?) pos mem

/-- The last line of the last token that is not layout, between the start and the position. -/
def lastLineFrom (tokens : Array Token) (start : Mark) : Nat → Nat
  | 0 => start.line
  | pos + 1 =>
    if pos < start.pos then start.line
    else match tokens[pos]? with
      | some t => if t.isLayout then lastLineFrom tokens start pos else t.lastLine
      | none => lastLineFrom tokens start pos

/-- The lines from the start to the last token before the position. -/
def spanFrom (start : Mark) : Parser Span := fun input pos mem =>
  .ok ⟨start.line, lastLineFrom input.lexed.tokens start pos⟩ pos mem

def raiseAt (line : Nat) : Parser α := fun _ _ mem => .raised ⟨line, mem.reached, false⟩

/-- Raises a fault at the line of the last token looked at. -/
def raiseHere : Parser α := fun input _ mem =>
  let line := ((input.lexed.tokens[mem.reached - 1]?).map (·.line)).getD 1
  .raised ⟨line, mem.reached, false⟩

/-- Succeeds without taking tokens if the parser would succeed. -/
def followedBy (p : Parser α) : Parser Unit := fun input pos mem =>
  match p input pos mem with
  | .ok _ _ mem => .ok () pos mem
  | .fail _ mem => .fail false mem
  | .raised fault => .raised fault

/-- Succeeds without taking tokens if the parser would fail. -/
def notFollowedBy (p : Parser α) : Parser Unit := fun input pos mem =>
  match p input pos mem with
  | .ok _ _ mem => .fail false mem
  | .fail _ mem => .ok () pos mem
  | .raised fault => .raised fault

def opt (p : Parser α) : Parser (Option α) := fun input pos mem =>
  match p input pos mem with
  | .ok a pos mem => .ok (some a) pos mem
  | .fail _ mem => .ok none pos mem
  | .raised fault => .raised fault

/-- The end of a parse that goes too deep or does not come forward. No text leads here. -/
def exhausted : Parser α := fun _ _ mem => .raised ⟨1, mem.reached, false⟩

/-- Repeats the parser a limited number of times; the results so far are in reverse. -/
def manyLoop (p : Parser α) : Nat → List α → Parser (List α)
  | 0, _ => exhausted
  | n + 1, acc => fun input pos mem =>
    match p input pos mem with
    | .ok a next mem =>
      if pos < next then manyLoop p n (a :: acc) input next mem else exhausted input pos mem
    | .fail _ mem => .ok acc.reverse pos mem
    | .raised fault => .raised fault

/-- As many as there are. The parser must take a token each time. -/
def many (p : Parser α) : Parser (List α) := fun input pos mem =>
  manyLoop p (input.lexed.tokens.size + 1) [] input pos mem

def many1 (p : Parser α) : Parser (List α) := do return (← p) :: (← many p)

def sepBy1 (p : Parser α) (sep : Parser β) : Parser (List α) := do
  let a ← p
  let as ← many (do let _ ← sep; p)
  return a :: as

def growLoop (step : α → Parser α) : Nat → α → Parser α
  | 0, _ => exhausted
  | n + 1, a => fun input pos mem =>
    match step a input pos mem with
    | .ok a pos mem => growLoop step n a input pos mem
    | .fail _ mem => .ok a pos mem
    | .raised fault => .raised fault

/-- Extends a result to the right as often as possible: a rule that begins with itself. -/
def grow (first : Parser α) (step : α → Parser α) : Parser α := fun input pos mem =>
  (do growLoop step (input.lexed.tokens.size + 1) (← first) : Parser α) input pos mem

/-- Looks the result of a nonterminal up before it runs the parser. -/
def remember (n : Nonterminal) (p : Parser n.Out) : Parser n.Out := fun input pos mem =>
  if n.isRemembered then
    match mem.find? n pos with
    | some (some (value, next)) => .ok value next mem
    | some none => .fail false mem
    | none =>
      match p input pos mem with
      | .ok value next mem => .ok value next (mem.insert n pos (some (value, next)))
      | .fail _ mem => .fail false (mem.insert n pos none)
      | .raised fault => .raised fault
  else rule p input pos mem

end Parser

/-- What the rules of the grammar are built over: the nonterminals, and the parser for a
replacement field of a string whose first line is given. -/
structure Engine where
  call : (n : Nonterminal) → Parser n.Out
  embedded : (firstLine : Nat) → List Char → Except Nat Expr

end NotebookSlice.Syntax
