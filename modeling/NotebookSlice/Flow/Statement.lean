import NotebookSlice.Flow.Names
import NotebookSlice.Cell.Code

/-! # Flow statements

The units that slices are made of. A compound statement is split into a header,
the clauses `else` and `finally`, and the statements of its blocks, so that a
slice can keep a guard without unrelated statements under it.
-/

namespace NotebookSlice.Flow

open Syntax Text

inductive Kind | statement | header | clause
  deriving DecidableEq, Repr

def Kind.name : Kind → String
  | .statement => "statement"
  | .header => "header"
  | .clause => "clause"

/-- A unit of a cell: its lines, the unit that governs it, and the names it reads and writes.
The body of a header or a clause lists the units of its block. -/
structure Statement where
  index : Nat
  kind : Kind
  first : Nat
  last : Nat
  parent : Option Nat
  reads : List String
  writes : List String
  body : List Nat
  deriving DecidableEq, Repr

def Statement.shown (s : Statement) : String :=
  let names (xs : List String) := bracketed ((sortedTexts xs).map quoted)
  "StatementFlow(" ++ toString s.index ++ ", " ++ s.kind.name ++ ", lines=(" ++ toString s.first ++
    ", " ++ toString s.last ++ "), reads=" ++ names s.reads ++ ", writes=" ++ names s.writes ++
    ", parent=" ++ (s.parent.map toString).getD "None" ++ ")"

/-- The first line of a statement, decorators included. -/
def firstLine (s : Stmt) : Nat := s.decorators.foldl (fun n d => min n d.line) s.span.first

def blockFirst : List Stmt → Nat
  | [] => 0
  | s :: _ => firstLine s

def blockLast (ss : List Stmt) : Nat := (ss.getLast?.map (·.span.last)).getD 0

/-- Does a line hold the keyword of a clause and a colon? -/
def isClauseLine (keyword line : String) : Bool :=
  let cs := trimStart line.toList
  keyword.toList.isPrefixOf cs &&
    (trimStart (cs.drop keyword.length)).head? == some ':'

/-- The first line from `line` on, of `count` lines, that satisfies the test. -/
def findLine (test : Nat → Bool) : (line count : Nat) → Option Nat
  | _, 0 => none
  | line, count + 1 => if test line then some line else findLine test (line + 1) count

/-- The line of a clause between the block before it and its own block. Without the text, a line
between the two is taken for it. -/
def clauseLine (lines : Option (List String)) (keyword : String) (after blockFirst : Nat) :
    Option Nat :=
  match lines with
  | some lines =>
    findLine (fun n => isClauseLine keyword ((lines[n - 1]?).getD "")) (after + 1)
      (blockFirst - after)
  | none => if after + 1 < blockFirst then some (after + 1) else none

def unit (kind : Kind) (first last : Nat) (parent : Option Nat) (index : Nat) (body : List Nat)
    (names : Names) : Statement :=
  ⟨index, kind, first, max first last, parent, names.reads, names.writes, body⟩

/-- The indices of the units of a block itself, and all units below it. -/
abbrev Block := List Nat × List Statement

/-- The units of an `else` or `finally` part. Without a line of its own its statements belong to
the header directly. -/
def clauseUnits (lines : Option (List String)) (keyword : String) (after blockFirst : Nat)
    (block : (owner next : Nat) → Block) (owner next : Nat) : List Statement :=
  match clauseLine lines keyword after blockFirst with
  | none => (block owner next).2
  | some line =>
    let (ids, units) := block next (next + 1)
    unit .clause line (blockFirst - 1) (some owner) next ids .empty :: units

variable (c : Configuration) (lines : Option (List String))

mutual

/-- The units of a statement, the first of which has the index `next`. -/
def walk : Stmt → (parent : Option Nat) → (next : Nat) → List Statement
  | .if span test body orelse, parent, next =>
    let (ids, units) := walkBlock body next (next + 1)
    unit .header span.first (blockFirst body - 1) parent next ids (visit c test .empty) ::
      (units ++ walkElse body orelse next (next + 1 + units.length))
  | .while span test body orelse, parent, next =>
    let (ids, units) := walkBlock body next (next + 1)
    unit .header span.first (blockFirst body - 1) parent next ids (visit c test .empty) ::
      (units ++ walkElse body orelse next (next + 1 + units.length))
  | .for span _ target iter body orelse, parent, next =>
    let (ids, units) := walkBlock body next (next + 1)
    unit .header span.first (blockFirst body - 1) parent next ids
        (visit c target (visit c iter .empty)) ::
      (units ++ walkElse body orelse next (next + 1 + units.length))
  | .with span _ items body, parent, next =>
    let (ids, units) := walkBlock body next (next + 1)
    unit .header span.first (blockFirst body - 1) parent next ids (visitItems c items .empty) ::
      units
  | .try span _ body handlers orelse final, parent, next =>
    let (ids, units) := walkBlock body next (next + 1)
    let handlerUnits := walkHandlers handlers next (next + 1 + units.length)
    let afterHandlers := handlers.foldl (fun _ h => blockLast h.body) (blockLast body)
    let units := units ++ handlerUnits
    let elseUnits :=
      if orelse.isEmpty then []
      else clauseUnits lines "else" afterHandlers (blockFirst orelse)
        (fun owner next => walkBlock orelse owner next) next (next + 1 + units.length)
    let afterElse := if orelse.isEmpty then afterHandlers else blockLast orelse
    let units := units ++ elseUnits
    let finalUnits :=
      if final.isEmpty then []
      else clauseUnits lines "finally" afterElse (blockFirst final)
        (fun owner next => walkBlock final owner next) next (next + 1 + units.length)
    unit .header span.first (blockFirst body - 1) parent next ids .empty :: (units ++ finalUnits)
  | s, parent, next =>
    [unit .statement (firstLine s) s.span.last parent next [] (visitStmt c s .empty)]

def walkElse (body : List Stmt) : List Stmt → (owner next : Nat) → List Statement
  | [], _, _ => []
  | s :: ss, owner, next =>
    clauseUnits lines "else" (blockLast body) (firstLine s)
      (fun owner next =>
        let units := walk s (some owner) next
        let (ids, rest) := walkBlock ss owner (next + units.length)
        (next :: ids, units ++ rest)) owner next

def walkBlock : List Stmt → (owner next : Nat) → Block
  | [], _, _ => ([], [])
  | s :: ss, owner, next =>
    let units := walk s (some owner) next
    let (ids, rest) := walkBlock ss owner (next + units.length)
    (next :: ids, units ++ rest)

def walkHandlers : List Handler → (owner next : Nat) → List Statement
  | [], _, _ => []
  | .mk span type id body :: hs, owner, next =>
    let (ids, units) := walkBlock body next (next + 1)
    let names := (visitOption c type .empty)
    let names := match id with
      | some id => names.addWrite id
      | none => names
    unit .header span.first (blockFirst body - 1) (some owner) next ids names ::
      (units ++ walkHandlers hs owner (next + 1 + units.length))

end

/-- The units of statements, the first of which has the index `next`. -/
def walkAll : List Stmt → (next : Nat) → List Statement
  | [], _ => []
  | s :: ss, next =>
    let units := walk c lines s none next
    units ++ walkAll ss (next + units.length)

/-- The units of statements; the text, if it is given, shows where clauses begin. -/
def analyze (statements : List Stmt) (source : Option String) : List Statement :=
  walkAll c (source.map Text.lines) statements 0

end NotebookSlice.Flow
