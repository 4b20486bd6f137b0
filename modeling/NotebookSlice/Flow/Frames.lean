import NotebookSlice.Flow.Statement

/-! # Nested calls of an analysis

How many calls are open at most while code is analysed. A visit calls itself for
the parts of the code, with up to two calls more in between; the walk over the
statements calls itself for blocks. Functions of the interpreter do not count.
-/

namespace NotebookSlice.Flow

open Syntax

mutual

/-- The calls that nest while an expression is visited. -/
def nested : Expr → Nat
  | .name _ ctx _ => if ctx = .load then 5 else 3
  | .literal .. => 4
  | .template _ parts => 2 + max 1 (nestedAll parts)
  | .field _ value _ spec => 2 + max (nested value) (nestedOption spec)
  | .unary _ _ e => 2 + nested e
  | .binary _ l _ r => 2 + max (nested l) (nested r)
  | .bool _ _ es => 2 + nestedAll es
  | .compare _ l _ es => 2 + max (nested l) (nestedAll es)
  | .conditional _ t b o => 2 + max (nested t) (max (nested b) (nested o))
  | .lambda _ ps body => 2 + max (1 + nestedParams ps) (nested body)
  | .walrus _ _ value => 2 + nested value
  | .attribute _ _ e _ => 3 + nested e
  | .subscript _ _ e i => 3 + max (nested e) (nested i)
  | .slice _ l u t => 2 + max (max 1 (nestedOption l)) (max (nestedOption u) (nestedOption t))
  | .call _ f args ks => 3 + max (nested f) (max (nestedAll args) (2 + nestedArguments ks))
  | .list _ es => 2 + max 3 (nestedAll es)
  | .tuple _ es => 2 + max 3 (nestedAll es)
  | .set _ es => 2 + nestedAll es
  | .dict _ es => 2 + max 1 (nestedEntries es)
  | .listComp _ e gs => 3 + max (nested e) (nestedGenerators gs)
  | .setComp _ e gs => 3 + max (nested e) (nestedGenerators gs)
  | .genExp _ e gs => 3 + max (nested e) (nestedGenerators gs)
  | .dictComp _ k v gs => 3 + max (nested k) (max (nested v) (nestedGenerators gs))
  | .starred _ e => 2 + nested e
  | .await _ e => 2 + nested e
  | .yield _ e => 2 + max 1 (nestedOption e)
  | .yieldFrom _ e => 2 + nested e

def nestedAll : List Expr → Nat
  | [] => 0
  | e :: es => max (nested e) (nestedAll es)

def nestedOption : Option Expr → Nat
  | none => 0
  | some e => nested e

def nestedArguments : List Argument → Nat
  | [] => 0
  | .mk _ e :: ks => max (nested e) (nestedArguments ks)

def nestedEntries : List Entry → Nat
  | [] => 0
  | .pair k v :: es => max (nested k) (max (nested v) (nestedEntries es))
  | .unpack v :: es => max (nested v) (nestedEntries es)

def nestedGenerators : List Generator → Nat
  | [] => 0
  | .mk _ target iter conditions :: gs =>
    max (nested target) (max (nested iter) (max (nestedAll conditions) (nestedGenerators gs)))

def nestedParams : Params → Nat
  | .mk positionalOnly positional rest keywordOnly keywords =>
    max (nestedParamList positionalOnly) (max (nestedParamList positional)
      (max (nestedParamOption rest) (max (nestedParamList keywordOnly)
        (nestedParamOption keywords))))

def nestedParamList : List Param → Nat
  | [] => 0
  | .mk _ a d :: ps => max (nestedOption a) (max (nestedOption d) (nestedParamList ps))

def nestedParamOption : Option Param → Nat
  | none => 0
  | some (.mk _ a _) => nestedOption a

end

mutual

def nestedPattern : Pattern → Nat
  | .value e => 2 + nested e
  | .singleton _ => 3
  | .sequence ps => 2 + max 1 (nestedPatterns ps)
  | .mapping keys ps _ => 3 + max 1 (max (nestedAll keys) (nestedPatterns ps))
  | .classOf cls ps _ qs => 2 + max (nested cls) (max (nestedPatterns ps) (nestedPatterns qs))
  | .star _ => 4
  | .as none _ => 4
  | .as (some p) _ => 3 + nestedPattern p
  | .or ps => 2 + nestedPatterns ps

def nestedPatterns : List Pattern → Nat
  | [] => 0
  | p :: ps => max (nestedPattern p) (nestedPatterns ps)

end

def nestedItems : List WithItem → Nat
  | [] => 0
  | i :: is => max (nested i.context) (max (nestedOption i.target) (nestedItems is))

mutual

/-- The calls that nest while a statement is visited. -/
def nestedStmt : Stmt → Nat
  | .expr _ e => 2 + nested e
  | .assign _ ts e => 2 + max (nestedAll ts) (nested e)
  | .augAssign _ t _ e => 2 + max (nested t) (nested e)
  | .annAssign _ _ a none _ => 2 + nested a
  | .annAssign _ t a (some e) _ => 2 + max (nested t) (max (nested a) (nested e))
  | .functionDef _ _ _ ps body decorators returns =>
    2 + max (1 + nestedParams ps) (max (nestedStmts body)
      (max (nestedAll decorators) (nestedOption returns)))
  | .classDef _ _ bases ks body decorators =>
    2 + max (nestedAll bases) (max (nestedArguments ks)
      (max (nestedStmts body) (nestedAll decorators)))
  | .return _ e => 2 + max 1 (nestedOption e)
  | .delete _ ts => 2 + nestedAll ts
  | .for _ _ t i body orelse =>
    2 + max (nested t) (max (nested i) (max (nestedStmts body) (nestedStmts orelse)))
  | .while _ t body orelse => 2 + max (nested t) (max (nestedStmts body) (nestedStmts orelse))
  | .if _ t body orelse => 2 + max (nested t) (max (nestedStmts body) (nestedStmts orelse))
  | .with _ _ items body => 2 + max (2 + nestedItems items) (nestedStmts body)
  | .match _ e cases => 2 + max (nested e) (nestedCases cases)
  | .raise _ e cause => 2 + max (max 1 (nestedOption e)) (nestedOption cause)
  | .try _ _ body handlers orelse final =>
    2 + max (nestedStmts body) (max (nestedHandlers handlers)
      (max (nestedStmts orelse) (nestedStmts final)))
  | .assert _ t m => 2 + max (nested t) (nestedOption m)
  | .import _ _ => 3
  | .importFrom _ _ _ _ => 3
  | .global _ _ => 3
  | .nonlocal _ _ => 3
  | .pass _ => 3
  | .break _ => 3
  | .continue _ => 3

def nestedStmts : List Stmt → Nat
  | [] => 0
  | s :: ss => max (nestedStmt s) (nestedStmts ss)

def nestedHandlers : List Handler → Nat
  | [] => 0
  | .mk _ type _ body :: hs =>
    max (2 + max (nestedOption type) (nestedStmts body)) (nestedHandlers hs)

def nestedCases : List Case → Nat
  | [] => 0
  | .mk p guard body :: cs =>
    max (2 + max (nestedPattern p) (max (nestedOption guard) (nestedStmts body))) (nestedCases cs)

end

variable (lines : Option (List String))

/-- The calls that nest for a clause whose statements nest so many. -/
def nestedClause (keyword : String) (after : Nat) (ss : List Stmt) (n : Nat) : Nat :=
  if (clauseLine lines keyword after (blockFirst ss)).isSome then 3 + n else 2 + n

mutual

/-- The calls that nest while the units of a statement are made. -/
def nestedWalk : Stmt → Nat
  | .if _ test body orelse =>
    max (3 + nested test) (max (2 + nestedBlock body)
      (nestedClause lines "else" (blockLast body) orelse (nestedBlock orelse)))
  | .while _ test body orelse =>
    max (3 + nested test) (max (2 + nestedBlock body)
      (nestedClause lines "else" (blockLast body) orelse (nestedBlock orelse)))
  | .for _ _ target iter body orelse =>
    max (3 + max (nested iter) (nested target)) (max (2 + nestedBlock body)
      (nestedClause lines "else" (blockLast body) orelse (nestedBlock orelse)))
  | .with _ _ items body => max (3 + nestedItems items) (2 + nestedBlock body)
  | .try _ _ body handlers orelse final =>
    let afterHandlers := handlers.foldl (fun _ h => blockLast h.body) (blockLast body)
    let afterElse := if orelse.isEmpty then afterHandlers else blockLast orelse
    max (2 + nestedBlock body) (max (nestedHandlerBlocks handlers)
      (max (nestedClause lines "else" afterHandlers orelse (nestedBlock orelse))
        (nestedClause lines "finally" afterElse final (nestedBlock final))))
  | s => 2 + nestedStmt s

def nestedBlock : List Stmt → Nat
  | [] => 0
  | s :: ss => max (nestedWalk s) (nestedBlock ss)

def nestedHandlerBlocks : List Handler → Nat
  | [] => 0
  | .mk _ type _ body :: hs =>
    max (max (3 + nestedOption type) (2 + nestedBlock body)) (nestedHandlerBlocks hs)

end

end NotebookSlice.Flow
