import NotebookSlice.Syntax.Tree

/-! # Depth of trees

How many nodes of a tree lie above one another. Whoever builds a tree from the
leaves up has that many calls open.
-/

namespace NotebookSlice.Syntax

mutual

def depth : Expr → Nat
  | .name .. => 1
  | .literal .. => 1
  | .template _ parts => 1 + depthAll parts
  | .field _ value _ spec => 1 + max (depth value) (depthOption spec)
  | .unary _ _ e => 1 + depth e
  | .binary _ l _ r => 1 + max (depth l) (depth r)
  | .bool _ _ es => 1 + depthAll es
  | .compare _ l _ es => 1 + max (depth l) (depthAll es)
  | .conditional _ t b o => 1 + max (depth t) (max (depth b) (depth o))
  | .lambda _ ps body => 1 + max (depthParams ps) (depth body)
  | .walrus _ _ value => 1 + depth value
  | .attribute _ _ e _ => 1 + depth e
  | .subscript _ _ e i => 1 + max (depth e) (depth i)
  | .slice _ l u t => 1 + max (depthOption l) (max (depthOption u) (depthOption t))
  | .call _ f args ks => 1 + max (depth f) (max (depthAll args) (depthArguments ks))
  | .list _ es => 1 + depthAll es
  | .tuple _ es => 1 + depthAll es
  | .set _ es => 1 + depthAll es
  | .dict _ es => 1 + depthEntries es
  | .listComp _ e gs => 1 + max (depth e) (depthGenerators gs)
  | .setComp _ e gs => 1 + max (depth e) (depthGenerators gs)
  | .genExp _ e gs => 1 + max (depth e) (depthGenerators gs)
  | .dictComp _ k v gs => 1 + max (depth k) (max (depth v) (depthGenerators gs))
  | .starred _ e => 1 + depth e
  | .await _ e => 1 + depth e
  | .yield _ e => 1 + depthOption e
  | .yieldFrom _ e => 1 + depth e

def depthAll : List Expr → Nat
  | [] => 0
  | e :: es => max (depth e) (depthAll es)

def depthOption : Option Expr → Nat
  | none => 0
  | some e => depth e

def depthArguments : List Argument → Nat
  | [] => 0
  | .mk _ e :: ks => max (1 + depth e) (depthArguments ks)

def depthEntries : List Entry → Nat
  | [] => 0
  | .pair k v :: es => max (depth k) (max (depth v) (depthEntries es))
  | .unpack v :: es => max (depth v) (depthEntries es)

def depthGenerators : List Generator → Nat
  | [] => 0
  | .mk _ target iter conditions :: gs =>
    max (1 + max (depth target) (max (depth iter) (depthAll conditions))) (depthGenerators gs)

def depthParams : Params → Nat
  | .mk positionalOnly positional rest keywordOnly keywords =>
    1 + max (depthParamList positionalOnly) (max (depthParamList positional)
      (max (depthParamOption rest) (max (depthParamList keywordOnly) (depthParamOption keywords))))

/-- Annotations lie below their parameter, defaults beside it. -/
def depthParamList : List Param → Nat
  | [] => 0
  | .mk _ a d :: ps => max (1 + depthOption a) (max (depthOption d) (depthParamList ps))

def depthParamOption : Option Param → Nat
  | none => 0
  | some (.mk _ a _) => 1 + depthOption a

end

mutual

def depthPattern : Pattern → Nat
  | .value e => 1 + depth e
  | .singleton _ => 1
  | .sequence ps => 1 + depthPatterns ps
  | .mapping keys ps _ => 1 + max (depthAll keys) (depthPatterns ps)
  | .classOf cls ps _ qs => 1 + max (depth cls) (max (depthPatterns ps) (depthPatterns qs))
  | .star _ => 1
  | .as none _ => 1
  | .as (some p) _ => 1 + depthPattern p
  | .or ps => 1 + depthPatterns ps

def depthPatterns : List Pattern → Nat
  | [] => 0
  | p :: ps => max (depthPattern p) (depthPatterns ps)

end

def depthItems : List WithItem → Nat
  | [] => 0
  | i :: is => max (1 + max (depth i.context) (depthOption i.target)) (depthItems is)

mutual

def depthStmt : Stmt → Nat
  | .expr _ e => 1 + depth e
  | .assign _ ts e => 1 + max (depthAll ts) (depth e)
  | .augAssign _ t _ e => 1 + max (depth t) (depth e)
  | .annAssign _ t a e _ => 1 + max (depth t) (max (depth a) (depthOption e))
  | .functionDef _ _ _ ps body decorators returns =>
    1 + max (depthParams ps) (max (depthStmts body)
      (max (depthAll decorators) (depthOption returns)))
  | .classDef _ _ bases ks body decorators =>
    1 + max (depthAll bases) (max (depthArguments ks)
      (max (depthStmts body) (depthAll decorators)))
  | .return _ e => 1 + depthOption e
  | .delete _ ts => 1 + depthAll ts
  | .for _ _ t i body orelse =>
    1 + max (depth t) (max (depth i) (max (depthStmts body) (depthStmts orelse)))
  | .while _ t body orelse => 1 + max (depth t) (max (depthStmts body) (depthStmts orelse))
  | .if _ t body orelse => 1 + max (depth t) (max (depthStmts body) (depthStmts orelse))
  | .with _ _ items body => 1 + max (depthItems items) (depthStmts body)
  | .match _ e cases => 1 + max (depth e) (depthCases cases)
  | .raise _ e cause => 1 + max (depthOption e) (depthOption cause)
  | .try _ _ body handlers orelse final =>
    1 + max (depthStmts body) (max (depthHandlers handlers)
      (max (depthStmts orelse) (depthStmts final)))
  | .assert _ t m => 1 + max (depth t) (depthOption m)
  | .import _ _ => 2
  | .importFrom _ _ _ _ => 2
  | .global _ _ => 1
  | .nonlocal _ _ => 1
  | .pass _ => 1
  | .break _ => 1
  | .continue _ => 1

def depthStmts : List Stmt → Nat
  | [] => 0
  | s :: ss => max (depthStmt s) (depthStmts ss)

def depthHandlers : List Handler → Nat
  | [] => 0
  | .mk _ type _ body :: hs => max (1 + max (depthOption type) (depthStmts body)) (depthHandlers hs)

def depthCases : List Case → Nat
  | [] => 0
  | .mk p guard body :: cs =>
    max (1 + max (depthPattern p) (max (depthOption guard) (depthStmts body))) (depthCases cs)

end

end NotebookSlice.Syntax
