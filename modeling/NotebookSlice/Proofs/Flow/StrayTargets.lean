import NotebookSlice.Flow.Names

/-! # Stray targets

The object of an attribute or an element is evaluated, also where the attribute or the
element itself is a target. Trees can say otherwise: a name at the root of a target can
be marked as a target of its own. Such a name is stray. No code is written that way,
but the analysis takes any tree.
-/

namespace NotebookSlice.Flow

open Syntax

/-- The name at the root of attributes and elements, if it is marked as a target itself. -/
def baseTarget : Expr → Option String
  | .attribute _ _ e _ => baseTarget e
  | .subscript _ _ e _ => baseTarget e
  | .name _ ctx id => if ctx = .load then none else some id
  | _ => none

/-- The stray name of a target with the given object, if there is one. -/
def strayBase (ctx : Context) (e : Expr) : List String :=
  if ctx = .load then [] else (baseTarget e).toList

mutual

/-- The stray names in the part of an expression that runs at once. -/
def strays : Expr → List String
  | .name .. => []
  | .literal .. => []
  | .template _ parts => straysAll parts
  | .field _ value _ spec => strays value ++ straysOption spec
  | .unary _ _ e => strays e
  | .binary _ l _ r => strays l ++ strays r
  | .bool _ _ es => straysAll es
  | .compare _ l _ es => strays l ++ straysAll es
  | .conditional _ t b o => strays t ++ strays b ++ strays o
  | .lambda _ ps _ => straysParams ps
  | .walrus _ _ value => strays value
  | .attribute _ ctx e _ => strayBase ctx e ++ strays e
  | .subscript _ ctx e i => strayBase ctx e ++ strays e ++ strays i
  | .slice _ l u t => straysOption l ++ straysOption u ++ straysOption t
  | .call _ f args ks => strays f ++ straysAll args ++ straysArguments ks
  | .list _ es => straysAll es
  | .tuple _ es => straysAll es
  | .set _ es => straysAll es
  | .dict _ es => straysKeys es ++ straysValues es
  | .listComp _ e gs => straysFirst gs ++ (straysGenerators gs ++ strays e)
  | .setComp _ e gs => straysFirst gs ++ (straysGenerators gs ++ strays e)
  | .genExp _ e gs => straysFirst gs ++ (straysGenerators gs ++ strays e)
  | .dictComp _ k v gs => straysFirst gs ++ (straysGenerators gs ++ strays k ++ strays v)
  | .starred _ e => strays e
  | .await _ e => strays e
  | .yield _ e => straysOption e
  | .yieldFrom _ e => strays e

def straysAll : List Expr → List String
  | [] => []
  | e :: es => strays e ++ straysAll es

def straysOption : Option Expr → List String
  | none => []
  | some e => strays e

def straysArguments : List Argument → List String
  | [] => []
  | .mk _ e :: ks => strays e ++ straysArguments ks

def straysKeys : List Syntax.Entry → List String
  | [] => []
  | .pair k _ :: es => strays k ++ straysKeys es
  | .unpack _ :: es => straysKeys es

def straysValues : List Syntax.Entry → List String
  | [] => []
  | .pair _ v :: es => strays v ++ straysValues es
  | .unpack v :: es => strays v ++ straysValues es

/-- The first iterable of a comprehension is evaluated outside it. -/
def straysFirst : List Generator → List String
  | [] => []
  | .mk _ _ iter _ :: _ => strays iter

/-- The loops of a comprehension without the first iterable. -/
def straysGenerators : List Generator → List String
  | [] => []
  | .mk _ target _ conditions :: gs =>
    strays target ++ straysAll conditions ++ straysInnerGenerators gs

def straysInnerGenerators : List Generator → List String
  | [] => []
  | .mk _ target iter conditions :: gs =>
    strays iter ++ strays target ++ straysAll conditions ++ straysInnerGenerators gs

/-- Defaults and annotations; both are evaluated outside the function. -/
def straysParams : Params → List String
  | .mk positionalOnly positional rest keywordOnly keywords =>
    straysDefaults positionalOnly ++ straysDefaults positional ++ straysDefaults keywordOnly ++
      straysHints positionalOnly ++ straysHints positional ++ straysHints keywordOnly ++
      straysHint rest ++ straysHint keywords

def straysDefaults : List Param → List String
  | [] => []
  | .mk _ _ d :: ps => straysOption d ++ straysDefaults ps

def straysHints : List Param → List String
  | [] => []
  | .mk _ a _ :: ps => straysOption a ++ straysHints ps

def straysHint : Option Param → List String
  | none => []
  | some (.mk _ a _) => straysOption a

end

mutual

def straysPattern : Pattern → List String
  | .value e => strays e
  | .singleton _ => []
  | .sequence ps => straysPatterns ps
  | .mapping keys ps _ => straysAll keys ++ straysPatterns ps
  | .classOf cls ps _ qs => strays cls ++ straysPatterns ps ++ straysPatterns qs
  | .star _ => []
  | .as none _ => []
  | .as (some p) _ => straysPattern p
  | .or ps => straysPatterns ps

def straysPatterns : List Pattern → List String
  | [] => []
  | p :: ps => straysPattern p ++ straysPatterns ps

end

/-- The stray names in the contexts and targets of a `with` statement. -/
def straysItems : List WithItem → List String
  | [] => []
  | i :: is => strays i.context ++ straysOption i.target ++ straysItems is

mutual

/-- The stray names in a statement, bodies of functions and classes excepted. -/
def straysStmt : Stmt → List String
  | .expr _ e => strays e
  | .assign _ ts e => straysAll ts ++ strays e
  | .augAssign _ t _ e => strays e ++ strays t
  | .annAssign _ _ a none _ => strays a
  | .annAssign _ t a (some e) _ => strays a ++ strays e ++ strays t
  | .functionDef _ _ _ ps _ decorators returns =>
    straysAll decorators ++ straysParams ps ++ straysOption returns
  | .classDef _ _ bases ks _ decorators =>
    straysAll decorators ++ straysAll bases ++ straysArguments ks
  | .return _ e => straysOption e
  | .delete _ ts => straysAll ts
  | .for _ _ t i body orelse => strays t ++ strays i ++ straysStmts body ++ straysStmts orelse
  | .while _ t body orelse => strays t ++ straysStmts body ++ straysStmts orelse
  | .if _ t body orelse => strays t ++ straysStmts body ++ straysStmts orelse
  | .with _ _ items body => straysItems items ++ straysStmts body
  | .match _ e cases => strays e ++ straysCases cases
  | .raise _ e cause => straysOption e ++ straysOption cause
  | .try _ _ body handlers orelse final =>
    straysStmts body ++ straysHandlers handlers ++ straysStmts orelse ++ straysStmts final
  | .assert _ t m => strays t ++ straysOption m
  | .import .. => []
  | .importFrom .. => []
  | .global .. => []
  | .nonlocal .. => []
  | .pass _ => []
  | .break _ => []
  | .continue _ => []

def straysStmts : List Stmt → List String
  | [] => []
  | s :: ss => straysStmt s ++ straysStmts ss

def straysHandlers : List Handler → List String
  | [] => []
  | .mk _ type _ body :: hs => straysOption type ++ straysStmts body ++ straysHandlers hs

def straysCases : List Case → List String
  | [] => []
  | .mk p guard body :: cs =>
    straysPattern p ++ straysOption guard ++ straysStmts body ++ straysCases cs

end

end NotebookSlice.Flow
