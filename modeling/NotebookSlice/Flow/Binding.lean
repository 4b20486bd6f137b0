import NotebookSlice.Syntax.Tree

/-! # Bindings of a body

The names that the body of a function or a class binds itself. Nested
definitions bind their own name only, and lambdas and comprehensions nothing.
-/

namespace NotebookSlice.Flow

open Syntax

/-- The names an import binds: the new name, or the first part of the path. -/
def aliasNames (names : List Alias) : List String :=
  names.filterMap fun a =>
    if a.name == "*" then none
    else some (a.as?.getD (String.ofList (a.name.toList.takeWhile (· != '.'))))

def paramNames (ps : Params) : List String :=
  (ps.positionalOnly ++ ps.positional ++ ps.keywordOnly ++ ps.rest.toList ++
    ps.keywords.toList).map Param.name

mutual

/-- The names an expression binds, those in nested scopes excepted. -/
def boundIn : Expr → List String
  | .name _ ctx id => if ctx = .load then [] else [id]
  | .literal .. => []
  | .template _ parts => boundInAll parts
  | .field _ value _ spec => boundIn value ++ boundInOption spec
  | .unary _ _ e => boundIn e
  | .binary _ l _ r => boundIn l ++ boundIn r
  | .bool _ _ es => boundInAll es
  | .compare _ l _ es => boundIn l ++ boundInAll es
  | .conditional _ t b o => boundIn t ++ boundIn b ++ boundIn o
  | .lambda .. => []
  | .walrus _ target value => target :: boundIn value
  | .attribute _ _ e _ => boundIn e
  | .subscript _ _ e i => boundIn e ++ boundIn i
  | .slice _ l u s => boundInOption l ++ boundInOption u ++ boundInOption s
  | .call _ f args ks => boundIn f ++ boundInAll args ++ boundInArguments ks
  | .list _ es => boundInAll es
  | .tuple _ es => boundInAll es
  | .set _ es => boundInAll es
  | .dict _ es => boundInEntries es
  | .listComp .. => []
  | .setComp .. => []
  | .genExp .. => []
  | .dictComp .. => []
  | .starred _ e => boundIn e
  | .await _ e => boundIn e
  | .yield _ e => boundInOption e
  | .yieldFrom _ e => boundIn e

def boundInAll : List Expr → List String
  | [] => []
  | e :: es => boundIn e ++ boundInAll es

def boundInOption : Option Expr → List String
  | none => []
  | some e => boundIn e

def boundInArguments : List Argument → List String
  | [] => []
  | .mk _ e :: ks => boundIn e ++ boundInArguments ks

def boundInEntries : List Entry → List String
  | [] => []
  | .pair k v :: es => boundIn k ++ boundIn v ++ boundInEntries es
  | .unpack v :: es => boundIn v ++ boundInEntries es

end

mutual

def boundInPattern : Pattern → List String
  | .value e => boundIn e
  | .singleton _ => []
  | .sequence ps => boundInPatterns ps
  | .mapping keys ps rest => rest.toList ++ boundInAll keys ++ boundInPatterns ps
  | .classOf cls ps _ qs => boundIn cls ++ boundInPatterns ps ++ boundInPatterns qs
  | .star id => id.toList
  | .as none id => id.toList
  | .as (some p) id => id.toList ++ boundInPattern p
  | .or ps => boundInPatterns ps

def boundInPatterns : List Pattern → List String
  | [] => []
  | p :: ps => boundInPattern p ++ boundInPatterns ps

end

/-- The names that the contexts and targets of a `with` statement bind. -/
def boundInItems : List WithItem → List String
  | [] => []
  | i :: is => boundIn i.context ++ boundInOption i.target ++ boundInItems is

mutual

/-- The names a statement binds, those in nested scopes excepted. -/
def boundByStmt : Stmt → List String
  | .expr _ e => boundIn e
  | .assign _ ts e => boundInAll ts ++ boundIn e
  | .augAssign _ t _ e => boundIn t ++ boundIn e
  | .annAssign _ t a e _ => boundIn t ++ boundIn a ++ boundInOption e
  | .functionDef _ _ id .. => [id]
  | .classDef _ id .. => [id]
  | .return _ e => boundInOption e
  | .delete _ ts => boundInAll ts
  | .for _ _ t i body orelse =>
    boundIn t ++ boundIn i ++ boundByStmts body ++ boundByStmts orelse
  | .while _ t body orelse => boundIn t ++ boundByStmts body ++ boundByStmts orelse
  | .if _ t body orelse => boundIn t ++ boundByStmts body ++ boundByStmts orelse
  | .with _ _ items body => boundInItems items ++ boundByStmts body
  | .match _ e cases => boundIn e ++ boundByCases cases
  | .raise _ e c => boundInOption e ++ boundInOption c
  | .try _ _ body handlers orelse final =>
    boundByStmts body ++ boundByHandlers handlers ++ boundByStmts orelse ++ boundByStmts final
  | .assert _ t m => boundIn t ++ boundInOption m
  | .import _ names => aliasNames names
  | .importFrom _ _ names _ => aliasNames names
  | .global .. => []
  | .nonlocal .. => []
  | .pass _ => []
  | .break _ => []
  | .continue _ => []

def boundByStmts : List Stmt → List String
  | [] => []
  | s :: ss => boundByStmt s ++ boundByStmts ss

def boundByHandlers : List Handler → List String
  | [] => []
  | .mk _ type id body :: hs =>
    id.toList ++ boundInOption type ++ boundByStmts body ++ boundByHandlers hs

def boundByCases : List Case → List String
  | [] => []
  | .mk p guard body :: cs =>
    boundInPattern p ++ boundInOption guard ++ boundByStmts body ++ boundByCases cs

end

mutual

/-- The names a statement declares to belong to an outer scope. -/
def declaredByStmt : Stmt → List String
  | .global _ names => names
  | .nonlocal _ names => names
  | .for _ _ _ _ body orelse => declaredByStmts body ++ declaredByStmts orelse
  | .while _ _ body orelse => declaredByStmts body ++ declaredByStmts orelse
  | .if _ _ body orelse => declaredByStmts body ++ declaredByStmts orelse
  | .with _ _ _ body => declaredByStmts body
  | .match _ _ cases => declaredByCases cases
  | .try _ _ body handlers orelse final =>
    declaredByStmts body ++ declaredByHandlers handlers ++ declaredByStmts orelse ++
      declaredByStmts final
  | _ => []

def declaredByStmts : List Stmt → List String
  | [] => []
  | s :: ss => declaredByStmt s ++ declaredByStmts ss

def declaredByHandlers : List Handler → List String
  | [] => []
  | .mk _ _ _ body :: hs => declaredByStmts body ++ declaredByHandlers hs

def declaredByCases : List Case → List String
  | [] => []
  | .mk _ _ body :: cs => declaredByStmts body ++ declaredByCases cs

end

def localNames (body : List Stmt) : List String :=
  let declared := declaredByStmts body
  (boundByStmts body).filter fun n => !declared.contains n

end NotebookSlice.Flow
