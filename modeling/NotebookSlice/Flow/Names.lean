import NotebookSlice.Flow.Binding
import NotebookSlice.Flow.Builtin
import NotebookSlice.Rule

/-! # Names read and written

The names that running a piece of code reads and writes outside its own scopes.
Besides bindings, calls write: a method is assumed to modify its receiver and
its arguments, and any function but a builtin one its arguments, unless a rule
says that it does not.
-/

namespace NotebookSlice.Flow

open Syntax

/-- What opens a scope. Code in functions runs later, code in comprehensions at once. -/
inductive ScopeKind | function | comprehension
  deriving DecidableEq, Repr

/-- An open scope and the names bound in it so far. -/
structure Scope where
  kind : ScopeKind
  names : List String
  deriving Repr

/-- The names found so far, and the open scopes, innermost first. -/
structure Names where
  reads : List String
  writes : List String
  scopes : List Scope
  deriving Repr

namespace Names

def empty : Names := ⟨[], [], []⟩

def isBound (s : Names) (id : String) : Bool := s.scopes.any (·.names.contains id)

def isDeferred (s : Names) : Bool := s.scopes.any (·.kind == .function)

def addWrite (s : Names) (id : String) : Names := { s with writes := s.writes.insert id }

/-- Binds a name in the innermost scope, or outside when there is none. -/
def bind (s : Names) (id : String) : Names :=
  match s.scopes with
  | [] => s.addWrite id
  | scope :: rest =>
    { s with scopes := { scope with names := scope.names.insert id } :: rest }

def bindAll (s : Names) (ids : List String) : Names := ids.foldl bind s

/-- Reads a name, which matters unless an open scope binds it. -/
def read (s : Names) (id : String) : Names :=
  if s.isBound id then s else { s with reads := s.reads.insert id }

/-- Modifies the object of a name, if the code runs at once and the name is not bound here. -/
def modify (s : Names) : Option String → Names
  | none => s
  | some id => if s.isDeferred || s.isBound id then s else s.addWrite id

def enter (s : Names) (kind : ScopeKind) (names : List String) : Names :=
  { s with scopes := ⟨kind, names⟩ :: s.scopes }

def leave (s : Names) : Names := { s with scopes := s.scopes.tail }

/-- Binds a name in the innermost scope of a function, if there is one. -/
def bindFunction (id : String) : List Scope → Option (List Scope)
  | [] => none
  | scope :: rest =>
    if scope.kind = .function then some ({ scope with names := scope.names.insert id } :: rest)
    else (bindFunction id rest).map (scope :: ·)

/-- Binds a name by `:=`: in the innermost function, or outside. -/
def bindWalrus (s : Names) (id : String) : Names :=
  match bindFunction id s.scopes with
  | some scopes => { s with scopes := scopes }
  | none => s.addWrite id

end Names

/-- The name at the root of attributes and elements. -/
def baseName : Expr → Option String
  | .attribute _ _ e _ => baseName e
  | .subscript _ _ e _ => baseName e
  | .name _ _ id => some id
  | _ => none

/-- The name of an argument that is a name, starred or not. -/
def argumentName : Expr → Option String
  | .name _ _ id => some id
  | .starred _ (.name _ _ id) => some id
  | _ => none

/-- Who is called: the base of the receiver, the function's name, and whether it is a method. -/
def callee : Expr → Option (Option String × String × Bool)
  | .attribute _ _ receiver attr => some (baseName receiver, attr, true)
  | .name _ _ id => some (none, id, false)
  | _ => none

/-- The modifications that a call is assumed to make. -/
def modifyByCall (c : Configuration) (func : Expr) (args : List Expr) (keywords : List Argument)
    (s : Names) : Names :=
  match callee func with
  | none => s
  | some (receiver, function, isMethod) =>
    let rule := c.find? ((receiver.map Value.text).getD .null) (.text function)
    let sparesObject := (rule.map (·.sparesObject)).getD false
    let sparesArguments := (rule.map (·.sparesArguments)).getD false
    let s := if isMethod && !sparesObject then s.modify receiver else s
    if sparesArguments || (!isMethod && isBuiltin function) then s
    else (args ++ keywords.map Argument.value).foldl (fun s e => s.modify (argumentName e)) s

variable (c : Configuration)

mutual

/-- Evaluates an expression, or binds or deletes a target. -/
def visit : Expr → Names → Names
  | .name _ ctx id, s => if ctx = .load then s.read id else s.bind id
  | .literal .., s => s
  | .template _ parts, s => visitAll parts s
  | .field _ value _ spec, s => visitOption spec (visit value s)
  | .unary _ _ e, s => visit e s
  | .binary _ l _ r, s => visit r (visit l s)
  | .bool _ _ es, s => visitAll es s
  | .compare _ l _ es, s => visitAll es (visit l s)
  | .conditional _ t b o, s => visit o (visit b (visit t s))
  | .lambda _ ps body, s =>
    (visit body ((visitParams ps s).enter .function (paramNames ps))).leave
  | .walrus _ target value, s => (visit value s).bindWalrus target
  | .attribute _ ctx e _, s => visit e (if ctx = .load then s else s.modify (baseName e))
  | .subscript _ ctx e i, s =>
    visit i (visit e (if ctx = .load then s else s.modify (baseName e)))
  | .slice _ l u t, s => visitOption t (visitOption u (visitOption l s))
  | .call _ f args ks, s =>
    modifyByCall c f args ks (visitArguments ks (visitAll args (visit f s)))
  | .list _ es, s => visitAll es s
  | .tuple _ es, s => visitAll es s
  | .set _ es, s => visitAll es s
  | .dict _ es, s => visitValues es (visitKeys es s)
  | .listComp _ e gs, s => (visit e (visitGenerators gs s)).leave
  | .setComp _ e gs, s => (visit e (visitGenerators gs s)).leave
  | .genExp _ e gs, s => (visit e (visitGenerators gs s)).leave
  | .dictComp _ k v gs, s => (visit v (visit k (visitGenerators gs s))).leave
  | .starred _ e, s => visit e s
  | .await _ e, s => visit e s
  | .yield _ e, s => visitOption e s
  | .yieldFrom _ e, s => visit e s

def visitAll : List Expr → Names → Names
  | [], s => s
  | e :: es, s => visitAll es (visit e s)

def visitOption : Option Expr → Names → Names
  | none, s => s
  | some e, s => visit e s

def visitArguments : List Argument → Names → Names
  | [], s => s
  | .mk _ e :: ks, s => visitArguments ks (visit e s)

def visitKeys : List Entry → Names → Names
  | [], s => s
  | .pair k _ :: es, s => visitKeys es (visit k s)
  | .unpack _ :: es, s => visitKeys es s

def visitValues : List Entry → Names → Names
  | [], s => s
  | .pair _ v :: es, s => visitValues es (visit v s)
  | .unpack v :: es, s => visitValues es (visit v s)

/-- The loops of a comprehension. The first iterable belongs to the outer scope; the scope that
is opened after it stays open. -/
def visitGenerators : List Generator → Names → Names
  | [], s => s.enter .comprehension []
  | .mk _ target iter conditions :: gs, s =>
    visitInnerGenerators gs
      (visitAll conditions (visit target ((visit iter s).enter .comprehension [])))

def visitInnerGenerators : List Generator → Names → Names
  | [], s => s
  | .mk _ target iter conditions :: gs, s =>
    visitInnerGenerators gs (visitAll conditions (visit target (visit iter s)))

/-- Defaults, and then annotations; both belong to the outer scope. -/
def visitParams : Params → Names → Names
  | .mk positionalOnly positional rest keywordOnly keywords, s =>
    let s := visitDefaults keywordOnly (visitDefaults positional (visitDefaults positionalOnly s))
    let s := visitHints keywordOnly
      (visitHints positional (visitHints positionalOnly s))
    visitHint keywords (visitHint rest s)

def visitDefaults : List Param → Names → Names
  | [], s => s
  | .mk _ _ d :: ps, s => visitDefaults ps (visitOption d s)

def visitHints : List Param → Names → Names
  | [], s => s
  | .mk _ a _ :: ps, s => visitHints ps (visitOption a s)

def visitHint : Option Param → Names → Names
  | none, s => s
  | some (.mk _ a _), s => visitOption a s

end

mutual

def visitPattern : Pattern → Names → Names
  | .value e, s => visit c e s
  | .singleton _, s => s
  | .sequence ps, s => visitPatterns ps s
  | .mapping keys ps rest, s =>
    (visitPatterns ps (visitAll c keys s)).bindAll rest.toList
  | .classOf cls ps _ qs, s => visitPatterns qs (visitPatterns ps (visit c cls s))
  | .star id, s => s.bindAll id.toList
  | .as none id, s => s.bindAll id.toList
  | .as (some p) id, s => (visitPattern p s).bindAll id.toList
  | .or ps, s => visitPatterns ps s

def visitPatterns : List Pattern → Names → Names
  | [], s => s
  | p :: ps, s => visitPatterns ps (visitPattern p s)

end

/-- Enters the contexts of a `with` statement, and binds their targets. -/
def visitItems : List WithItem → Names → Names
  | [], s => s
  | i :: is, s => visitItems is (visitOption c i.target (visit c i.context s))

mutual

/-- Runs a statement. A body of a function or a class is visited in a scope of its own. -/
def visitStmt : Stmt → Names → Names
  | .expr _ e, s => visit c e s
  | .assign _ ts e, s => visit c e (visitAll c ts s)
  | .augAssign _ t _ e, s =>
    let s := match t with
      | .name _ _ id => s.read id
      | _ => s
    visit c t (visit c e s)
  | .annAssign _ t a e _, s =>
    let s := visit c a s
    match e with
    | none => s
    | some e => visit c t (visit c e s)
  | .functionDef _ _ id ps body decorators returns, s =>
    let s := visitOption c returns (visitParams c ps (visitAll c decorators s))
    (visitStmts body ((s.bind id).enter .function (paramNames ps ++ localNames body))).leave
  | .classDef _ id bases ks body decorators, s =>
    let s := visitArguments c ks (visitAll c bases (visitAll c decorators s))
    (visitStmts body ((s.bind id).enter .function (localNames body))).leave
  | .return _ e, s => visitOption c e s
  | .delete _ ts, s => visitAll c ts s
  | .for _ _ t i body orelse, s =>
    visitStmts orelse (visitStmts body (visit c i (visit c t s)))
  | .while _ t body orelse, s => visitStmts orelse (visitStmts body (visit c t s))
  | .if _ t body orelse, s => visitStmts orelse (visitStmts body (visit c t s))
  | .with _ _ items body, s => visitStmts body (visitItems c items s)
  | .match _ e cases, s => visitCases cases (visit c e s)
  | .raise _ e cause, s => visitOption c cause (visitOption c e s)
  | .try _ _ body handlers orelse final, s =>
    visitStmts final (visitStmts orelse (visitHandlers handlers (visitStmts body s)))
  | .assert _ t m, s => visitOption c m (visit c t s)
  | .import _ names, s => s.bindAll (aliasNames names)
  | .importFrom _ _ names _, s => s.bindAll (aliasNames names)
  | .global .., s => s
  | .nonlocal .., s => s
  | .pass _, s => s
  | .break _, s => s
  | .continue _, s => s

def visitStmts : List Stmt → Names → Names
  | [], s => s
  | t :: ts, s => visitStmts ts (visitStmt t s)

def visitHandlers : List Handler → Names → Names
  | [], s => s
  | .mk _ type _ body :: hs, s => visitHandlers hs (visitStmts body (visitOption c type s))

def visitCases : List Case → Names → Names
  | [], s => s
  | .mk p guard body :: cs, s =>
    visitCases cs (visitStmts body (visitOption c guard (visitPattern c p s)))

end

end NotebookSlice.Flow
