import NotebookSlice.Flow.Binding

/-! # Mentions of names

The names in a piece of code in the order of a visit, each with the use that is made
of it and the regions that it stands in, innermost first: bodies of functions, lambdas
and classes, and comprehensions. A region is described by what its own code binds and
declares, so that the scoping rules of the language can be read off a mention.
-/

namespace NotebookSlice.Flow

open Syntax

/-- What is done with a name. -/
inductive Use
  | load
  /-- bound or deleted by a target, an import, a pattern or a definition -/
  | bind
  /-- bound by `:=`, which a comprehension leaves to the code around it -/
  | walrus
  /-- bound to the exception that a handler catches -/
  | handler
  /-- annotated without a value, which makes it a local name but does not bind it -/
  | annotate
  /-- annotated in parentheses without a value, which does nothing to the name -/
  | touch
  | global
  | nonlocal
  deriving DecidableEq, Repr

/-- A body of a class has the name of the class. -/
inductive RegionKind | function | classBody (name : String) | comprehension
  deriving DecidableEq, Repr

/-- Code with a scope of its own: the names that it binds, and those that it declares. -/
structure Region where
  kind : RegionKind
  bound : List String
  globals : List String
  nonlocals : List String
  /-- names that are annotated in parentheses -/
  touched : List String
  deriving DecidableEq, Repr

/-- A place where a name stands: in which regions, whether in a case of a `match` statement, and
whether in the target of an annotation without a value. -/
structure Mention where
  name : String
  use : Use
  regions : List Region
  inMatch : Bool
  inBareTarget : Bool
  deriving DecidableEq, Repr

namespace Mention

def of (use : Use) (name : String) : Mention := ⟨name, use, [], false, false⟩

def under (r : Region) (m : Mention) : Mention := { m with regions := m.regions ++ [r] }

def matched (m : Mention) : Mention := { m with inMatch := true }

def bare (m : Mention) : Mention := { m with inBareTarget := true }

/-- The mention as one of all code, if its own code stands in the given regions. -/
def within (rs : List Region) (m : Mention) : Mention :=
  ⟨m.name, m.use, m.regions ++ rs, false, false⟩

/-- Does the mention make the name a name of the scope that the code runs in? -/
def isLocal (m : Mention) : Bool :=
  match m.use with
  | .bind | .handler | .annotate => m.regions.isEmpty
  | .walrus => m.regions.all (·.kind == .comprehension)
  | _ => false

/-- Does it bind or delete the name in the scope that the code runs in? -/
def isBinding (m : Mention) : Bool := m.isLocal && m.use != .annotate

end Mention

def ownNames (ms : List Mention) : List String := (ms.filter (·.isLocal)).map (·.name)

/-- The names that are used in the given way outside nested regions. -/
def namesUsed (use : Use) (ms : List Mention) : List String :=
  (ms.filter fun m => m.use == use && m.regions.isEmpty).map (·.name)

/-- The region of code with the given mentions. Parameters are bound when it is entered, and are
never global. -/
def Region.of (kind : RegionKind) (params : List String) (ms : List Mention) : Region where
  kind := kind
  bound := if kind = .comprehension then namesUsed .bind ms else params ++ ownNames ms
  globals := (namesUsed .global ms).filter (· ∉ params)
  nonlocals := namesUsed .nonlocal ms
  touched := namesUsed .touch ms

def enclosed (kind : RegionKind) (params : List String) (ms : List Mention) : List Mention :=
  ms.map (·.under (.of kind params ms))

def bindings (names : List String) : List Mention := names.map (.of .bind)

mutual

def mentions : Expr → List Mention
  | .name _ ctx id => [.of (if ctx = .load then .load else .bind) id]
  | .literal .. => []
  | .template _ parts => mentionsAll parts
  | .field _ value _ spec => mentions value ++ mentionsOption spec
  | .unary _ _ e => mentions e
  | .binary _ l _ r => mentions l ++ mentions r
  | .bool _ _ es => mentionsAll es
  | .compare _ l _ es => mentions l ++ mentionsAll es
  | .conditional _ t b o => mentions t ++ mentions b ++ mentions o
  | .lambda _ ps body =>
    mentionsParams ps ++ enclosed .function (paramNames ps) (mentions body)
  | .walrus _ target value => mentions value ++ [.of .walrus target]
  | .attribute _ _ e _ => mentions e
  | .subscript _ _ e i => mentions e ++ mentions i
  | .slice _ l u t => mentionsOption l ++ mentionsOption u ++ mentionsOption t
  | .call _ f args ks => mentions f ++ mentionsAll args ++ mentionsArguments ks
  | .list _ es => mentionsAll es
  | .tuple _ es => mentionsAll es
  | .set _ es => mentionsAll es
  | .dict _ es => mentionsKeys es ++ mentionsValues es
  | .listComp _ e gs =>
    mentionsFirst gs ++ enclosed .comprehension [] (mentionsGenerators gs ++ mentions e)
  | .setComp _ e gs =>
    mentionsFirst gs ++ enclosed .comprehension [] (mentionsGenerators gs ++ mentions e)
  | .genExp _ e gs =>
    mentionsFirst gs ++ enclosed .comprehension [] (mentionsGenerators gs ++ mentions e)
  | .dictComp _ k v gs =>
    mentionsFirst gs ++
      enclosed .comprehension [] (mentionsGenerators gs ++ mentions k ++ mentions v)
  | .starred _ e => mentions e
  | .await _ e => mentions e
  | .yield _ e => mentionsOption e
  | .yieldFrom _ e => mentions e

def mentionsAll : List Expr → List Mention
  | [] => []
  | e :: es => mentions e ++ mentionsAll es

def mentionsOption : Option Expr → List Mention
  | none => []
  | some e => mentions e

def mentionsArguments : List Argument → List Mention
  | [] => []
  | .mk _ e :: ks => mentions e ++ mentionsArguments ks

def mentionsKeys : List Entry → List Mention
  | [] => []
  | .pair k _ :: es => mentions k ++ mentionsKeys es
  | .unpack _ :: es => mentionsKeys es

def mentionsValues : List Entry → List Mention
  | [] => []
  | .pair _ v :: es => mentions v ++ mentionsValues es
  | .unpack v :: es => mentions v ++ mentionsValues es

/-- The first iterable of a comprehension is evaluated outside it. -/
def mentionsFirst : List Generator → List Mention
  | [] => []
  | .mk _ _ iter _ :: _ => mentions iter

/-- The loops of a comprehension without the first iterable. -/
def mentionsGenerators : List Generator → List Mention
  | [] => []
  | .mk _ target _ conditions :: gs =>
    mentions target ++ mentionsAll conditions ++ mentionsInnerGenerators gs

def mentionsInnerGenerators : List Generator → List Mention
  | [] => []
  | .mk _ target iter conditions :: gs =>
    mentions iter ++ mentions target ++ mentionsAll conditions ++ mentionsInnerGenerators gs

/-- Defaults and annotations; both are evaluated outside the function. -/
def mentionsParams : Params → List Mention
  | .mk positionalOnly positional rest keywordOnly keywords =>
    mentionsDefaults positionalOnly ++ mentionsDefaults positional ++
      mentionsDefaults keywordOnly ++ mentionsHints positionalOnly ++ mentionsHints positional ++
      mentionsHints keywordOnly ++ mentionsHint rest ++ mentionsHint keywords

def mentionsDefaults : List Param → List Mention
  | [] => []
  | .mk _ _ d :: ps => mentionsOption d ++ mentionsDefaults ps

def mentionsHints : List Param → List Mention
  | [] => []
  | .mk _ a _ :: ps => mentionsOption a ++ mentionsHints ps

def mentionsHint : Option Param → List Mention
  | none => []
  | some (.mk _ a _) => mentionsOption a

end

mutual

def mentionsPattern : Pattern → List Mention
  | .value e => mentions e
  | .singleton _ => []
  | .sequence ps => mentionsPatterns ps
  | .mapping keys ps rest => mentionsAll keys ++ mentionsPatterns ps ++ bindings rest.toList
  | .classOf cls ps _ qs => mentions cls ++ mentionsPatterns ps ++ mentionsPatterns qs
  | .star id => bindings id.toList
  | .as none id => bindings id.toList
  | .as (some p) id => mentionsPattern p ++ bindings id.toList
  | .or ps => mentionsPatterns ps

def mentionsPatterns : List Pattern → List Mention
  | [] => []
  | p :: ps => mentionsPattern p ++ mentionsPatterns ps

end

/-- The names in the contexts and targets of a `with` statement. -/
def mentionsItems : List WithItem → List Mention
  | [] => []
  | i :: is => mentions i.context ++ mentionsOption i.target ++ mentionsItems is

/-- The name that `target op= value` reads before it binds it. -/
def mentionsUpdated : Expr → List Mention
  | .name _ _ id => [.of .load id]
  | _ => []

/-- The target of an annotation without a value. A name is not touched, other targets are
evaluated. -/
def mentionsAnnotated (simple : Bool) : Expr → List Mention
  | .name _ _ id => [.of (if simple then .annotate else .touch) id]
  | t => (mentions t).map .bare

mutual

def mentionsStmt : Stmt → List Mention
  | .expr _ e => mentions e
  | .assign _ ts e => mentionsAll ts ++ mentions e
  | .augAssign _ t _ e => mentionsUpdated t ++ mentions e ++ mentions t
  | .annAssign _ t a none simple => mentions a ++ mentionsAnnotated simple t
  | .annAssign _ t a (some e) _ => mentions a ++ mentions e ++ mentions t
  | .functionDef _ _ id ps body decorators returns =>
    mentionsAll decorators ++ mentionsParams ps ++ mentionsOption returns ++ bindings [id] ++
      enclosed .function (paramNames ps) (mentionsStmts body)
  | .classDef _ id bases ks body decorators =>
    mentionsAll decorators ++ mentionsAll bases ++ mentionsArguments ks ++ bindings [id] ++
      enclosed (.classBody id) [] (mentionsStmts body)
  | .return _ e => mentionsOption e
  | .delete _ ts => mentionsAll ts
  | .for _ _ t i body orelse =>
    mentions t ++ mentions i ++ mentionsStmts body ++ mentionsStmts orelse
  | .while _ t body orelse => mentions t ++ mentionsStmts body ++ mentionsStmts orelse
  | .if _ t body orelse => mentions t ++ mentionsStmts body ++ mentionsStmts orelse
  | .with _ _ items body => mentionsItems items ++ mentionsStmts body
  | .match _ e cases => mentions e ++ (mentionsCases cases).map .matched
  | .raise _ e cause => mentionsOption e ++ mentionsOption cause
  | .try _ _ body handlers orelse final =>
    mentionsStmts body ++ mentionsHandlers handlers ++ mentionsStmts orelse ++
      mentionsStmts final
  | .assert _ t m => mentions t ++ mentionsOption m
  | .import _ names => bindings (aliasNames names)
  | .importFrom _ _ names _ => bindings (aliasNames names)
  | .global _ names => names.map (.of .global)
  | .nonlocal _ names => names.map (.of .nonlocal)
  | .pass _ => []
  | .break _ => []
  | .continue _ => []

def mentionsStmts : List Stmt → List Mention
  | [] => []
  | s :: ss => mentionsStmt s ++ mentionsStmts ss

def mentionsHandlers : List Handler → List Mention
  | [] => []
  | .mk _ type id body :: hs =>
    mentionsOption type ++ id.toList.map (.of .handler) ++ mentionsStmts body ++
      mentionsHandlers hs

def mentionsCases : List Case → List Mention
  | [] => []
  | .mk p guard body :: cs =>
    mentionsPattern p ++ mentionsOption guard ++ mentionsStmts body ++ mentionsCases cs

end

end NotebookSlice.Flow
