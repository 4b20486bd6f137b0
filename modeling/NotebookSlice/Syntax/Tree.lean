/-! # Syntax trees

Expressions, patterns and statements of cell code. Every expression keeps the
line it starts on, every statement the lines it spans. Layout and comments are gone.
-/

namespace NotebookSlice.Syntax

/-- Is a name, attribute or element read, bound or deleted? -/
inductive Context | load | store | delete
  deriving DecidableEq, Repr

inductive UnaryOp | plus | minus | invert | not
  deriving DecidableEq, Repr

inductive BinaryOp
  | add | sub | mul | matMul | div | mod | pow | shiftLeft | shiftRight | bitOr | bitXor | bitAnd
  | floorDiv
  deriving DecidableEq, Repr

inductive BoolOp | and | or
  deriving DecidableEq, Repr

inductive CompareOp | eq | notEq | less | lessEq | greater | greaterEq | is | isNot | in | notIn
  deriving DecidableEq, Repr

mutual

/-- An expression; `line` is where its first token starts. -/
inductive Expr
  | name (line : Nat) (ctx : Context) (id : String)
  /-- a number, a string without fields, or one of the constant words, as it is spelled -/
  | literal (line : Nat) (text : String)
  /-- a string with replacement fields: `literal` and `field` parts in order -/
  | template (line : Nat) (parts : List Expr)
  | field (line : Nat) (value : Expr) (conversion : Option Char) (spec : Option Expr)
  | unary (line : Nat) (op : UnaryOp) (operand : Expr)
  | binary (line : Nat) (left : Expr) (op : BinaryOp) (right : Expr)
  | bool (line : Nat) (op : BoolOp) (values : List Expr)
  | compare (line : Nat) (left : Expr) (ops : List CompareOp) (comparators : List Expr)
  | conditional (line : Nat) (test body orelse : Expr)
  | lambda (line : Nat) (params : Params) (body : Expr)
  /-- `target := value` -/
  | walrus (line : Nat) (target : String) (value : Expr)
  | attribute (line : Nat) (ctx : Context) (value : Expr) (attr : String)
  | subscript (line : Nat) (ctx : Context) (value index : Expr)
  | slice (line : Nat) (lower upper step : Option Expr)
  | call (line : Nat) (func : Expr) (args : List Expr) (keywords : List Argument)
  | list (line : Nat) (elements : List Expr)
  | tuple (line : Nat) (elements : List Expr)
  | set (line : Nat) (elements : List Expr)
  | dict (line : Nat) (entries : List Entry)
  | listComp (line : Nat) (element : Expr) (generators : List Generator)
  | setComp (line : Nat) (element : Expr) (generators : List Generator)
  | genExp (line : Nat) (element : Expr) (generators : List Generator)
  | dictComp (line : Nat) (key value : Expr) (generators : List Generator)
  | starred (line : Nat) (value : Expr)
  | await (line : Nat) (value : Expr)
  | yield (line : Nat) (value : Option Expr)
  | yieldFrom (line : Nat) (value : Expr)

/-- A keyword argument `name=value`, or `**value` when it has no name. -/
inductive Argument
  | mk (name : Option String) (value : Expr)

/-- An entry `key: value` or `**value` of a dictionary. -/
inductive Entry
  | pair (key value : Expr)
  | unpack (value : Expr)

/-- One `for target in iter if …` part of a comprehension. -/
inductive Generator
  | mk (async : Bool) (target iter : Expr) (conditions : List Expr)

inductive Param
  | mk (name : String) (hint default : Option Expr)

inductive Params
  | mk (positionalOnly positional : List Param) (rest : Option Param) (keywordOnly : List Param)
      (keywords : Option Param)

end

inductive Pattern
  | value (expr : Expr)
  | singleton (text : String)
  | sequence (patterns : List Pattern)
  | mapping (keys : List Expr) (patterns : List Pattern) (rest : Option String)
  | classOf (cls : Expr) (patterns : List Pattern) (attrs : List String)
      (attrPatterns : List Pattern)
  | star (name : Option String)
  | as (pattern : Option Pattern) (name : Option String)
  | or (patterns : List Pattern)

structure Alias where
  name : String
  as? : Option String
  deriving DecidableEq, Repr

structure Span where
  first : Nat
  last : Nat
  deriving DecidableEq, Repr

/-- The context expression of a `with` statement and its target. -/
structure WithItem where
  context : Expr
  target : Option Expr

mutual

/-- A statement. The span of a decorated definition starts at its `def` or `class` line. -/
inductive Stmt
  | expr (span : Span) (value : Expr)
  | assign (span : Span) (targets : List Expr) (value : Expr)
  | augAssign (span : Span) (target : Expr) (op : BinaryOp) (value : Expr)
  /-- `target: hint` or `target: hint = value`; `simple` if the target is a name without parentheses -/
  | annAssign (span : Span) (target hint : Expr) (value : Option Expr) (simple : Bool)
  | functionDef (span : Span) (async : Bool) (name : String) (params : Params) (body : List Stmt)
      (decorators : List Expr) (returns : Option Expr)
  | classDef (span : Span) (name : String) (bases : List Expr) (keywords : List Argument)
      (body : List Stmt) (decorators : List Expr)
  | return (span : Span) (value : Option Expr)
  | delete (span : Span) (targets : List Expr)
  | for (span : Span) (async : Bool) (target iter : Expr) (body orelse : List Stmt)
  | while (span : Span) (test : Expr) (body orelse : List Stmt)
  | if (span : Span) (test : Expr) (body orelse : List Stmt)
  | with (span : Span) (async : Bool) (items : List WithItem) (body : List Stmt)
  | match (span : Span) (subject : Expr) (cases : List Case)
  | raise (span : Span) (exc cause : Option Expr)
  | try (span : Span) (group : Bool) (body : List Stmt) (handlers : List Handler)
      (orelse final : List Stmt)
  | assert (span : Span) (test : Expr) (message : Option Expr)
  | import (span : Span) (names : List Alias)
  | importFrom (span : Span) (module : Option String) (names : List Alias) (level : Nat)
  | global (span : Span) (names : List String)
  | nonlocal (span : Span) (names : List String)
  | pass (span : Span)
  | break (span : Span)
  | continue (span : Span)

inductive Handler
  | mk (span : Span) (type : Option Expr) (name : Option String) (body : List Stmt)

inductive Case
  | mk (pattern : Pattern) (guard : Option Expr) (body : List Stmt)

end

namespace Expr

def line : Expr → Nat
  | .name l .. | .literal l .. | .template l .. | .field l .. | .unary l .. | .binary l ..
  | .bool l .. | .compare l .. | .conditional l .. | .lambda l .. | .walrus l ..
  | .attribute l .. | .subscript l .. | .slice l .. | .call l .. | .list l .. | .tuple l ..
  | .set l .. | .dict l .. | .listComp l .. | .setComp l .. | .genExp l .. | .dictComp l ..
  | .starred l .. | .await l .. | .yield l .. | .yieldFrom l .. => l

end Expr

namespace Param

def name : Param → String
  | mk n _ _ => n

def hint : Param → Option Expr
  | mk _ a _ => a

def default : Param → Option Expr
  | mk _ _ d => d

end Param

namespace Params

def empty : Params := mk [] [] none [] none

def positionalOnly : Params → List Param
  | mk p .. => p

def positional : Params → List Param
  | mk _ p .. => p

def rest : Params → Option Param
  | mk _ _ r .. => r

def keywordOnly : Params → List Param
  | mk _ _ _ k _ => k

def keywords : Params → Option Param
  | mk _ _ _ _ k => k

end Params

namespace Argument

def name : Argument → Option String
  | mk n _ => n

def value : Argument → Expr
  | mk _ v => v

end Argument

namespace Stmt

def span : Stmt → Span
  | .expr s .. | .assign s .. | .augAssign s .. | .annAssign s .. | .functionDef s ..
  | .classDef s .. | .return s .. | .delete s .. | .for s .. | .while s .. | .if s ..
  | .with s .. | .match s .. | .raise s .. | .try s .. | .assert s .. | .import s ..
  | .importFrom s .. | .global s .. | .nonlocal s .. | .pass s .. | .break s ..
  | .continue s .. => s

def decorators : Stmt → List Expr
  | .functionDef _ _ _ _ _ ds _ => ds
  | .classDef _ _ _ _ _ ds => ds
  | _ => []

def form : Stmt → String
  | .expr .. => "Expr"
  | .assign .. => "Assign"
  | .augAssign .. => "AugAssign"
  | .annAssign .. => "AnnAssign"
  | .functionDef _ async .. => if async then "AsyncFunctionDef" else "FunctionDef"
  | .classDef .. => "ClassDef"
  | .return .. => "Return"
  | .delete .. => "Delete"
  | .for _ async .. => if async then "AsyncFor" else "For"
  | .while .. => "While"
  | .if .. => "If"
  | .with _ async .. => if async then "AsyncWith" else "With"
  | .match .. => "Match"
  | .raise .. => "Raise"
  | .try _ group .. => if group then "TryStar" else "Try"
  | .assert .. => "Assert"
  | .import .. => "Import"
  | .importFrom .. => "ImportFrom"
  | .global .. => "Global"
  | .nonlocal .. => "Nonlocal"
  | .pass .. => "Pass"
  | .break .. => "Break"
  | .continue .. => "Continue"

end Stmt

namespace Handler

def span : Handler → Span
  | mk s .. => s

def type : Handler → Option Expr
  | mk _ t .. => t

def name : Handler → Option String
  | mk _ _ n _ => n

def body : Handler → List Stmt
  | mk _ _ _ b => b

end Handler

end NotebookSlice.Syntax
