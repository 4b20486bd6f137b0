import NotebookSlice.Syntax.Grammar.Expression

/-! # The grammar of parameters

Parameters of functions and of lambdas. They differ in the mark that closes the
list and in annotations, which only functions have.
-/

namespace NotebookSlice.Syntax.Grammar

open Syntax.Parser

inductive ParameterPlace | function | lambda
  deriving DecidableEq

def ParameterPlace.closing : ParameterPlace → Punct
  | function => .rpar
  | lambda => .colon

namespace Parameter

variable (g : Engine) (place : ParameterPlace)

/-- A comma after a parameter, or the end of the list ahead. -/
def separator : Parser Unit :=
  (do let _ ← sym .comma) <|> followedBy (sym place.closing)

/-- A name, and its annotation in a function. The result has no default. -/
def param : Parser (Nat × Param) := rule do
  let (line, id) ← name
  match place with
  | .function =>
    let hint ← opt (rule do
      let _ ← sym .colon
      expression g)
    return (line, .mk id hint none)
  | .lambda => return (line, .mk id none none)

def default : Parser Expr := rule (
  (do
    let _ ← sym .eq
    expression g) <|>
  diagnose (rule do
    let t ← sym .eq
    followedBy (sym .rpar <|> sym .comma)
    raiseAt t.line))

def withDefault (p : Param) (d : Option Expr) : Param := .mk p.name p.hint d

def noDefault : Parser (Nat × Param) := rule do
  let p ← param g place
  separator place
  return p

def hasDefault : Parser Param := rule do
  let (_, p) ← param g place
  let d ← default g
  separator place
  return withDefault p (some d)

def maybeDefault : Parser Param := rule do
  let (_, p) ← param g place
  let d ← opt (default g)
  separator place
  return withDefault p d

def slashNoDefault : Parser (List Param) := rule do
  let ps ← many1 (noDefault g place)
  let _ ← sym .slash
  separator place
  return ps.map (·.2)

/-- Parameters, the last ones with defaults, up to a slash. -/
def slashHasDefault : Parser (List Param) := rule do
  let ps ← many (noDefault g place)
  let qs ← many1 (hasDefault g place)
  let _ ← sym .slash
  separator place
  return ps.map (·.2) ++ qs

structure Tail where
  rest : Option Param
  keywordOnly : List Param
  keywords : Option Param

def misplacedKeywords {α : Type} : Parser α := rule (
  (do
    let _ ← sym .doubleStar
    let _ ← param g place
    let t ← sym .eq
    raiseAt t.line) <|>
  (do
    let _ ← sym .doubleStar
    let _ ← param g place
    let _ ← sym .comma
    let (line, _) ← param g place
    raiseAt line) <|>
  (do
    let _ ← sym .doubleStar
    let _ ← param g place
    let _ ← sym .comma
    let t ← sym .star <|> sym .doubleStar <|> sym .slash
    raiseAt t.line))

def keywords : Parser Param := rule (
  diagnose (misplacedKeywords g place) <|>
  (do
    let _ ← sym .doubleStar
    return (← noDefault g place).2))

def misplacedTail {α : Type} : Parser α := rule (
  (do
    let t ← sym .star
    (do let _ ← sym place.closing) <|> (do
      let _ ← sym .comma
      let _ ← sym place.closing <|> sym .doubleStar)
    match place with
    | .function => raiseAt t.line
    | .lambda => raiseHere) <|>
  (do
    let _ ← sym .star
    let _ ← param g place
    let t ← sym .eq
    raiseAt t.line) <|>
  (do
    let _ ← sym .star
    (do let _ ← noDefault g place) <|> (do let _ ← sym .comma)
    let _ ← many (maybeDefault g place)
    let t ← sym .star
    (do let _ ← noDefault g place) <|> (do let _ ← sym .comma)
    raiseAt t.line))

/-- The parameter that takes the remaining arguments; its annotation may be starred. -/
def restParam : Parser Param :=
  (do return (← noDefault g place).2) <|>
  (match place with
    | .lambda => fail
    | .function => rule do
      let id ← ident
      let _ ← sym .colon
      let hint ← g.call .starExpression
      separator place
      return .mk id (some hint) none)

def tail : Parser Tail := rule (
  diagnose (misplacedTail g place) <|>
  (do
    let _ ← sym .star
    let rest ← restParam g place
    let only ← many (maybeDefault g place)
    return ⟨some rest, only, ← opt (keywords g place)⟩) <|>
  (do
    let _ ← sym .star
    let _ ← sym .comma
    let only ← many1 (maybeDefault g place)
    return ⟨none, only, ← opt (keywords g place)⟩) <|>
  (do return ⟨none, [], some (← keywords g place)⟩))

def assemble (positionalOnly positional : List Param) (t : Option Tail) : Params :=
  match t with
  | some t => .mk positionalOnly positional t.rest t.keywordOnly t.keywords
  | none => .mk positionalOnly positional none [] none

def misplacedParams {α : Type} : Parser α := rule (
  (do
    let _ ← many (noDefault g place)
    (do let _ ← slashHasDefault g place) <|> (do let _ ← many1 (hasDefault g place))
    let (line, _) ← noDefault g place
    raiseAt line) <|>
  (do
    let _ ← many (noDefault g place)
    let t ← sym .lpar
    match place with
    | .function => do let _ ← many1 (noDefault g .function)
    | .lambda => do let _ ← sepBy1 (param g .lambda) (sym .comma)
    let _ ← opt (sym .comma)
    let _ ← sym .rpar
    raiseAt t.line) <|>
  (do
    let t ← sym .slash
    let _ ← sym .comma
    raiseAt t.line) <|>
  (do
    let _ ← slashNoDefault g place <|> slashHasDefault g place
    let _ ← many (maybeDefault g place)
    let t ← sym .slash
    raiseAt t.line) <|>
  (do
    let _ ← opt (slashNoDefault g place <|> slashHasDefault g place)
    let _ ← many (maybeDefault g place)
    let _ ← sym .star
    (do let _ ← sym .comma) <|> (do let _ ← noDefault g place)
    let _ ← many (maybeDefault g place)
    let t ← sym .slash
    raiseAt t.line) <|>
  (do
    let _ ← many1 (maybeDefault g place)
    let _ ← sym .slash
    let t ← sym .star
    raiseAt t.line))

end Parameter

open Parameter in
def params (g : Engine) (place : ParameterPlace) : Parser Params := rule (
  diagnose (misplacedParams g place) <|>
  (do
    let a ← slashNoDefault g place
    let b ← many (noDefault g place)
    let c ← many (hasDefault g place)
    return assemble a (b.map (·.2) ++ c) (← opt (tail g place))) <|>
  (do
    let a ← slashHasDefault g place
    let b ← many (hasDefault g place)
    return assemble a b (← opt (tail g place))) <|>
  (do
    let a ← many1 (noDefault g place)
    let b ← many (hasDefault g place)
    return assemble [] (a.map (·.2) ++ b) (← opt (tail g place))) <|>
  (do
    let a ← many1 (hasDefault g place)
    return assemble [] a (← opt (tail g place))) <|>
  (do return assemble [] [] (some (← tail g place))))

variable (g : Engine)

def lambda : Parser Expr := rule do
  let t ← kw .lambda
  let ps ← opt (params g .lambda)
  let _ ← sym .colon
  return .lambda t.line (ps.getD .empty) (← expression g)

/-! ## Expressions -/

/-- The expression rule as it is in code without faults. -/
def plainExpression : Parser Expr := conditional g <|> lambda g

/-- Two expressions side by side in brackets, or a condition that lacks its alternative. -/
def misplacedExpression {α : Type} : Parser α := rule (
  (do
    notFollowedBy (
      (do
        let _ ← name
        let _ ← stringToken) <|>
      (do let _ ← soft .match <|> soft .case <|> soft .underscore))
    let a ← disjunction g
    let _ ← plainly (plainExpression g)
    let depth := ((← previous).map Token.depth).getD 0
    if isLegacyName a || depth = 0 then giveUp else raiseAt a.line) <|>
  (do
    let a ← disjunction g
    let _ ← kw .if
    let _ ← disjunction g
    notFollowedBy ((do let _ ← kw .else) <|> (do let _ ← sym .colon))
    raiseAt a.line))

def misplacedLegacy {α : Type} : Parser α := rule do
  let a ← nameExpr .load
  notFollowedBy (sym .lpar)
  let _ ← starExpressions g
  if isLegacyName a then raiseAt a.line else giveUp

def expressionBody : Parser Expr :=
  diagnose (misplacedExpression g) <|>
  diagnose (misplacedLegacy g) <|>
  plainExpression g

/-- An assignment where only an expression may stand. -/
def misplacedAssignment : Parser Expr :=
  (do
    let a ← expression g
    let _ ← sym .colonEq
    let _ ← expression g
    raiseAt a.line) <|>
  (do
    let (line, _) ← name
    let _ ← sym .eq
    let _ ← bitwiseOr g
    notFollowedBy (sym .eq <|> sym .colonEq)
    raiseAt line) <|>
  (do
    notFollowedBy (list g <|> tuple g <|> genExp g <|> word .trueWord "True" <|>
      word .noneWord "None" <|> word .falseWord "False")
    let a ← bitwiseOr g
    let _ ← sym .eq
    let _ ← bitwiseOr g
    notFollowedBy (sym .eq <|> sym .colonEq)
    raiseAt a.line)

end NotebookSlice.Syntax.Grammar
