import NotebookSlice.Syntax.Grammar.Expression

/-! # The grammar of patterns -/

namespace NotebookSlice.Syntax.Grammar

open Syntax.Parser

variable (g : Engine)

def pathAhead : Parser Unit := do let _ ← sym .dot <|> sym .lpar <|> sym .eq

def captureTarget : Parser String := rule do
  notFollowedBy (soft .underscore)
  let id ← ident
  notFollowedBy pathAhead
  return id

def attributePathBody : Parser Expr := do
  let line ← lineHere
  let first ← nameExpr .load
  let attrs ← many1 (do let _ ← sym .dot; ident)
  return attrs.foldl (fun subject attr => .attribute line .load subject attr) first

def nameOrPath : Parser Expr := g.call .attributePath <|> nameExpr .load

/-- A number that is imaginary, or one that is not, as asked for. -/
def part (imaginary : Bool) : Parser Expr := rule do
  let e ← number
  match e with
  | .literal line text =>
    if Number.isImaginary text.toList = imaginary then return e else raiseAt line
  | _ => return e

def signed (p : Parser Expr) : Parser Expr := rule (
  p <|> do
    let t ← sym .minus
    return .unary t.line .minus (← p))

def signedNumber : Parser Expr := do
  let e ← signed number
  notFollowedBy (sym .plus <|> sym .minus)
  return e

def complexNumber : Parser Expr := rule do
  let line ← lineHere
  (do
    let re ← signed (part false)
    let _ ← sym .plus
    return .binary line re .add (← part true)) <|>
  (do
    let re ← signed (part false)
    let _ ← sym .minus
    return .binary line re .sub (← part true))

def constantWord : Parser Expr :=
  word .noneWord "None" <|> word .trueWord "True" <|> word .falseWord "False"

def literalExpr : Parser Expr := rule (
  signedNumber <|> complexNumber <|> g.call .strings <|> constantWord)

def literalPattern : Parser Pattern := rule (
  (do return .value (← signedNumber)) <|>
  (do return .value (← complexNumber)) <|>
  (do return .value (← g.call .strings)) <|>
  (do
    match ← constantWord with
    | .literal _ text => return .singleton text
    | e => return .value e))

def orPattern : Parser Pattern := rule do
  match ← sepBy1 (g.call .closedPattern) (sym .bar) with
  | [p] => return p
  | ps => return .or ps

def misplacedCapture {α : Type} : Parser α := rule (
  (do
    let _ ← orPattern g
    let _ ← kw .as
    let t ← soft .underscore
    raiseAt t.line) <|>
  (do
    let _ ← orPattern g
    let _ ← kw .as
    notFollowedBy name
    let a ← expression g
    raiseAt a.line))

def pattern : Parser Pattern := rule (
  (do
    let p ← orPattern g
    let _ ← kw .as
    return .as (some p) (some (← captureTarget))) <|>
  diagnose (misplacedCapture g) <|>
  orPattern g)

def starPatternBody : Parser Pattern :=
  (do
    let _ ← sym .star
    return .star (some (← captureTarget))) <|>
  (do
    let _ ← sym .star
    let _ ← soft .underscore
    return .star none)

def maybeStarPattern : Parser Pattern := g.call .starPattern <|> pattern g

def maybeSequence : Parser (List Pattern) := rule do
  let ps ← sepBy1 (maybeStarPattern g) (sym .comma)
  let _ ← opt (sym .comma)
  return ps

def openSequence : Parser (List Pattern) := rule do
  let p ← maybeStarPattern g
  let _ ← sym .comma
  return p :: (← opt (maybeSequence g)).getD []

def keyValue : Parser (Expr × Pattern) := rule do
  let k ← literalExpr g <|> g.call .attributePath
  let _ ← sym .colon
  return (k, ← pattern g)

def keyValues : Parser (List (Expr × Pattern)) := rule (sepBy1 (keyValue g) (sym .comma))

def restOfMapping : Parser String := rule do
  let _ ← sym .doubleStar
  captureTarget

def closeBrace : Parser Unit := do
  let _ ← opt (sym .comma)
  let _ ← sym .rbrace

def mappingPattern : Parser Pattern := rule (
  (do
    let _ ← sym .lbrace
    let _ ← sym .rbrace
    return .mapping [] [] none) <|>
  (do
    let _ ← sym .lbrace
    let rest ← restOfMapping
    closeBrace
    return .mapping [] [] (some rest)) <|>
  (do
    let _ ← sym .lbrace
    let items ← keyValues g
    let _ ← sym .comma
    let rest ← restOfMapping
    closeBrace
    return .mapping (items.map (·.1)) (items.map (·.2)) (some rest)) <|>
  (do
    let _ ← sym .lbrace
    let items ← keyValues g
    closeBrace
    return .mapping (items.map (·.1)) (items.map (·.2)) none))

def positionalPatterns : Parser (List Pattern) := rule (sepBy1 (pattern g) (sym .comma))

def keywordPatterns : Parser (List (String × Pattern)) := rule (sepBy1 (rule do
  let id ← ident
  let _ ← sym .eq
  return (id, ← pattern g)) (sym .comma))

def closePar : Parser Unit := do
  let _ ← opt (sym .comma)
  let _ ← sym .rpar

def misplacedClassPattern {α : Type} : Parser α := rule do
  let _ ← nameOrPath g
  let _ ← sym .lpar
  let _ ← opt do
    let _ ← positionalPatterns g
    sym .comma
  let _ ← keywordPatterns g
  let _ ← sym .comma
  let line ← lineHere
  let _ ← positionalPatterns g
  raiseAt line

def classPattern : Parser Pattern := rule (
  (do
    let cls ← nameOrPath g
    let _ ← sym .lpar
    let _ ← sym .rpar
    return .classOf cls [] [] []) <|>
  (do
    let cls ← nameOrPath g
    let _ ← sym .lpar
    let ps ← positionalPatterns g
    closePar
    return .classOf cls ps [] []) <|>
  (do
    let cls ← nameOrPath g
    let _ ← sym .lpar
    let ks ← keywordPatterns g
    closePar
    return .classOf cls [] (ks.map (·.1)) (ks.map (·.2))) <|>
  (do
    let cls ← nameOrPath g
    let _ ← sym .lpar
    let ps ← positionalPatterns g
    let _ ← sym .comma
    let ks ← keywordPatterns g
    closePar
    return .classOf cls ps (ks.map (·.1)) (ks.map (·.2))) <|>
  diagnose (misplacedClassPattern g))

def valuePattern : Parser Pattern := rule do
  let path ← g.call .attributePath
  notFollowedBy pathAhead
  return .value path

def closedPatternBody : Parser Pattern :=
  literalPattern g <|>
  (do return .as none (some (← captureTarget))) <|>
  (do
    let _ ← soft .underscore
    return .as none none) <|>
  valuePattern g <|>
  enclosed .lpar (pattern g) .rpar <|>
  (do return .sequence ((← enclosed .lsqb (opt (maybeSequence g)) .rsqb).getD [])) <|>
  (do return .sequence ((← enclosed .lpar (opt (openSequence g)) .rpar).getD [])) <|>
  mappingPattern g <|>
  classPattern g

def patterns : Parser Pattern := rule (
  (do return .sequence (← openSequence g)) <|> pattern g)

end NotebookSlice.Syntax.Grammar
