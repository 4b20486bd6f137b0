import NotebookSlice.Syntax.Grammar.Simple
import NotebookSlice.Syntax.Grammar.Pattern

/-! # The grammar of compound statements

Statements with blocks. A block is an indented list of statements or the rest
of the line; a missing block is a fault at the token where it should start.
-/

namespace NotebookSlice.Syntax.Grammar

open Syntax.Parser

variable (g : Engine)

abbrev block : Parser Suite := g.call .block

/-- A mark without which the statement cannot go on. -/
def force (mark : Punct) : Parser Unit :=
  (do let _ ← sym mark) <|> (do raiseAt (← peek).line)

def colonMissing {α β : Type} (head : Parser α) : Parser β := do
  let _ ← head
  let _ ← newline
  raiseHere

def blockMissing {α β : Type} (head : Parser α) : Parser β := do
  let _ ← head
  let _ ← sym .colon
  let _ ← newline
  notFollowedBy (kind .indent)
  raiseHere

/-! ## Blocks -/

def indented {α : Type} (p : Parser α) : Parser α := do
  let _ ← newline
  let _ ← kind .indent
  let a ← p
  let _ ← kind .dedent
  return a

def colonBlock : Parser Suite := do
  let _ ← sym .colon
  block g

def elseBlock : Parser Suite := rule (
  diagnose (blockMissing (kw .else)) <|>
  (do
    let _ ← kw .else
    force .colon
    block g))

/-! ## Definitions -/

def decorators : Parser (List Expr) := rule (many1 do
  let _ ← sym .at
  let e ← namedExpression g
  let _ ← newline
  return e)

def classArguments : Parser (Option CallArguments) := opt do
  let _ ← sym .lpar
  let arguments ← opt (g.call .arguments)
  let _ ← sym .rpar
  return arguments.getD ⟨[], []⟩

def classHead : Parser (String × Option CallArguments) := do
  let _ ← kw .classWord
  let id ← ident
  return (id, ← classArguments g)

def classDef (decorators : List Expr) : Parser LegalStmt := rule do
  let start ← startHere
  diagnose (rule (colonMissing (classHead g) <|> blockMissing (classHead g))) <|>
  (do
    let (id, arguments) ← classHead g
    let body ← colonBlock g
    let arguments := arguments.getD ⟨[], []⟩
    return ⟨.classDef (← spanFrom start) id arguments.positional arguments.keywords body.statements
      decorators, .classDef body.nonempty body.legal⟩)

def returns : Parser (Option Expr) := opt do
  let _ ← sym .arrow
  expression g

def functionRest (start : Mark) (async : Bool) (decorators : List Expr) : Parser LegalStmt := do
  let _ ← kw .define
  let id ← ident
  force .lpar
  let ps ← opt (params g .function)
  let _ ← sym .rpar
  let result ← returns g
  force .colon
  let body ← block g
  return ⟨.functionDef (← spanFrom start) async id (ps.getD .empty) body.statements decorators
    result, .functionDef body.nonempty body.legal⟩

def functionDef (decorators : List Expr) : Parser LegalStmt := rule do
  let start ← startHere
  diagnose (rule (blockMissing do
    let _ ← opt (kw .async)
    let _ ← kw .define
    let _ ← ident
    let _ ← sym .lpar
    let _ ← opt (params g .function)
    let _ ← sym .rpar
    returns g)) <|>
  functionRest g start false decorators <|>
  (do
    let _ ← kw .async
    functionRest g start true decorators)

/-- A definition after its decorators. No other statement begins like them. -/
def decorated : Parser LegalStmt := do
  followedBy (sym .at)
  commit do
    let ds ← decorators g
    functionDef g ds <|> classDef g ds

/-! ## Conditions and loops -/

def condition (k : Keyword) : Parser Expr := do
  let _ ← kw k
  namedExpression g

def ifStatement (k : Keyword) : Parser LegalStmt := rule do
  let start ← startHere
  diagnose (rule (colonMissing (condition g k) <|> blockMissing (condition g k))) <|>
  (do
    let test ← condition g k
    let body ← colonBlock g
    let orelse := Suite.optional (← opt (g.call .elifClause <|> elseBlock g))
    return ⟨.if (← spanFrom start) test body.statements orelse.val,
      .if body.nonempty body.legal orelse.property⟩)

def elifClauseBody : Parser Suite := do return .ofStmts (← ifStatement g .elif) []

def whileStatement : Parser LegalStmt := rule do
  let start ← startHere
  diagnose (rule (colonMissing (condition g .while) <|> blockMissing (condition g .while))) <|>
  (do
    let test ← condition g .while
    let body ← colonBlock g
    let orelse := Suite.optional (← opt (elseBlock g))
    return ⟨.while (← spanFrom start) test body.statements orelse.val,
      .while body.nonempty body.legal orelse.property⟩)

def loopHead : Parser Unit := do
  let _ ← opt (kw .async)
  let _ ← kw .for
  let _ ← starTargets g
  let _ ← kw .in
  let _ ← starExpressions g

def loopRest (start : Mark) (async : Bool) : Parser LegalStmt := do
  let _ ← kw .for
  let target ← starTargets g
  let _ ← kw .in
  commit do
    let iter ← starExpressions g
    let body ← colonBlock g
    let orelse := Suite.optional (← opt (elseBlock g))
    return ⟨.for (← spanFrom start) async target iter body.statements orelse.val,
      .for body.nonempty body.legal orelse.property⟩

def forStatement : Parser LegalStmt := rule do
  let start ← startHere
  diagnose (rule (colonMissing (loopHead g) <|> blockMissing (loopHead g))) <|>
  loopRest g start false <|>
  (do
    let _ ← kw .async
    loopRest g start true) <|>
  diagnose (misplacedLoopTarget g)

/-! ## Contexts -/

def withItem : Parser WithItem := rule (
  (do
    let context ← expression g
    let _ ← kw .as
    let target ← starTarget g
    followedBy (sym .comma <|> sym .rpar <|> sym .colon)
    return ⟨context, some target⟩) <|>
  diagnose (rule do
    let _ ← expression g
    let _ ← kw .as
    let a ← expression g
    followedBy (sym .comma <|> sym .rpar <|> sym .colon)
    raiseInvalidTarget .assignment a) <|>
  (do return ⟨← expression g, none⟩))

def looseItem (context : Parser Expr) : Parser Unit := do
  let _ ← context
  let _ ← opt do
    let _ ← kw .as
    starTarget g

def withHead : Parser Unit := do
  let _ ← opt (kw .async)
  let _ ← kw .with
  let _ ← sepBy1 (looseItem g (expression g)) (sym .comma)

def withHeadInBrackets : Parser Unit := do
  let _ ← opt (kw .async)
  let _ ← kw .with
  let _ ← sym .lpar
  let _ ← sepBy1 (looseItem g (expressions g)) (sym .comma)
  let _ ← opt (sym .comma)
  let _ ← sym .rpar

def withInBrackets (start : Mark) (async : Bool) : Parser LegalStmt := do
  let _ ← kw .with
  let _ ← sym .lpar
  let items ← sepBy1 (withItem g) (sym .comma)
  let _ ← opt (sym .comma)
  let _ ← sym .rpar
  let body ← colonBlock g
  return ⟨.with (← spanFrom start) async items body.statements, .with body.nonempty body.legal⟩

def withRest (start : Mark) (async : Bool) : Parser LegalStmt := do
  let _ ← kw .with
  let items ← sepBy1 (withItem g) (sym .comma)
  let body ← colonBlock g
  return ⟨.with (← spanFrom start) async items body.statements, .with body.nonempty body.legal⟩

def withStatement : Parser LegalStmt := rule do
  let start ← startHere
  diagnose (rule (blockMissing (withHead g) <|> blockMissing (withHeadInBrackets g))) <|>
  withInBrackets g start false <|>
  withRest g start false <|>
  (do
    let _ ← kw .async
    withInBrackets g start true) <|>
  (do
    let _ ← kw .async
    withRest g start true) <|>
  diagnose (rule (colonMissing (withHead g) <|> colonMissing (withHeadInBrackets g)))

/-! ## Handlers -/

/-- The head of an `except` clause that names a type. -/
def typedHead : Parser Unit := do
  let _ ← kw .except
  let _ ← expression g
  let _ ← asName

def groupHead : Parser Unit := do
  let _ ← kw .except
  let _ ← sym .star
  let _ ← expression g
  let _ ← asName

def misplacedHandler {α : Type} : Parser α := rule (
  (do
    let _ ← kw .except
    let _ ← opt (sym .star)
    let a ← expression g
    let _ ← sym .comma
    let _ ← expressions g
    let _ ← asName
    let _ ← sym .colon
    raiseAt a.line) <|>
  (do
    let _ ← kw .except
    let _ ← opt (sym .star)
    let _ ← expression g
    let _ ← asName
    let _ ← newline
    raiseHere) <|>
  (do
    let _ ← kw .except
    let _ ← newline
    raiseHere) <|>
  (do
    let _ ← kw .except
    let _ ← sym .star
    (do let _ ← newline) <|> (do let _ ← sym .colon)
    raiseHere))

def handlerRest (start : Mark) : Parser LegalHandler := do
  let type ← expression g
  let id ← asName
  let body ← colonBlock g
  return ⟨.mk (← spanFrom start) (some type) id body.statements, body.nonempty, body.legal⟩

def handler : Parser LegalHandler := rule do
  let start ← startHere
  diagnose (rule (blockMissing (typedHead g) <|> blockMissing (kw .except))) <|>
  (do
    let _ ← kw .except
    handlerRest g start) <|>
  (do
    let _ ← kw .except
    let body ← colonBlock g
    return ⟨.mk (← spanFrom start) none none body.statements, body.nonempty, body.legal⟩) <|>
  diagnose (misplacedHandler g)

def groupHandler : Parser LegalHandler := rule do
  let start ← startHere
  diagnose (rule (blockMissing (groupHead g))) <|>
  (do
    let _ ← kw .except
    let _ ← sym .star
    handlerRest g start) <|>
  diagnose (misplacedHandler g)

def finallyBlock : Parser Suite := rule (
  diagnose (blockMissing (kw .finally)) <|>
  (do
    let _ ← kw .finally
    force .colon
    block g))

/-- A `try` without handlers, or with handlers of both kinds. -/
def misplacedTry {α : Type} : Parser α := rule (
  blockMissing (kw .try) <|>
  (do
    let _ ← kw .try
    let _ ← colonBlock g
    notFollowedBy (kw .except <|> kw .finally)
    raiseHere) <|>
  (do
    let _ ← kw .try
    let _ ← sym .colon
    let _ ← many (block g)
    let _ ← many1 (handler g)
    let t ← kw .except
    let _ ← sym .star
    let _ ← expression g
    let _ ← asName
    let _ ← sym .colon
    raiseAt t.line) <|>
  (do
    let _ ← kw .try
    let _ ← sym .colon
    let _ ← many (block g)
    let _ ← many1 (groupHandler g)
    let t ← kw .except
    let _ ← opt do
      let _ ← expression g
      asName
    let _ ← sym .colon
    raiseAt t.line))

def tryHead : Parser Suite := do
  let _ ← kw .try
  force .colon
  block g

def tryRest (start : Mark) (group : Bool) (clause : Parser LegalHandler) : Parser LegalStmt := do
  let body ← tryHead g
  let first ← clause
  let more ← many clause
  let orelse := Suite.optional (← opt (elseBlock g))
  let final := Suite.optional (← opt (finallyBlock g))
  return ⟨.try (← spanFrom start) group body.statements (first.val :: more.map Subtype.val)
      orelse.val final.val, .handled body first more orelse final⟩

def tryStatement : Parser LegalStmt := rule do
  let start ← startHere
  diagnose (misplacedTry g) <|>
  (do
    let body ← tryHead g
    let final ← finallyBlock g
    return ⟨.try (← spanFrom start) false body.statements [] [] final.statements,
      .finalized body final⟩) <|>
  tryRest g start false (handler g) <|>
  tryRest g start true (groupHandler g)

/-! ## Matching -/

def subject : Parser Expr := rule do
  let line ← lineHere
  (do
    let first ← starNamedExpression g
    let _ ← sym .comma
    return .tuple line (first :: (← opt (starNamedExpressions g)).getD [])) <|>
  namedExpression g

def guard : Parser Expr := rule (condition g .if)

def caseHead : Parser (Pattern × Option Expr) := do
  let _ ← soft .case
  let p ← patterns g
  return (p, ← opt (guard g))

def caseClause : Parser LegalCase := rule (
  diagnose (rule (colonMissing (caseHead g) <|> blockMissing (caseHead g))) <|>
  (do
    let (p, condition) ← caseHead g
    let body ← colonBlock g
    return ⟨.mk p condition body.statements, body.nonempty, body.legal⟩))

def matchHead : Parser Expr := do
  let _ ← soft .match
  subject g

def matchStatement : Parser LegalStmt := rule do
  let start ← startHere
  (do
    let value ← matchHead g
    let _ ← sym .colon
    let (first, more) ← indented do
      let first ← caseClause g
      return (first, ← many (caseClause g))
    return ⟨.match (← spanFrom start) value (first.val :: more.map Subtype.val),
      .cases first more⟩) <|>
  diagnose (rule (colonMissing (matchHead g) <|> blockMissing (matchHead g)))

/-! ## Statements -/

def ahead (k : Keyword) : Parser Unit := followedBy (kw k)

def compoundStatement : Parser LegalStmt := rule (
  (do
    followedBy (kw .define <|> kw .async)
    functionDef g []) <|>
  (do
    ahead .if
    ifStatement g .if) <|>
  (do
    ahead .classWord
    classDef g []) <|>
  (do
    followedBy (kw .with <|> kw .async)
    withStatement g) <|>
  (do
    followedBy (kw .for <|> kw .async)
    forStatement g) <|>
  (do
    ahead .try
    tryStatement g) <|>
  (do
    ahead .while
    whileStatement g) <|>
  matchStatement g)

/-- A compound statement, or the simple statements of a line. -/
def statement : Parser Suite := rule (
  (do return .ofStmts (← decorated g) []) <|>
  (do return .ofStmts (← compoundStatement g) []) <|>
  simpleStatements g)

def statements : Parser Suite := do
  let first ← statement g
  return first.flatten (← many (statement g))

def blockBody : Parser Suite :=
  indented (statements g) <|>
  simpleStatements g <|>
  diagnose (rule do
    let _ ← newline
    notFollowedBy (kind .indent)
    raiseHere)

def fileBody : Parser LegalStmts := do
  let suites ← many (statement g)
  let _ ← kind .endmarker
  return Suite.all suites

end NotebookSlice.Syntax.Grammar
