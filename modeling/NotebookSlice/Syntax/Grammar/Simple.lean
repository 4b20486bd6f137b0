import NotebookSlice.Syntax.Grammar.Parameter
import NotebookSlice.Syntax.Grammar.Target

/-! # The grammar of simple statements -/

namespace NotebookSlice.Syntax.Grammar

open Syntax.Parser

variable (g : Engine)

/-! ## Assignments -/

def augmentedOp : Parser BinaryOp :=
  accept fun t => match t.kind with
    | .punct .plusEq => some .add
    | .punct .minusEq => some .sub
    | .punct .starEq => some .mul
    | .punct .atEq => some .matMul
    | .punct .slashEq => some .div
    | .punct .percentEq => some .mod
    | .punct .ampEq => some .bitAnd
    | .punct .barEq => some .bitOr
    | .punct .caretEq => some .bitXor
    | .punct .shiftLeftEq => some .shiftLeft
    | .punct .shiftRightEq => some .shiftRight
    | .punct .doubleStarEq => some .pow
    | .punct .doubleSlashEq => some .floorDiv
    | _ => none

def targetAndEq : Parser Expr := closedBy (starTargets g) .eq

/-- A target that cannot be assigned to, or not in this way. -/
def misplacedTarget {α : Type} : Parser α := rule (
  (do
    let a ← g.call .annotationTarget
    let _ ← sym .colon
    let _ ← expression g
    raiseAt a.line) <|>
  (do
    let a ← starNamedExpression g
    let _ ← sym .comma
    let _ ← many (starNamedExpressions g)
    let _ ← sym .colon
    let _ ← expression g
    raiseAt a.line) <|>
  (do
    let a ← expression g
    let _ ← sym .colon
    let _ ← expression g
    raiseAt a.line) <|>
  (do
    let _ ← many (targetAndEq g)
    let a ← closedBy (starExpressions g) .eq
    raiseInvalidTarget .assignment a) <|>
  (do
    let _ ← many (targetAndEq g)
    let a ← closedBy (yieldExpr g) .eq
    raiseAt a.line) <|>
  (do
    let a ← starExpressions g
    let _ ← augmentedOp
    let _ ← yieldOrStar g
    raiseAt a.line))

def annotationRest (start : Mark) (target : Expr) (simple : Bool) : Parser LegalStmt := do
  let _ ← sym .colon
  let hint ← expression g
  let value ← opt do
    let _ ← sym .eq
    yieldOrStar g
  return ⟨.annAssign (← spanFrom start) target hint value simple, .simple rfl⟩

def assignment : Parser LegalStmt := rule do
  let start ← startHere
  (do
    let target ← nameExpr .store
    annotationRest g start target true) <|>
  (do
    let target ← enclosed .lpar (g.call .singleTarget) .rpar <|> singlePartTarget g
    annotationRest g start target false) <|>
  (do
    let targets ← many1 (targetAndEq g)
    let value ← yieldOrStar g
    notFollowedBy (sym .eq)
    return ⟨.assign (← spanFrom start) targets value, .simple rfl⟩) <|>
  (do
    let target ← g.call .singleTarget
    let op ← augmentedOp
    commit do
      let value ← yieldOrStar g
      return ⟨.augAssign (← spanFrom start) target op value, .simple rfl⟩) <|>
  diagnose (misplacedTarget g)

/-! ## Imports -/

def dottedNameBody : Parser String := do
  let first ← ident
  let more ← many (do let _ ← sym .dot; ident)
  return String.intercalate "." (first :: more)

def asName : Parser (Option String) := opt do
  let _ ← kw .as
  ident

def importNames : Parser (List Alias) := rule (sepBy1 (rule do
  let path ← g.call .dottedName
  return ⟨path, ← asName⟩) (sym .comma))

def importedNames : Parser (List Alias) := rule (sepBy1 (rule do
  let id ← ident
  return ⟨id, ← asName⟩) (sym .comma))

def importTargets : Parser (List Alias) := rule (
  (do
    let _ ← sym .lpar
    let names ← importedNames
    let _ ← opt (sym .comma)
    let _ ← sym .rpar
    return names) <|>
  (do
    let names ← importedNames
    notFollowedBy (sym .comma)
    return names) <|>
  (do
    let _ ← sym .star
    return [⟨"*", none⟩]) <|>
  diagnose (do
    let _ ← importedNames
    let _ ← sym .comma
    let _ ← newline
    raiseHere))

def dots : Parser Nat :=
  (do
    let _ ← sym .dot
    return 1) <|>
  (do
    let _ ← sym .ellipsis
    return 3)

def importStatement : Parser LegalStmt := rule do
  let start ← startHere
  (do
    let _ ← kw .import
    let names ← importNames g
    return ⟨.import (← spanFrom start) names, .simple rfl⟩) <|>
  (do
    let _ ← kw .from
    let levels ← many dots
    let path ← g.call .dottedName
    let _ ← kw .import
    let names ← importTargets
    return ⟨.importFrom (← spanFrom start) (some path) names (levels.foldl Nat.add 0),
      .simple rfl⟩) <|>
  (do
    let _ ← kw .from
    let levels ← many1 dots
    let _ ← kw .import
    let names ← importTargets
    return ⟨.importFrom (← spanFrom start) none names (levels.foldl Nat.add 0), .simple rfl⟩)

/-! ## Other statements of one line -/

def returnStatement : Parser LegalStmt := rule do
  let start ← startHere
  let _ ← kw .return
  let value ← opt (starExpressions g)
  return ⟨.return (← spanFrom start) value, .simple rfl⟩

def raiseStatement : Parser LegalStmt := rule do
  let start ← startHere
  (do
    let _ ← kw .raise
    let exc ← expression g
    let cause ← opt do
      let _ ← kw .from
      expression g
    return ⟨.raise (← spanFrom start) (some exc) cause, .simple rfl⟩) <|>
  (do
    let _ ← kw .raise
    return ⟨.raise (← spanFrom start) none none, .simple rfl⟩)

def deleteStatement : Parser LegalStmt := rule do
  let start ← startHere
  (do
    let _ ← kw .del
    let targets ← deleteTargets g
    followedBy ((do let _ ← sym .semi) <|> (do let _ ← newline))
    return ⟨.delete (← spanFrom start) targets, .simple rfl⟩) <|>
  diagnose (rule do
    let _ ← kw .del
    raiseInvalidTarget .deletion (← starExpressions g))

def yieldStatement : Parser LegalStmt := rule do
  let start ← startHere
  let value ← yieldExpr g
  return ⟨.expr (← spanFrom start) value, .simple rfl⟩

def assertStatement : Parser LegalStmt := rule do
  let start ← startHere
  let _ ← kw .assert
  let test ← expression g
  let message ← opt do
    let _ ← sym .comma
    expression g
  return ⟨.assert (← spanFrom start) test message, .simple rfl⟩

def nameList (k : Keyword) (make : Span → List String → LegalStmt) : Parser LegalStmt := rule do
  let start ← startHere
  let _ ← kw k
  let names ← sepBy1 ident (sym .comma)
  return make (← spanFrom start) names

def wordStatement (k : Keyword) (make : Span → LegalStmt) : Parser LegalStmt := rule do
  let start ← startHere
  let _ ← kw k
  return make (← spanFrom start)

def expressionStatement : Parser LegalStmt := rule do
  let start ← startHere
  let value ← starExpressions g
  return ⟨.expr (← spanFrom start) value, .simple rfl⟩

def simpleStatementBody : Parser LegalStmt :=
  assignment g <|>
  expressionStatement g <|>
  returnStatement g <|>
  importStatement g <|>
  raiseStatement g <|>
  wordStatement .pass (fun span => ⟨.pass span, .simple rfl⟩) <|>
  deleteStatement g <|>
  yieldStatement g <|>
  assertStatement g <|>
  wordStatement .break (fun span => ⟨.break span, .simple rfl⟩) <|>
  wordStatement .continue (fun span => ⟨.continue span, .simple rfl⟩) <|>
  nameList .global (fun span names => ⟨.global span names, .simple rfl⟩) <|>
  nameList .nonlocal (fun span names => ⟨.nonlocal span names, .simple rfl⟩)

def simpleStatements : Parser Suite := rule (
  (do
    let s ← g.call .simpleStatement
    notFollowedBy (sym .semi)
    let _ ← newline
    return .ofStmts s []) <|>
  (do
    let first ← g.call .simpleStatement
    let more ← many (do
      let _ ← sym .semi
      g.call .simpleStatement)
    let _ ← opt (sym .semi)
    let _ ← newline
    return .ofStmts first more))

end NotebookSlice.Syntax.Grammar
