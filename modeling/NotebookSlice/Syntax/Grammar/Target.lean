import NotebookSlice.Syntax.Grammar.Expression

/-! # The grammar of targets

What may be assigned to or deleted: names, attributes and elements, and lists
and tuples of targets.
-/

namespace NotebookSlice.Syntax.Grammar

open Syntax.Parser

variable (g : Engine)

def extensionAhead : Parser Unit := do let _ ← sym .lpar <|> sym .lsqb <|> sym .dot

def targetPrimaryBody : Parser Expr := do
  let line ← lineHere
  grow (do
    let a ← atom g
    followedBy extensionAhead
    return a) fun subject =>
    -- an attribute, an element, and then the two forms of a call
    (do
      let _ ← sym .dot
      let attr ← ident
      followedBy extensionAhead
      return .attribute line .load subject attr) <|>
    (do
      let _ ← sym .lsqb
      let index ← closedBy (slices g) .rsqb
      followedBy extensionAhead
      return .subscript line .load subject index) <|>
    (do
      let arg ← genExp g
      followedBy extensionAhead
      return .call line subject [arg] []) <|>
    (do
      let _ ← sym .lpar
      let arguments ← opt (g.call .arguments)
      let _ ← sym .rpar
      followedBy extensionAhead
      match arguments with
      | some a => return .call line subject a.positional a.keywords
      | none => return .call line subject [] [])

/-- An attribute or an element that is bound or deleted. -/
def partTarget (ctx : Context) : Parser Expr := do
  let line ← lineHere
  (do
    let subject ← g.call .targetPrimary
    let _ ← sym .dot
    let attr ← ident
    notFollowedBy extensionAhead
    return .attribute line ctx subject attr) <|>
  (do
    let subject ← g.call .targetPrimary
    let _ ← sym .lsqb
    let index ← closedBy (slices g) .rsqb
    notFollowedBy extensionAhead
    return .subscript line ctx subject index)

def targetTuple : Parser (List Expr) := rule do
  let first ← starTarget g
  let more ← many (do let _ ← sym .comma; starTarget g)
  match ← opt (sym .comma), more with
  | none, [] => fail
  | _, _ => return first :: more

def targetList : Parser (List Expr) := rule do
  let ts ← sepBy1 (starTarget g) (sym .comma)
  let _ ← opt (sym .comma)
  return ts

def starAtom : Parser Expr := rule do
  let line ← lineHere
  nameExpr .store <|>
  enclosed .lpar (g.call .unparenthesizedTarget) .rpar <|>
  (do return .tuple line ((← enclosed .lpar (opt (targetTuple g)) .rpar).getD [])) <|>
  (do return .list line ((← enclosed .lsqb (opt (targetList g)) .rsqb).getD []))

def unparenthesizedTargetBody : Parser Expr := partTarget g .store <|> starAtom g

def starTargetBody : Parser Expr :=
  (do
    let t ← sym .star
    notFollowedBy (sym .star)
    return .starred t.line (← starTarget g)) <|>
  g.call .unparenthesizedTarget

def singlePartTarget : Parser Expr := rule (partTarget g .store)

def singleTargetBody : Parser Expr :=
  singlePartTarget g <|>
  nameExpr .store <|>
  enclosed .lpar (g.call .singleTarget) .rpar

def deleteTargets : Parser (List Expr) := rule do
  let ts ← sepBy1 (g.call .deleteTarget) (sym .comma)
  let _ ← opt (sym .comma)
  return ts

def deleteAtom : Parser Expr := rule do
  let line ← lineHere
  nameExpr .delete <|>
  enclosed .lpar (g.call .deleteTarget) .rpar <|>
  (do return .tuple line ((← enclosed .lpar (opt (deleteTargets g)) .rpar).getD [])) <|>
  (do return .list line ((← enclosed .lsqb (opt (deleteTargets g)) .rsqb).getD []))

def deleteTargetBody : Parser Expr := partTarget g .delete <|> deleteAtom g

def annotationTargetBody : Parser Expr :=
  list g <|> tuple g <|> enclosed .lpar (g.call .annotationTarget) .rpar

end NotebookSlice.Syntax.Grammar
