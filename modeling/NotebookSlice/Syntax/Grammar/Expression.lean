import NotebookSlice.Syntax.Parser
import NotebookSlice.Syntax.StringLiteral

/-! # The grammar of expressions

Operators by precedence, atoms, comprehensions and calls. A rule that begins
with itself is a chain. Alternatives under `diagnose` match faulty code only.
-/

namespace NotebookSlice.Syntax.Grammar

open Syntax.Parser

/-- Places where a target may stand; they differ in what cannot be one. -/
inductive TargetPlace | assignment | loop | deletion
  deriving DecidableEq

mutual

/-- The part of an expression that keeps it from being a target, if there is one. -/
def invalidTarget (place : TargetPlace) : Expr → Option Expr
  | .list _ es => invalidTargetIn place es
  | .tuple _ es => invalidTargetIn place es
  | .starred l e => if place = .deletion then some (.starred l e) else invalidTarget place e
  | .compare l left ops es =>
    if place = .loop then
      match ops with
      | .in :: _ => invalidTarget place left
      | _ => none
    else some (.compare l left ops es)
  | .name .. => none
  | .subscript .. => none
  | .attribute .. => none
  | e => some e

def invalidTargetIn (place : TargetPlace) : List Expr → Option Expr
  | [] => none
  | e :: es =>
    match invalidTarget place e with
    | some bad => some bad
    | none => invalidTargetIn place es

end

/-- Raises a fault at the part that is no target; gives up if all is well. -/
def raiseInvalidTarget {α : Type} (place : TargetPlace) (e : Expr) : Parser α :=
  match invalidTarget place e with
  | some bad => raiseAt bad.line
  | none => giveUp

/-- Is the expression the name of a statement of old? -/
def isLegacyName : Expr → Bool
  | .name _ _ id => id == "print" || id == "exec"
  | _ => false

variable (g : Engine)

abbrev expression : Parser Expr := g.call .expression
abbrev disjunction : Parser Expr := g.call .disjunction
abbrev bitwiseOr : Parser Expr := g.call .bitwiseOr
abbrev starTarget : Parser Expr := g.call .starTarget

def closedBy {α : Type} (p : Parser α) (mark : Punct) : Parser α := do
  let a ← p
  let _ ← sym mark
  return a

def enclosed {α : Type} (opening : Punct) (p : Parser α) (closing : Punct) : Parser α := do
  let _ ← sym opening
  closedBy p closing

def word (k : Keyword) (text : String) : Parser Expr := do
  let t ← kw k
  return .literal t.line text

/-! ## Targets of loops and assignments -/

def starTargets : Parser Expr := rule do
  let line ← lineHere
  let first ← starTarget g
  (do
    notFollowedBy (sym .comma)
    return first) <|> (do
    let more ← many (do let _ ← sym .comma; starTarget g)
    let _ ← opt (sym .comma)
    return .tuple line (first :: more))

/-! ## Lists of expressions -/

def tupled (element : Parser Expr) : Parser Expr := do
  let line ← lineHere
  let first ← element
  let more ← many (do let _ ← sym .comma; element)
  match ← opt (sym .comma), more with
  | none, [] => return first
  | _, _ => return .tuple line (first :: more)

def expressions : Parser Expr := rule (tupled (expression g))

def starExpressions : Parser Expr := rule (tupled (g.call .starExpression))

def starExpressionBody : Parser Expr := do
  let line ← lineHere
  (do
    let _ ← sym .star
    return .starred line (← bitwiseOr g)) <|> expression g

def yieldExpr : Parser Expr := rule do
  let line ← lineHere
  (do
    let _ ← kw .yield
    let _ ← kw .from
    return .yieldFrom line (← expression g)) <|> (do
    let _ ← kw .yield
    return .yield line (← opt (starExpressions g)))

def yieldOrStar : Parser Expr := yieldExpr g <|> starExpressions g

def assignmentExpression : Parser Expr := rule do
  let (line, id) ← name
  let _ ← sym .colonEq
  commit do return .walrus line id (← expression g)

def namedExpression : Parser Expr := rule (
  assignmentExpression g <|>
  diagnose (g.call .misplacedAssignment) <|> do
    let e ← expression g
    notFollowedBy (sym .colonEq)
    return e)

/-- An element of a call or of a generator: an assignment expression or a plain one. -/
def assignmentOrPlain : Parser Expr :=
  assignmentExpression g <|> do
    let e ← expression g
    notFollowedBy (sym .colonEq)
    return e

def starNamedExpression : Parser Expr := rule do
  let line ← lineHere
  (do
    let _ ← sym .star
    return .starred line (← bitwiseOr g)) <|> namedExpression g

def starNamedExpressions : Parser (List Expr) := rule do
  let es ← sepBy1 (starNamedExpression g) (sym .comma)
  let _ ← opt (sym .comma)
  return es

def starredExpression : Parser Expr := rule do
  let t ← sym .star
  return .starred t.line (← expression g)

/-! ## Comprehensions -/

def misplacedLoopTarget {α : Type} : Parser α := rule do
  let _ ← opt (kw .async)
  let _ ← kw .for
  raiseInvalidTarget .loop (← starExpressions g)

def generatorRest (async : Bool) : Parser Generator := do
  let _ ← kw .for
  let target ← starTargets g
  let _ ← kw .in
  commit do
    let iter ← disjunction g
    let conditions ← many (do let _ ← kw .if; disjunction g)
    return .mk async target iter conditions

def generator : Parser Generator := rule (
  (do let _ ← kw .async; generatorRest g true) <|>
  generatorRest g false <|>
  diagnose (misplacedLoopTarget g))

def generators : Parser (List Generator) := rule (many1 (generator g))

/-- Unpacking in a comprehension, or a target that lacks its parentheses. -/
def misplacedComprehension {α : Type} : Parser α := rule (
  (do
    let _ ← sym .lsqb <|> sym .lpar <|> sym .lbrace
    let a ← starredExpression g
    let _ ← generators g
    raiseAt a.line) <|>
  (do
    let _ ← sym .lsqb <|> sym .lbrace
    let a ← starNamedExpression g
    let _ ← sym .comma
    let _ ← starNamedExpressions g
    let _ ← generators g
    raiseAt a.line) <|>
  (do
    let _ ← sym .lsqb <|> sym .lbrace
    let a ← starNamedExpression g
    let _ ← sym .comma
    let _ ← generators g
    raiseAt a.line))

def listComp : Parser Expr := rule (
  (do
    let t ← sym .lsqb
    let e ← namedExpression g
    let gs ← closedBy (generators g) .rsqb
    return .listComp t.line e gs) <|>
  diagnose (misplacedComprehension g))

def setComp : Parser Expr := rule (
  (do
    let t ← sym .lbrace
    let e ← namedExpression g
    let gs ← closedBy (generators g) .rbrace
    return .setComp t.line e gs) <|>
  diagnose (misplacedComprehension g))

def genExp : Parser Expr := rule (
  (do
    let t ← sym .lpar
    let e ← assignmentOrPlain g
    let gs ← closedBy (generators g) .rpar
    return .genExp t.line e gs) <|>
  diagnose (misplacedComprehension g))

/-! ## Brackets -/

def group : Parser Expr := rule (
  enclosed .lpar (yieldExpr g <|> namedExpression g) .rpar <|>
  diagnose (
    (do
      let a ← enclosed .lpar (starredExpression g) .rpar
      raiseAt a.line) <|>
    (do
      let _ ← sym .lpar
      let t ← sym .doubleStar
      let _ ← closedBy (expression g) .rpar
      raiseAt t.line)))

def tuple : Parser Expr := rule do
  let t ← sym .lpar
  let es ← opt do
    let first ← starNamedExpression g
    let _ ← sym .comma
    return first :: (← opt (starNamedExpressions g)).getD []
  let _ ← sym .rpar
  return .tuple t.line (es.getD [])

def list : Parser Expr := rule do
  let t ← sym .lsqb
  let es ← opt (starNamedExpressions g)
  let _ ← sym .rsqb
  return .list t.line (es.getD [])

def set : Parser Expr := rule do
  let t ← sym .lbrace
  let es ← closedBy (starNamedExpressions g) .rbrace
  return .set t.line es

def pair : Parser (Expr × Expr) := rule do
  let k ← expression g
  let _ ← sym .colon
  return (k, ← expression g)

def entry : Parser Entry := rule (
  (do
    let _ ← sym .doubleStar
    return .unpack (← bitwiseOr g)) <|>
  (do
    let (k, v) ← pair g
    return .pair k v))

def entries : Parser (List Entry) := rule do
  let es ← sepBy1 (entry g) (sym .comma)
  let _ ← opt (sym .comma)
  return es

def misplacedValue {α : Type} : Parser α :=
  (do
    let _ ← expression g
    let _ ← sym .colon
    let t ← sym .star
    let _ ← bitwiseOr g
    raiseAt t.line) <|>
  (do
    let _ ← expression g
    let t ← sym .colon
    followedBy (sym .rbrace <|> sym .comma)
    raiseAt t.line)

/-- Entries of which the last one has no value, or a faulty one. -/
def misplacedEntries {α : Type} : Parser α := rule (
  (do
    let _ ← sepBy1 (entry g) (sym .comma)
    let _ ← sym .comma
    rule ((do
      let a ← expression g
      notFollowedBy (sym .colon)
      raiseAt a.line) <|> misplacedValue g)) <|>
  misplacedValue g)

def dict : Parser Expr := rule (
  (do
    let t ← sym .lbrace
    let es ← opt (entries g)
    let _ ← sym .rbrace
    return .dict t.line (es.getD [])) <|>
  enclosed .lbrace (misplacedEntries g) .rbrace)

def dictComp : Parser Expr := rule (
  (do
    let t ← sym .lbrace
    let (k, v) ← pair g
    let gs ← closedBy (generators g) .rbrace
    return .dictComp t.line k v gs) <|>
  diagnose (do
    let _ ← sym .lbrace
    let t ← sym .doubleStar
    let _ ← bitwiseOr g
    let _ ← closedBy (generators g) .rbrace
    raiseAt t.line))

/-! ## Atoms -/

def stringToken : Parser (Nat × List Char) :=
  accept fun t => match t.kind with
    | .string text => some (t.line, text)
    | _ => none

def strings : Parser Expr := do
  let literals ← many1 stringToken
  match StringLiteral.value g.embedded literals with
  | .ok e => return e
  | .error .here => raiseHere
  | .error (.at line) => raiseAt line

/-- A number; a decimal integer with too many digits is a fault. -/
def number : Parser Expr := do
  let (line, digits) ← accept fun t => match t.kind with
    | .number digits => some (t.line, digits)
    | _ => none
  if Number.isTooLong digits then raiseAt line
  else return .literal line (String.ofList digits)

def atom : Parser Expr := rule (
  nameExpr .load <|>
  word .trueWord "True" <|>
  word .falseWord "False" <|>
  word .noneWord "None" <|>
  (do
    followedBy stringToken
    g.call .strings) <|>
  number <|>
  (do
    followedBy (sym .lpar)
    tuple g <|> group g <|> genExp g) <|>
  (do
    followedBy (sym .lsqb)
    list g <|> listComp g) <|>
  (do
    followedBy (sym .lbrace)
    dict g <|> set g <|> dictComp g <|> setComp g) <|>
  (do
    let t ← sym .ellipsis
    return .literal t.line "..."))

/-! ## Subscripts -/

def slice : Parser Expr := rule (
  (do
    let line ← lineHere
    let lower ← opt (expression g)
    let _ ← sym .colon
    let upper ← opt (expression g)
    let step ← opt do
      let _ ← sym .colon
      opt (expression g)
    return .slice line lower upper step.join) <|>
  namedExpression g)

def slices : Parser Expr := rule do
  let line ← lineHere
  (do
    let a ← slice g
    notFollowedBy (sym .comma)
    return a) <|> (do
    let es ← sepBy1 (slice g <|> starredExpression g) (sym .comma)
    let _ ← opt (sym .comma)
    return .tuple line es)

/-! ## Arguments of calls -/

/-- An argument that is not positional: a starred one, or a keyword one. -/
inductive LateArgument
  | starred (value : Expr)
  | keyword (argument : Argument)

def LateArgument.starred? : LateArgument → Option Expr
  | .starred e => some e
  | .keyword _ => none

def LateArgument.keyword? : LateArgument → Option Argument
  | .starred _ => none
  | .keyword a => some a

def misplacedKeyword {α : Type} : Parser α := rule (
  (do
    let a ← kw .trueWord <|> kw .falseWord <|> kw .noneWord
    let _ ← sym .eq
    raiseAt a.line) <|>
  (do
    let (line, _) ← name
    let _ ← sym .eq
    let _ ← expression g
    let _ ← generators g
    raiseAt line) <|>
  (do
    notFollowedBy do
      let _ ← name
      sym .eq
    let a ← expression g
    let _ ← sym .eq
    raiseAt a.line))

def keywordArgument : Parser LateArgument := do
  let id ← ident
  let _ ← sym .eq
  return .keyword (.mk (some id) (← expression g))

def keywordOrStarred : Parser LateArgument := rule (
  diagnose (misplacedKeyword g) <|>
  keywordArgument g <|>
  (do return .starred (← starredExpression g)))

def keywordOrDoubleStarred : Parser LateArgument := rule (
  diagnose (misplacedKeyword g) <|>
  keywordArgument g <|>
  (do
    let _ ← sym .doubleStar
    return .keyword (.mk none (← expression g))))

def lateArguments : Parser (List LateArgument) := rule (
  (do
    let a ← sepBy1 (keywordOrStarred g) (sym .comma)
    let _ ← sym .comma
    let b ← sepBy1 (keywordOrDoubleStarred g) (sym .comma)
    return a ++ b) <|>
  sepBy1 (keywordOrStarred g) (sym .comma) <|>
  sepBy1 (keywordOrDoubleStarred g) (sym .comma))

def positionalArgument : Parser Expr :=
  starredExpression g <|> do
    let e ← assignmentOrPlain g
    notFollowedBy (sym .eq)
    return e

def callArguments (early : List Expr) (late : List LateArgument) : CallArguments :=
  ⟨early ++ late.filterMap LateArgument.starred?, late.filterMap LateArgument.keyword?⟩

def args : Parser CallArguments := rule (
  (do
    let early ← sepBy1 (positionalArgument g) (sym .comma)
    let late ← opt do
      let _ ← sym .comma
      lateArguments g
    return callArguments early (late.getD [])) <|>
  (do return callArguments [] (← lateArguments g)))

/-- Arguments in a wrong order, or a generator without its parentheses. -/
def misplacedArguments {α : Type} : Parser α := rule (
  (do
    let line ← lineHere
    let _ ← args g
    let _ ← sym .comma
    let _ ← sym .star
    raiseAt line) <|>
  (do
    let a ← expression g
    let _ ← generators g
    let _ ← sym .comma
    let _ ← opt ((do let _ ← args g) <|> (do
      let _ ← expression g
      let _ ← generators g))
    raiseAt a.line) <|>
  (do
    let (line, _) ← name
    let _ ← sym .eq
    let _ ← expression g
    let _ ← generators g
    raiseAt line) <|>
  (do
    let a ← args g
    let _ ← generators g
    match a.positional with
    | _ :: _ :: _ => raiseAt ((a.positional.getLast?.map Expr.line).getD 1)
    | _ => giveUp) <|>
  (do
    let _ ← args g
    let _ ← sym .comma
    let a ← expression g
    let _ ← generators g
    raiseAt a.line) <|>
  (do
    let _ ← args g
    let _ ← sym .comma
    let _ ← args g
    raiseHere))

def argumentsBody : Parser CallArguments :=
  (do
    let a ← args g
    let _ ← opt (sym .comma)
    followedBy (sym .rpar)
    return a) <|>
  diagnose (misplacedArguments g)

/-! ## Primaries -/

/-- The parts that a primary is extended with; the second argument is a condition on what
comes after them. -/
def extendPrimary (line : Nat) (after : Parser Unit) (subject : Expr) : Parser Expr :=
  (do
    let _ ← sym .dot
    let attr ← ident
    after
    return .attribute line .load subject attr) <|>
  (do
    let arg ← genExp g
    after
    return .call line subject [arg] []) <|>
  (do
    let _ ← sym .lpar
    let arguments ← opt (g.call .arguments)
    let _ ← sym .rpar
    after
    match arguments with
    | some a => return .call line subject a.positional a.keywords
    | none => return .call line subject [] []) <|>
  (do
    let _ ← sym .lsqb
    let index ← closedBy (slices g) .rsqb
    after
    return .subscript line .load subject index)

def primaryBody : Parser Expr := do
  let line ← lineHere
  grow (atom g) (extendPrimary g line (pure ()))

def awaitPrimaryBody : Parser Expr :=
  (do
    let t ← kw .await
    return .await t.line (← g.call .primary)) <|>
  g.call .primary

/-! ## Operators -/

def power : Parser Expr := rule do
  let line ← lineHere
  let base ← g.call .awaitPrimary
  match ← opt (do let _ ← sym .doubleStar; g.call .factor) with
  | some e => return .binary line base .pow e
  | none => return base

def factorBody : Parser Expr :=
  let signed (mark : Punct) (op : UnaryOp) : Parser Expr := do
    let t ← sym mark
    return .unary t.line op (← g.call .factor)
  signed .plus .plus <|> signed .minus .minus <|> signed .tilde .invert <|> power g

/-- Operands of the next level with operators of this level between them. -/
def chain (operand : Parser Expr) (op? : Punct → Option BinaryOp) : Parser Expr := do
  let line ← lineHere
  grow operand fun left => do
    let op ← accept fun t => match t.kind with
      | .punct m => op? m
      | _ => none
    return .binary line left op (← operand)

def termBody : Parser Expr := chain (g.call .factor) fun
  | .star => some .mul
  | .slash => some .div
  | .doubleSlash => some .floorDiv
  | .percent => some .mod
  | .at => some .matMul
  | _ => none

def sumBody : Parser Expr := chain (g.call .term) fun
  | .plus => some .add
  | .minus => some .sub
  | _ => none

def shiftBody : Parser Expr := chain (g.call .sum) fun
  | .shiftLeft => some .shiftLeft
  | .shiftRight => some .shiftRight
  | _ => none

def bitwiseAndBody : Parser Expr := chain (g.call .shift) fun
  | .amp => some .bitAnd
  | _ => none

def bitwiseXorBody : Parser Expr := chain (g.call .bitwiseAnd) fun
  | .caret => some .bitXor
  | _ => none

def bitwiseOrBody : Parser Expr := chain (g.call .bitwiseXor) fun
  | .bar => some .bitOr
  | _ => none

def compareOp : Parser CompareOp :=
  accept (fun t => match t.kind with
    | .punct .eqEq => some .eq
    | .punct .notEq => some .notEq
    | .punct .lessEq => some .lessEq
    | .punct .less => some .less
    | .punct .greaterEq => some .greaterEq
    | .punct .greater => some .greater
    | .keyword .in => some .in
    | _ => none) <|>
  (do
    let _ ← kw .not
    let _ ← kw .in
    return .notIn) <|>
  (do
    let _ ← kw .is
    return if (← opt (kw .not)).isSome then .isNot else .is)

def comparison : Parser Expr := rule do
  let line ← lineHere
  let left ← bitwiseOr g
  let rest ← many do
    let op ← compareOp
    return (op, ← bitwiseOr g)
  if rest.isEmpty then return left
  else return .compare line left (rest.map (·.1)) (rest.map (·.2))

def inversionBody : Parser Expr :=
  (do
    let t ← kw .not
    return .unary t.line .not (← g.call .inversion)) <|>
  comparison g

def joined (operand : Parser Expr) (k : Keyword) (op : BoolOp) : Parser Expr := do
  let line ← lineHere
  let first ← operand
  let more ← many (do let _ ← kw k; operand)
  if more.isEmpty then return first else return .bool line op (first :: more)

def conjunctionBody : Parser Expr := joined (g.call .inversion) .and .and

def disjunctionBody : Parser Expr := joined (g.call .conjunction) .or .or

/-- A conditional expression, or its first operand alone. -/
def conditional : Parser Expr := do
  let line ← lineHere
  (do
    let body ← disjunction g
    let _ ← kw .if
    let test ← disjunction g
    let _ ← kw .else
    return .conditional line test body (← expression g)) <|>
  disjunction g

end NotebookSlice.Syntax.Grammar
