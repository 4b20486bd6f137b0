import NotebookSlice.Syntax.Grammar.Compound

/-! # Programs

The grammar as a whole. Code is parsed once without the rules for faulty code.
If that fails it is parsed again with them, to place the fault; a fault that no
rule places is at the last token the first parse looked at.
-/

namespace NotebookSlice.Syntax

open Grammar

def production (g : Engine) : (n : Nonterminal) → Parser n.Out
  | .file => fileBody g
  | .replacement => starExpressions g
  | .simpleStatement => simpleStatementBody g
  | .block => blockBody g
  | .elifClause => elifClauseBody g
  | .expression => expressionBody g
  | .starExpression => starExpressionBody g
  | .disjunction => disjunctionBody g
  | .conjunction => conjunctionBody g
  | .inversion => inversionBody g
  | .bitwiseOr => bitwiseOrBody g
  | .bitwiseXor => bitwiseXorBody g
  | .bitwiseAnd => bitwiseAndBody g
  | .shift => shiftBody g
  | .sum => sumBody g
  | .term => termBody g
  | .factor => factorBody g
  | .awaitPrimary => awaitPrimaryBody g
  | .primary => primaryBody g
  | .strings => strings g
  | .arguments => argumentsBody g
  | .misplacedAssignment => misplacedAssignment g
  | .starTarget => starTargetBody g
  | .unparenthesizedTarget => unparenthesizedTargetBody g
  | .targetPrimary => targetPrimaryBody g
  | .deleteTarget => deleteTargetBody g
  | .singleTarget => singleTargetBody g
  | .annotationTarget => annotationTargetBody g
  | .closedPattern => closedPatternBody g
  | .starPattern => starPatternBody
  | .attributePath => attributePathBody
  | .dottedName => dottedNameBody

namespace Lexed

def lineOf (l : Lexed) (index : Nat) : Nat := ((l.tokens[index]?).map Token.line).getD 1

/-- The line that is reported for a fault of the grammar: a lexical fault further on comes
first if it is decisive, or if it leaves a bracket open that was opened earlier. -/
def reportedLine (l : Lexed) (f : Fault) : Nat :=
  if f.lexical then f.line
  else match l.fault with
    | none => f.line
    | some lexical =>
      if lexical.decisive then lexical.line
      else match lexical.bracket with
        | some opened => if opened < l.lineOf (f.reached - 1) then opened else f.line
        | none => f.line

end Lexed

/-- Parses a text from a nonterminal; an error is the line of the fault. -/
def run (g : Engine) (n : Nonterminal) (firstLine : Nat) (text : List Char) :
    Except Nat n.Out :=
  let lexed := lex firstLine text
  let memory := Memory.empty lexed.tokens.size
  match g.call n ⟨lexed, false⟩ 0 memory with
  | .ok value _ _ => .ok value
  | .raised f => .error (lexed.reportedLine f)
  | .fail _ first =>
    let unplaced (reached : Nat) : Except Nat n.Out :=
      let last := first.reached - 1
      match (lexed.tokens[last]?).map Token.kind with
      | some .indent | some .dedent => .error (lexed.lineOf (reached - 1))
      | _ => .error (lexed.reportedLine ⟨lexed.lineOf last, reached, false⟩)
    match g.call n ⟨lexed, true⟩ 0 (memory.reach first.reached) with
    | .raised f => .error (lexed.reportedLine f)
    | .fail _ second => unplaced second.reached
    | .ok _ _ second => unplaced second.reached

def engine : Nat → Engine
  | 0 => ⟨fun _ => Parser.exhausted, fun line _ => .error line⟩
  | depth + 1 =>
    ⟨fun n => .remember n (production (engine depth) n),
      fun line text => run (engine depth) .replacement line text⟩

/-- A depth that no derivation over tokens of so much weight exceeds. -/
def depthFor (weight : Nat) : Nat := 32 * (weight + 4)

/-- The statements of a program whose first line has the given number, or the line of the
fault that is reported for it. -/
def parseLegal (firstLine : Nat) (text : List Char) : Except Nat LegalStmts :=
  run (engine (depthFor (lex firstLine text).weight)) .file firstLine text

def parse (firstLine : Nat) (text : List Char) : Except Nat (List Stmt) :=
  (parseLegal firstLine text).map Subtype.val

theorem legal_of_parse {firstLine : Nat} {text : List Char} {ss : List Stmt}
    (h : parse firstLine text = .ok ss) : ∀ s ∈ ss, s.Legal := by
  unfold parse at h
  cases hparse : parseLegal firstLine text with
  | error line => rw [hparse] at h; cases h
  | ok legal =>
    rw [hparse] at h
    exact Except.ok.inj h ▸ legal.property

end NotebookSlice.Syntax
