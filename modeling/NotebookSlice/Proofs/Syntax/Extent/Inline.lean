import NotebookSlice.Proofs.Syntax.Extent.Expression
import NotebookSlice.Syntax.Grammar.Compound

/-! # Parameters, targets and patterns stay in a line -/

namespace NotebookSlice.Syntax.Contract

open Grammar

variable {K : Contract} {b : ℕ} {g : Engine} [Meets K g]

/-! ## Parameters -/

namespace Leads

section Parameters

open Parameter

variable {place : ParameterPlace}

instance separator : Leads K b b (separator place) := by
  unfold Parameter.separator
  infer_instance

instance param : Leads K b b (param g place) := by
  unfold Parameter.param
  refine rule (h := bind (r := fun ⟨_, _⟩ => ?_))
  cases place <;> infer_instance

instance default : Leads K b b (Parameter.default g) := by
  unfold Parameter.default
  infer_instance

instance noDefault : Leads K b b (noDefault g place) := by
  unfold Parameter.noDefault
  infer_instance

instance hasDefault : Leads K b b (hasDefault g place) := by
  unfold Parameter.hasDefault
  exact rule (h := bind (r := fun ⟨_, _⟩ => inferInstance))

instance maybeDefault : Leads K b b (maybeDefault g place) := by
  unfold Parameter.maybeDefault
  exact rule (h := bind (r := fun ⟨_, _⟩ => inferInstance))

instance slashNoDefault : Leads K b b (slashNoDefault g place) := by
  unfold Parameter.slashNoDefault
  infer_instance

instance slashHasDefault : Leads K b b (slashHasDefault g place) := by
  unfold Parameter.slashHasDefault
  infer_instance

instance keywords : Leads K b b (keywords g place) := by
  unfold Parameter.keywords
  infer_instance

instance restParam : Leads K b b (restParam g place) := by
  unfold Parameter.restParam
  cases place <;> infer_instance

instance tail : Leads K b b (tail g place) := by
  unfold Parameter.tail
  infer_instance

instance params : Leads K b b (params g place) := by
  unfold Grammar.params
  infer_instance

end Parameters

instance lambda : Leads K b b (lambda g) := by
  unfold Grammar.lambda
  infer_instance

instance plainExpression : Leads K b b (plainExpression g) := by
  unfold Grammar.plainExpression
  infer_instance

instance expressionBody : Leads K b b (expressionBody g) := by
  unfold Grammar.expressionBody
  infer_instance

instance misplacedAssignment : Leads K b b (misplacedAssignment g) := by
  unfold Grammar.misplacedAssignment
  refine orElse (r := orElse (h := bind (r := fun ⟨_, _⟩ => inferInstance)))

end Leads

/-! ## Targets -/

instance Keeps.extensionAhead : Keeps K extensionAhead := by
  unfold Grammar.extensionAhead
  infer_instance

namespace Leads

instance targetPrimaryBody : Leads K b b (targetPrimaryBody g) := by
  unfold Grammar.targetPrimaryBody
  have (line : ℕ) (subject : Expr) (a : Option CallArguments) : Leads K b b (match a with
      | some a => return .call line subject a.positional a.keywords
      | none => return .call line subject [] [] : Parser Expr) := by
    split <;> infer_instance
  infer_instance

instance partTarget {ctx : Context} : Leads K b b (partTarget g ctx) := by
  unfold Grammar.partTarget
  infer_instance

instance targetTuple : Leads K b b (targetTuple g) := by
  unfold Grammar.targetTuple
  refine rule (h := bind (r := fun _ => bind (r := fun _ => bind (r := fun _ => ?_))))
  split <;> infer_instance

instance targetList : Leads K b b (targetList g) := by
  unfold Grammar.targetList
  infer_instance

instance starAtom : Leads K b b (starAtom g) := by
  unfold Grammar.starAtom
  infer_instance

instance unparenthesizedTargetBody : Leads K b b (unparenthesizedTargetBody g) := by
  unfold Grammar.unparenthesizedTargetBody
  infer_instance

instance starTargetBody : Leads K b b (starTargetBody g) := by
  unfold Grammar.starTargetBody
  infer_instance

instance singlePartTarget : Leads K b b (singlePartTarget g) := by
  unfold Grammar.singlePartTarget
  infer_instance

instance singleTargetBody : Leads K b b (singleTargetBody g) := by
  unfold Grammar.singleTargetBody
  infer_instance

instance deleteTargets : Leads K b b (deleteTargets g) := by
  unfold Grammar.deleteTargets
  infer_instance

instance deleteAtom : Leads K b b (deleteAtom g) := by
  unfold Grammar.deleteAtom
  infer_instance

instance deleteTargetBody : Leads K b b (deleteTargetBody g) := by
  unfold Grammar.deleteTargetBody
  infer_instance

instance annotationTargetBody : Leads K b b (annotationTargetBody g) := by
  unfold Grammar.annotationTargetBody
  infer_instance

end Leads

/-! ## Patterns -/

instance Keeps.pathAhead : Keeps K pathAhead := by
  unfold Grammar.pathAhead
  infer_instance

namespace Leads

instance captureTarget : Leads K b b captureTarget := by
  unfold Grammar.captureTarget
  infer_instance

instance attributePathBody : Leads K b b attributePathBody := by
  unfold Grammar.attributePathBody
  infer_instance

instance nameOrPath : Leads K b b (nameOrPath g) := by
  unfold Grammar.nameOrPath
  infer_instance

instance part {imaginary : Bool} : Leads K b b (part imaginary) := by
  unfold Grammar.part
  refine rule (h := bind (r := fun _ => ?_))
  split <;> infer_instance

instance signed {p : Parser Expr} [Leads K b b p] : Leads K b b (signed p) := by
  unfold Grammar.signed
  infer_instance

instance signedNumber : Leads K b b signedNumber := by
  unfold Grammar.signedNumber
  infer_instance

instance complexNumber : Leads K b b complexNumber := by
  unfold Grammar.complexNumber
  infer_instance

instance constantWord : Leads K b b constantWord := by
  unfold Grammar.constantWord
  infer_instance

instance literalExpr : Leads K b b (literalExpr g) := by
  unfold Grammar.literalExpr
  infer_instance

instance literalPattern : Leads K b b (literalPattern g) := by
  unfold Grammar.literalPattern
  have (e : Expr) : Leads K b b (match e with
      | .literal _ text => return .singleton text
      | e => return .value e : Parser Pattern) := by
    split <;> infer_instance
  infer_instance

instance orPattern : Leads K b b (orPattern g) := by
  unfold Grammar.orPattern
  refine rule (h := bind (r := fun _ => ?_))
  split <;> infer_instance

instance pattern : Leads K b b (pattern g) := by
  unfold Grammar.pattern
  infer_instance

instance starPatternBody : Leads K b b starPatternBody := by
  unfold Grammar.starPatternBody
  infer_instance

instance maybeStarPattern : Leads K b b (maybeStarPattern g) := by
  unfold Grammar.maybeStarPattern
  infer_instance

instance maybeSequence : Leads K b b (maybeSequence g) := by
  unfold Grammar.maybeSequence
  infer_instance

instance openSequence : Leads K b b (openSequence g) := by
  unfold Grammar.openSequence
  infer_instance

instance keyValue : Leads K b b (keyValue g) := by
  unfold Grammar.keyValue
  infer_instance

instance keyValues : Leads K b b (keyValues g) := by
  unfold Grammar.keyValues
  infer_instance

instance restOfMapping : Leads K b b restOfMapping := by
  unfold Grammar.restOfMapping
  infer_instance

instance closeBrace : Leads K (b + 1) b closeBrace := by
  unfold Grammar.closeBrace
  infer_instance

instance mappingPattern : Leads K b b (mappingPattern g) := by
  unfold Grammar.mappingPattern
  infer_instance

instance positionalPatterns : Leads K b b (positionalPatterns g) := by
  unfold Grammar.positionalPatterns
  infer_instance

instance keywordPatterns : Leads K b b (keywordPatterns g) := by
  unfold Grammar.keywordPatterns
  infer_instance

instance closePar : Leads K (b + 1) b closePar := by
  unfold Grammar.closePar
  infer_instance

instance classPattern : Leads K b b (classPattern g) := by
  unfold Grammar.classPattern
  infer_instance

instance valuePattern : Leads K b b (valuePattern g) := by
  unfold Grammar.valuePattern
  infer_instance

instance closedPatternBody : Leads K b b (closedPatternBody g) := by
  unfold Grammar.closedPatternBody
  infer_instance

instance patterns : Leads K b b (patterns g) := by
  unfold Grammar.patterns
  infer_instance

end Leads

end NotebookSlice.Syntax.Contract
