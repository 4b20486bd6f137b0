import NotebookSlice.Proofs.Syntax.Extent.Leads
import NotebookSlice.Syntax.Grammar.Parameter

/-! # Expressions stay in a line -/

namespace NotebookSlice.Syntax.Contract.Leads

open Grammar

variable {α : Type} {K : Contract} {b c e : ℕ} {g : Engine} [Meets K g]

instance closedBy {p : Parser α} {mark : Punct} [Leads K b c p] [Leads K c e (Parser.sym mark)] :
    Leads K b e (closedBy p mark) := by
  unfold Grammar.closedBy
  infer_instance

theorem enclosed {opening closing : Punct} {p : Parser α} [Leads K b c (Parser.sym opening)]
    [Leads K c c p] [Leads K c b (Parser.sym closing)] :
    Leads K b b (enclosed opening p closing) := by
  unfold Grammar.enclosed
  infer_instance

instance inPars {p : Parser α} [Leads K (b + 1) (b + 1) p] :
    Leads K b b (Grammar.enclosed .lpar p .rpar) := enclosed

instance inSqbs {p : Parser α} [Leads K (b + 1) (b + 1) p] :
    Leads K b b (Grammar.enclosed .lsqb p .rsqb) := enclosed

instance inBraces {p : Parser α} [Leads K (b + 1) (b + 1) p] :
    Leads K b b (Grammar.enclosed .lbrace p .rbrace) := enclosed

instance word {k : Keyword} {text : String} : Leads K b b (word k text) := by
  unfold Grammar.word
  infer_instance

instance starTargets : Leads K b b (starTargets g) := by
  unfold Grammar.starTargets
  infer_instance

instance tupled {element : Parser Expr} [Leads K b b element] : Leads K b b (tupled element) := by
  unfold Grammar.tupled
  refine bind (r := fun _ => bind (r := fun _ => bind (r := fun _ => bind (r := fun _ => ?_))))
  split <;> infer_instance

instance starExpressions : Leads K b b (starExpressions g) := by
  unfold Grammar.starExpressions
  infer_instance

instance starExpressionBody : Leads K b b (starExpressionBody g) := by
  unfold Grammar.starExpressionBody
  infer_instance

instance yieldExpr : Leads K b b (yieldExpr g) := by
  unfold Grammar.yieldExpr
  infer_instance

instance yieldOrStar : Leads K b b (yieldOrStar g) := by
  unfold Grammar.yieldOrStar
  infer_instance

instance assignmentExpression : Leads K b b (assignmentExpression g) := by
  unfold Grammar.assignmentExpression
  exact rule (h := bind (r := fun ⟨_, _⟩ => inferInstance))

instance namedExpression : Leads K b b (namedExpression g) := by
  unfold Grammar.namedExpression
  infer_instance

instance assignmentOrPlain : Leads K b b (assignmentOrPlain g) := by
  unfold Grammar.assignmentOrPlain
  infer_instance

instance starNamedExpression : Leads K b b (starNamedExpression g) := by
  unfold Grammar.starNamedExpression
  infer_instance

instance starNamedExpressions : Leads K b b (starNamedExpressions g) := by
  unfold Grammar.starNamedExpressions
  infer_instance

instance starredExpression : Leads K b b (starredExpression g) := by
  unfold Grammar.starredExpression
  infer_instance

/-! ## Comprehensions -/

instance generatorRest {async : Bool} : Leads K b b (generatorRest g async) := by
  unfold Grammar.generatorRest
  infer_instance

instance generator : Leads K b b (generator g) := by
  unfold Grammar.generator
  infer_instance

instance generators : Leads K b b (generators g) := by
  unfold Grammar.generators
  infer_instance

instance listComp : Leads K b b (listComp g) := by
  unfold Grammar.listComp
  infer_instance

instance setComp : Leads K b b (setComp g) := by
  unfold Grammar.setComp
  infer_instance

instance genExp : Leads K b b (genExp g) := by
  unfold Grammar.genExp
  infer_instance

/-! ## Brackets -/

instance group : Leads K b b (group g) := by
  unfold Grammar.group
  infer_instance

instance tuple : Leads K b b (tuple g) := by
  unfold Grammar.tuple
  infer_instance

instance list : Leads K b b (list g) := by
  unfold Grammar.list
  infer_instance

instance set : Leads K b b (set g) := by
  unfold Grammar.set
  infer_instance

instance pair : Leads K b b (pair g) := by
  unfold Grammar.pair
  infer_instance

instance entry : Leads K b b (entry g) := by
  unfold Grammar.entry
  infer_instance

instance entries : Leads K b b (entries g) := by
  unfold Grammar.entries
  infer_instance

instance misplacedValue : Leads K b b (misplacedValue g : Parser α) := by
  unfold Grammar.misplacedValue
  infer_instance

instance misplacedEntries : Leads K b b (misplacedEntries g : Parser α) := by
  unfold Grammar.misplacedEntries
  infer_instance

instance dict : Leads K b b (dict g) := by
  unfold Grammar.dict
  infer_instance

instance dictComp : Leads K b b (dictComp g) := by
  unfold Grammar.dictComp
  infer_instance

/-! ## Atoms -/

instance stringToken : Leads K b b stringToken :=
  accept_flat fun t => by cases t.kind <;> simp [Token.Kind.isPlain, Token.Kind.turn]

instance keepsStringToken : Keeps K Grammar.stringToken := Keeps.accept

instance stringsBody : Leads K b b (Grammar.strings g) := by
  unfold Grammar.strings
  refine bind (r := fun _ => ?_)
  split <;> infer_instance

instance number : Leads K b b number := by
  unfold Grammar.number
  refine bind (h := accept_flat fun t => ?_) (r := fun ⟨_, _⟩ => inferInstance)
  cases t.kind <;> simp [Token.Kind.isPlain, Token.Kind.turn]

instance atom : Leads K b b (atom g) := by
  unfold Grammar.atom
  infer_instance

/-! ## Subscripts and calls -/

instance slice : Leads K b b (slice g) := by
  unfold Grammar.slice
  infer_instance

instance slices : Leads K b b (slices g) := by
  unfold Grammar.slices
  infer_instance

instance keywordArgument : Leads K b b (keywordArgument g) := by
  unfold Grammar.keywordArgument
  infer_instance

instance keywordOrStarred : Leads K b b (keywordOrStarred g) := by
  unfold Grammar.keywordOrStarred
  infer_instance

instance keywordOrDoubleStarred : Leads K b b (keywordOrDoubleStarred g) := by
  unfold Grammar.keywordOrDoubleStarred
  infer_instance

instance lateArguments : Leads K b b (lateArguments g) := by
  unfold Grammar.lateArguments
  infer_instance

instance positionalArgument : Leads K b b (positionalArgument g) := by
  unfold Grammar.positionalArgument
  infer_instance

instance args : Leads K b b (args g) := by
  unfold Grammar.args
  infer_instance

instance argumentsBody : Leads K b b (argumentsBody g) := by
  unfold Grammar.argumentsBody
  infer_instance

instance extendPrimary {line : ℕ} {after : Parser Unit} {subject : Expr} [Leads K b b after] :
    Leads K b b (extendPrimary g line after subject) := by
  unfold Grammar.extendPrimary
  have (a : Option CallArguments) : Leads K b b (match a with
      | some a => return .call line subject a.positional a.keywords
      | none => return .call line subject [] [] : Parser Expr) := by
    split <;> infer_instance
  infer_instance

instance primaryBody : Leads K b b (primaryBody g) := by
  unfold Grammar.primaryBody
  infer_instance

instance awaitPrimaryBody : Leads K b b (awaitPrimaryBody g) := by
  unfold Grammar.awaitPrimaryBody
  infer_instance

/-! ## Operators -/

instance power : Leads K b b (power g) := by
  unfold Grammar.power
  refine rule (h := bind (r := fun _ => bind (r := fun _ => bind (r := fun _ => ?_))))
  split <;> infer_instance

instance factorBody : Leads K b b (factorBody g) := by
  unfold Grammar.factorBody
  infer_instance

theorem acceptOp {op? : Punct → Option BinaryOp} (h : ∀ m, op? m ≠ none → m.isFlat = true) :
    Leads K b b (Parser.accept fun t => match t.kind with
      | .punct m => op? m
      | _ => none) :=
  accept_flat fun t hop => by
    cases hkind : t.kind with
    | punct m =>
      rw [hkind] at hop
      exact ⟨rfl, Punct.turn_of_isFlat (h m hop)⟩
    | _ =>
      rw [hkind] at hop
      exact absurd rfl hop

theorem chain {operand : Parser Expr} {op? : Punct → Option BinaryOp} [Leads K b b operand]
    (h : ∀ m, op? m ≠ none → m.isFlat = true) : Leads K b b (chain operand op?) := by
  have := acceptOp (K := K) (b := b) h
  unfold Grammar.chain
  infer_instance

instance termBody : Leads K b b (termBody g) := chain fun m => by cases m <;> simp

instance sumBody : Leads K b b (sumBody g) := chain fun m => by cases m <;> simp

instance shiftBody : Leads K b b (shiftBody g) := chain fun m => by cases m <;> simp

instance bitwiseAndBody : Leads K b b (bitwiseAndBody g) := chain fun m => by cases m <;> simp

instance bitwiseXorBody : Leads K b b (bitwiseXorBody g) := chain fun m => by cases m <;> simp

instance bitwiseOrBody : Leads K b b (bitwiseOrBody g) := chain fun m => by cases m <;> simp

instance compareOp : Leads K b b compareOp := by
  unfold Grammar.compareOp
  refine orElse (h := accept_flat fun t hop => ?_)
  cases hkind : t.kind with
  | punct m =>
    rw [hkind] at hop
    refine ⟨rfl, Punct.turn_of_isFlat ?_⟩
    cases m <;> first | rfl | exact absurd rfl hop
  | keyword => exact ⟨rfl, rfl⟩
  | _ =>
    rw [hkind] at hop
    exact absurd rfl hop

instance comparison : Leads K b b (comparison g) := by
  unfold Grammar.comparison
  infer_instance

instance inversionBody : Leads K b b (inversionBody g) := by
  unfold Grammar.inversionBody
  infer_instance

instance joined {operand : Parser Expr} {k : Keyword} {op : BoolOp} [Leads K b b operand] :
    Leads K b b (joined operand k op) := by
  unfold Grammar.joined
  infer_instance

instance conjunctionBody : Leads K b b (conjunctionBody g) := joined

instance disjunctionBody : Leads K b b (disjunctionBody g) := joined

instance conditional : Leads K b b (conditional g) := by
  unfold Grammar.conditional
  infer_instance

end NotebookSlice.Syntax.Contract.Leads
