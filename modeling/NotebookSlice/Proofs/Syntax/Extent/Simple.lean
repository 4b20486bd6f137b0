import NotebookSlice.Proofs.Syntax.Extent.Beginning

/-! # Statements without blocks stay in a line

Such a statement reads something, no layout, and closes the brackets it opens. Its
lines are those of its tokens.
-/

namespace NotebookSlice.Syntax.Contract

open Grammar

variable {K : Contract} {b : ℕ} {g : Engine} [hg : Meets K g]

/-! ## Parts of statements -/

namespace Leads

instance augmentedOp : Leads K b b augmentedOp := by
  refine accept_flat fun t hop => ?_
  cases hkind : t.kind with
  | punct m =>
    rw [hkind] at hop
    refine ⟨rfl, Punct.turn_of_isFlat ?_⟩
    cases m <;> first | rfl | exact absurd rfl hop
  | _ =>
    rw [hkind] at hop
    exact absurd rfl hop

instance targetAndEq : Leads K b b (targetAndEq g) := by
  unfold Grammar.targetAndEq
  infer_instance

instance dottedNameBody : Leads K b b dottedNameBody := by
  unfold Grammar.dottedNameBody
  infer_instance

instance asName : Leads K b b asName := by
  unfold Grammar.asName
  infer_instance

instance importNames : Leads K b b (importNames g) := by
  unfold Grammar.importNames
  infer_instance

instance importedNames : Leads K b b importedNames := by
  unfold Grammar.importedNames
  infer_instance

instance importTargets : Leads K b b importTargets := by
  unfold Grammar.importTargets
  infer_instance

instance dots : Leads K b b dots := by
  unfold Grammar.dots
  infer_instance

end Leads

namespace Takes

instance closedBy {α : Type} {p : Parser α} {mark : Punct} {c e : ℕ} [Leads K b c p]
    [Takes K c e (Parser.sym mark)] : Takes K b e (closedBy p mark) := by
  unfold Grammar.closedBy
  infer_instance

instance targetAndEq : Takes K b b (targetAndEq g) := by
  unfold Grammar.targetAndEq
  infer_instance

instance annotationRest {start : Parser.Mark} {target : Expr} {simple : Bool} :
    Takes K b b (annotationRest g start target simple) := by
  unfold Grammar.annotationRest
  infer_instance

instance augmentedOp : Takes K b b augmentedOp := accept Leads.augmentedOp

instance starExpressions : Takes K 0 0 (starExpressions g) := by
  have (line : ℕ) (x : Expr) (xs : List Expr) : Leads K 0 0 (do
      match ← Parser.opt (Parser.sym .comma), xs with
      | none, [] => return x
      | _, _ => return .tuple line (x :: xs) : Parser Expr) :=
    Leads.bind (r := fun _ => by split <;> infer_instance)
  unfold Grammar.starExpressions Grammar.tupled
  infer_instance

instance yieldExpr : Takes K b b (yieldExpr g) := by
  unfold Grammar.yieldExpr
  infer_instance

end Takes

/-! ## Lines -/

/-- The parser gives a statement without blocks that runs from the start to the end. -/
structure Runs (K : Contract) (start : Parser.Mark) (p : Parser LegalStmt) : Prop where
  yields : ∀ i, K.Yields i p fun s j => s.val.isSimple = true ∧
    s.val.span = ⟨start.line, Parser.lastLineFrom K.lexed.tokens start j⟩

namespace Runs

variable {α : Type} {start : Parser.Mark} {p q : Parser LegalStmt}

theorem orElse (hp : Runs K start p) (hq : Runs K start q) : Runs K start (p <|> q) :=
  ⟨fun i => (hp.yields i).orElse (hq.yields i)⟩

theorem bind {p : Parser α} {f : α → Parser LegalStmt} [h : Keeps K p]
    (hf : ∀ a, Runs K start (f a)) : Runs K start (p >>= f) :=
  ⟨fun i => (h.yields i).bind fun a j _ => (hf a).yields j⟩

theorem commit (h : Runs K start p) : Runs K start p.commit := ⟨fun i => (h.yields i).commit⟩

theorem diagnose : Runs K start (Parser.diagnose p) := ⟨fun _ => .diagnose⟩

theorem done {f : Span → LegalStmt} (hsimple : ∀ span, (f span).val.isSimple = true)
    (hspan : ∀ span, (f span).val.span = span) :
    Runs K start (Parser.spanFrom start >>= fun span => pure (f span)) := by
  refine ⟨fun i => Yields.spanFrom.bind ?_⟩
  rintro span j ⟨rfl, rfl⟩
  exact .pure ⟨hsimple _, hspan _⟩

theorem annotationRest {target : Expr} {simple : Bool} :
    Runs K start (annotationRest g start target simple) := by
  unfold Grammar.annotationRest
  exact .bind fun _ => .bind fun _ => .bind fun _ => .done (fun _ => rfl) fun _ => rfl

end Runs

theorem simple_of_runs {f : Parser.Mark → Parser LegalStmt} [h : ∀ start, Takes K 0 0 (f start)]
    (hf : ∀ start, Runs K start (f start)) (i : ℕ) :
    K.Yields i (Parser.rule (Parser.startHere >>= f)) fun s j => K.Simple i s.val j := by
  refine Yields.rule (Yields.startHere.bind ?_)
  rintro start _ ⟨rfl, t, ht, hplain, rfl⟩
  refine ((h _).yields _ |>.and ((hf _).yields _)).mono fun s j hs => ?_
  exact ⟨hs.1.1, hs.1.2, hs.2.1, t, ht, hplain, hs.2.2⟩

/-! ## The statements -/

variable {i : ℕ}

theorem assignment : K.Yields i (assignment g) fun s j => K.Simple i s.val j := by
  refine simple_of_runs (fun start => ?_) i
  refine .orElse (.bind fun _ => .annotationRest) (.orElse (.bind fun _ => .annotationRest)
    (.orElse ?_ (.orElse ?_ .diagnose)))
  · exact .bind fun _ => .bind fun _ => .bind fun _ => .done (fun _ => rfl) fun _ => rfl
  · exact .bind fun _ => .bind fun _ => .commit (.bind fun _ => .done (fun _ => rfl) fun _ => rfl)

theorem importStatement : K.Yields i (importStatement g) fun s j => K.Simple i s.val j := by
  refine simple_of_runs (fun start => ?_) i
  refine .orElse ?_ (.orElse ?_ ?_)
  · exact .bind fun _ => .bind fun _ => .done (fun _ => rfl) fun _ => rfl
  · exact .bind fun _ => .bind fun _ => .bind fun _ => .bind fun _ => .bind fun _ =>
      .done (fun _ => rfl) fun _ => rfl
  · exact .bind fun _ => .bind fun _ => .bind fun _ => .bind fun _ =>
      .done (fun _ => rfl) fun _ => rfl

theorem returnStatement : K.Yields i (returnStatement g) fun s j => K.Simple i s.val j :=
  simple_of_runs (fun _ => .bind fun _ => .bind fun _ => .done (fun _ => rfl) fun _ => rfl) i

theorem raiseStatement : K.Yields i (raiseStatement g) fun s j => K.Simple i s.val j := by
  refine simple_of_runs (fun start => .orElse ?_ ?_) i
  · exact .bind fun _ => .bind fun _ => .bind fun _ => .done (fun _ => rfl) fun _ => rfl
  · exact .bind fun _ => .done (fun _ => rfl) fun _ => rfl

theorem deleteStatement : K.Yields i (deleteStatement g) fun s j => K.Simple i s.val j :=
  simple_of_runs (fun _ => .orElse (.bind fun _ => .bind fun _ => .bind fun _ =>
    .done (fun _ => rfl) fun _ => rfl) .diagnose) i

theorem yieldStatement : K.Yields i (yieldStatement g) fun s j => K.Simple i s.val j :=
  simple_of_runs (fun _ => .bind fun _ => .done (fun _ => rfl) fun _ => rfl) i

theorem assertStatement : K.Yields i (assertStatement g) fun s j => K.Simple i s.val j :=
  simple_of_runs (fun _ => .bind fun _ => .bind fun _ => .bind fun _ =>
    .done (fun _ => rfl) fun _ => rfl) i

theorem expressionStatement : K.Yields i (expressionStatement g) fun s j => K.Simple i s.val j :=
  simple_of_runs (fun _ => .bind fun _ => .done (fun _ => rfl) fun _ => rfl) i

theorem nameList {k : Keyword} {make : Span → List String → LegalStmt}
    (hsimple : ∀ span names, (make span names).val.isSimple = true)
    (hspan : ∀ span names, (make span names).val.span = span) :
    K.Yields i (nameList k make) fun s j => K.Simple i s.val j :=
  simple_of_runs (fun _ => .bind fun _ => .bind fun names =>
    .done (hsimple · names) (hspan · names)) i

theorem wordStatement {k : Keyword} {make : Span → LegalStmt}
    (hsimple : ∀ span, (make span).val.isSimple = true)
    (hspan : ∀ span, (make span).val.span = span) :
    K.Yields i (wordStatement k make) fun s j => K.Simple i s.val j :=
  simple_of_runs (fun _ => .bind fun _ => .done hsimple hspan) i

/-- The lines of a statement without blocks are those of its tokens. -/
theorem simpleStatementBody : K.Yields i (simpleStatementBody g) fun s j => K.Simple i s.val j := by
  unfold Grammar.simpleStatementBody
  exact assignment |>.orElse <| expressionStatement.orElse <| returnStatement.orElse <|
    importStatement.orElse <| raiseStatement.orElse <|
    (wordStatement (fun _ => rfl) fun _ => rfl).orElse <| deleteStatement.orElse <|
    yieldStatement.orElse <| assertStatement.orElse <|
    (wordStatement (fun _ => rfl) fun _ => rfl).orElse <|
    (wordStatement (fun _ => rfl) fun _ => rfl).orElse <|
    (nameList (fun _ _ => rfl) fun _ _ => rfl).orElse <|
    nameList (fun _ _ => rfl) fun _ _ => rfl

end NotebookSlice.Syntax.Contract
