import NotebookSlice.Proofs.Syntax.Extent.Inline

/-! # Where expressions begin

An expression stands on the line of its first token that is no parenthesis around it.
-/

namespace NotebookSlice.Syntax

theorem StringLiteral.line_of_value {read : FieldReader} {literals : List (ℕ × List Char)}
    {x : Expr} (h : value read literals = .ok x) :
    x.line = (literals.head?.map (·.1)).getD 1 := by
  unfold value at h
  dsimp only [bind, Except.bind] at h
  split at h
  · cases h
  · split at h <;> exact Except.ok.inj h ▸ rfl

namespace Contract

open Grammar

variable {α : Type} {K : Contract} {b c e i j k : ℕ} {x y : Expr}

namespace Opens

theorem mono (h : K.Opens i x j) (hle : j ≤ k) : K.Opens i x k := by
  obtain ⟨l, t, hil, hlj, h⟩ := h
  exact ⟨l, t, hil, Nat.lt_of_lt_of_le hlj hle, h⟩

theorem of_line {t : Token} (ht : K.lexed.tokens[i]? = some t) (hlt : i < j)
    (hline : x.line = t.line) : K.Opens i x j :=
  ⟨i, t, Nat.le_refl i, hlt, ht, hline, fun _ _ hle hlt => absurd hle (by omega)⟩

theorem inPars {t : Token} (h : K.Opens (i + 1) x j) (ht : K.lexed.tokens[i]? = some t)
    (hkind : t.kind = .punct .lpar) : K.Opens i x j := by
  obtain ⟨k, u, hik, hkj, hu, hline, hpars⟩ := h
  refine ⟨k, u, by omega, hkj, hu, hline, fun l v hl hlk hv => ?_⟩
  rcases Nat.eq_or_lt_of_le hl with rfl | hlt
  · rw [ht] at hv
    exact Option.some.inj hv ▸ hkind
  · exact hpars l v hlt hlk hv

end Opens

/-! ## Results of a form -/

/-- The parser leads on to a result of some form. -/
structure Makes (K : Contract) (b e : ℕ) (P : α → Prop) (p : Parser α) : Prop where
  yields : ∀ i, K.Yields i p fun a j => K.Spans b e i j ∧ P a

namespace Makes

variable {P : Expr → Prop} {p q : Parser Expr}

theorem pure (h : P x) : Makes K b b P (Pure.pure x) := ⟨fun i => .pure ⟨.refl b i, h⟩⟩

theorem bind {p : Parser α} {f : α → Parser Expr} [hp : Leads K b c p]
    (h : ∀ a, Makes K c e P (f a)) : Makes K b e P (p >>= f) :=
  ⟨fun i => (hp.yields i).bind fun a j hj => ((h a).yields j).mono fun _ _ hx =>
    ⟨hj.trans hx.1, hx.2⟩⟩

theorem orElse (hp : Makes K b e P p) (hq : Makes K b e P q) : Makes K b e P (p <|> q) :=
  ⟨fun i => (hp.yields i).orElse (hq.yields i)⟩

theorem rule (hp : Makes K b e P p) : Makes K b e P p.rule := ⟨fun i => (hp.yields i).rule⟩

theorem commit (hp : Makes K b e P p) : Makes K b e P p.commit := ⟨fun i => (hp.yields i).commit⟩

theorem absurd_bind {p : Parser α} {f : α → Parser Expr} (h : Makes K b c (fun _ => False) p) :
    Makes K b e P (p >>= f) :=
  ⟨fun i => (h.yields i).bind fun _ _ h => h.2.elim⟩

theorem raiseAt {line : ℕ} : Makes K b e P (Parser.raiseAt line) := ⟨fun _ => .raiseAt⟩

theorem raiseHere : Makes K b e P Parser.raiseHere := ⟨fun _ => .raiseHere⟩

end Makes

/-! ## Beginnings -/

/-- The parser reads an expression, which begins where the parser does. -/
class Begins (K : Contract) (p : Parser Expr) : Prop where
  yields : ∀ i, K.Yields i p (K.Opens i)

namespace Begins

variable {p q : Parser Expr}

instance orElse [h : Begins K p] [r : Begins K q] : Begins K (p <|> q) :=
  ⟨fun i => (h.yields i).orElse (r.yields i)⟩

instance rule [h : Begins K p] : Begins K (Parser.rule p) := ⟨fun i => (h.yields i).rule⟩

instance diagnose : Begins K (Parser.diagnose p) := ⟨fun _ => .diagnose⟩

/-- What is only looked at comes before an expression. -/
instance followedBy {p : Parser α} {f : Unit → Parser Expr} [h : Keeps K p]
    [r : ∀ a, Begins K (f a)] : Begins K (Parser.followedBy p >>= f) :=
  ⟨fun i => (h.yields i).followedBy.bind fun a _ hj => hj ▸ (r a).yields i⟩

theorem of_token {p : Parser α} {f : α → Parser Expr} {n : α → ℕ}
    (hp : ∀ i, K.Yields i p fun a j => i < j ∧ ∃ t, K.lexed.tokens[i]? = some t ∧ n a = t.line)
    (hf : ∀ a, Makes K c e (fun x => x.line = n a) (f a)) : Begins K (p >>= f) := by
  refine ⟨fun i => (hp i).bind ?_⟩
  rintro a j ⟨hlt, t, ht, hn⟩
  exact ((hf a).yields j).mono fun x k hx =>
    .of_line ht (Nat.lt_of_lt_of_le hlt hx.1.le) (hx.2.trans hn)

theorem of_accept {f : Token → Option α} {r : α → Parser Expr} {n : α → ℕ}
    (hf : ∀ t a, f t = some a → n a = t.line)
    (hr : ∀ a, Makes K c e (fun x => x.line = n a) (r a)) : Begins K (Parser.accept f >>= r) :=
  of_token (fun i => .accept fun t a ht ha => ⟨Nat.lt_succ_self i, t, ht, hf t a ha⟩) hr

theorem of_sym {mark : Punct} {f : Token → Parser Expr} (c : ℕ)
    (hf : ∀ t : Token, Makes K c 0 (fun x => x.line = t.line) (f t)) :
    Begins K (Parser.sym mark >>= f) :=
  of_token (fun _ => Yields.sym.mono fun t _ ht => ⟨by omega, t, ht.2.1, rfl⟩) hf

theorem of_kw {k : Keyword} {f : Token → Parser Expr}
    (hf : ∀ t : Token, Makes K 0 0 (fun x => x.line = t.line) (f t)) :
    Begins K (Parser.kw k >>= f) :=
  of_token (fun _ => Yields.kw.mono fun t _ ht => ⟨by omega, t, ht.2.1, rfl⟩) hf

theorem of_name {f : ℕ × String → Parser Expr}
    (hf : ∀ a, Makes K 0 0 (fun x => x.line = a.1) (f a)) : Begins K (Parser.name >>= f) := by
  refine of_accept (fun t a ha => ?_) hf
  split at ha
  · cases ha
    rfl
  · cases ha

theorem of_lineHere {f : ℕ → Parser Expr}
    (hf : ∀ i t, K.lexed.tokens[i]? = some t → K.Yields i (f t.line) (K.Opens i)) :
    Begins K (Parser.lineHere >>= f) := by
  refine ⟨fun i => Yields.lineHere.bind ?_⟩
  rintro _ _ ⟨rfl, t, ht, -, rfl⟩
  exact hf _ t ht

theorem opens_of_makes {t : Token} [h : Takes K 0 0 p] (ht : K.lexed.tokens[i]? = some t)
    (hp : Makes K 0 0 (fun x => x.line = t.line) p) : K.Yields i p (K.Opens i) :=
  ((h.yields i).and (hp.yields i)).mono fun _ _ hx => .of_line ht hx.1.2 hx.2.2

theorem ended {p : Parser Expr} {f : Expr → Parser Expr} [h : Begins K p]
    (hf : ∀ x, Makes K b e (fun y => y = x) (f x)) : Begins K (p >>= f) :=
  ⟨fun i => (h.yields i).bind fun x j hx => ((hf x).yields j).mono fun _ _ hy =>
    hy.2 ▸ hx.mono hy.1.le⟩

/-- The operand itself, or something on its line that goes on after it. -/
theorem extended {operand : Parser Expr} {f : ℕ → Expr → Parser Expr} [h : Begins K operand]
    (hf : ∀ line x, Makes K b e (fun y => y = x ∨ y.line = line) (f line x)) :
    Begins K (Parser.lineHere >>= fun line => operand >>= f line) := by
  refine of_lineHere fun i t ht => (h.yields i).bind fun x j hx =>
    ((hf t.line x).yields j).mono fun y k hy => ?_
  rcases hy.2 with rfl | hline
  · exact hx.mono hy.1.le
  · exact .of_line ht (Nat.lt_of_lt_of_le hx.lt hy.1.le) hline

theorem grown {operand : Parser Expr} {step : ℕ → Expr → Parser Expr} [h : Begins K operand]
    (hstep : ∀ line x, Makes K b e (fun y => y.line = line) (step line x)) :
    Begins K (Parser.lineHere >>= fun line => Parser.grow operand (step line)) :=
  of_lineHere fun i t ht => (h.yields i).grow fun x j hx =>
    ((hstep t.line x).yields j).mono fun _ _ hy =>
      .of_line ht (Nat.lt_of_lt_of_le hx.lt hy.1.le) hy.2

instance inPars [h : Begins K p] : Begins K (enclosed .lpar p .rpar) := by
  refine ⟨fun i => Yields.sym.bind ?_⟩
  rintro t _ ⟨rfl, ht, hkind⟩
  refine (h.yields (i + 1)).bind fun x j hx => Yields.sym.bind ?_
  rintro _ _ ⟨rfl, -⟩
  exact .pure ((hx.inPars ht hkind).mono (Nat.le_succ j))

end Begins

/-! ## The rules for expressions -/

section Rules

variable {g : Engine} [hg : Meets K g]

namespace Begins

instance expression : Begins K (g.call .expression) :=
  ⟨fun i => (hg.call .expression nofun i).mono fun _ _ h => h.2⟩

instance disjunction : Begins K (g.call .disjunction) :=
  ⟨fun i => (hg.call .disjunction nofun i).mono fun _ _ h => h.2⟩

instance conjunction : Begins K (g.call .conjunction) :=
  ⟨fun i => (hg.call .conjunction nofun i).mono fun _ _ h => h.2⟩

instance inversion : Begins K (g.call .inversion) :=
  ⟨fun i => (hg.call .inversion nofun i).mono fun _ _ h => h.2⟩

instance bitwiseOr : Begins K (g.call .bitwiseOr) :=
  ⟨fun i => (hg.call .bitwiseOr nofun i).mono fun _ _ h => h.2⟩

instance bitwiseXor : Begins K (g.call .bitwiseXor) :=
  ⟨fun i => (hg.call .bitwiseXor nofun i).mono fun _ _ h => h.2⟩

instance bitwiseAnd : Begins K (g.call .bitwiseAnd) :=
  ⟨fun i => (hg.call .bitwiseAnd nofun i).mono fun _ _ h => h.2⟩

instance shift : Begins K (g.call .shift) :=
  ⟨fun i => (hg.call .shift nofun i).mono fun _ _ h => h.2⟩

instance sum : Begins K (g.call .sum) :=
  ⟨fun i => (hg.call .sum nofun i).mono fun _ _ h => h.2⟩

instance term : Begins K (g.call .term) :=
  ⟨fun i => (hg.call .term nofun i).mono fun _ _ h => h.2⟩

instance factor : Begins K (g.call .factor) :=
  ⟨fun i => (hg.call .factor nofun i).mono fun _ _ h => h.2⟩

instance awaitPrimary : Begins K (g.call .awaitPrimary) :=
  ⟨fun i => (hg.call .awaitPrimary nofun i).mono fun _ _ h => h.2⟩

instance primary : Begins K (g.call .primary) :=
  ⟨fun i => (hg.call .primary nofun i).mono fun _ _ h => h.2⟩

instance strings : Begins K (g.call .strings) :=
  ⟨fun i => (hg.call .strings nofun i).mono fun _ _ h => h.2⟩

instance nameExpr {ctx : Context} : Begins K (Parser.nameExpr ctx) :=
  of_name fun ⟨_, _⟩ => .pure rfl

instance word {k : Keyword} {text : String} : Begins K (word k text) := of_kw fun _ => .pure rfl

instance yieldExpr : Begins K (yieldExpr g) := by
  unfold Grammar.yieldExpr
  refine rule (h := of_lineHere fun i t ht => .orElse ?_ ?_)
  · exact opens_of_makes ht (.bind fun _ => .bind fun _ => .bind fun _ => .pure rfl)
  · exact opens_of_makes ht (.bind fun _ => .bind fun _ => .pure rfl)

instance starExpressionBody : Begins K (starExpressionBody g) := by
  unfold Grammar.starExpressionBody
  refine of_lineHere fun i t ht => .orElse ?_ (expression.yields i)
  exact opens_of_makes ht (.bind fun _ => .bind fun _ => .pure rfl)

instance assignmentExpression : Begins K (assignmentExpression g) := by
  unfold Grammar.assignmentExpression
  exact rule (h := of_name fun ⟨_, _⟩ => .bind fun _ => .commit (.bind fun _ => .pure rfl))

instance namedExpression : Begins K (namedExpression g) := by
  unfold Grammar.namedExpression
  have := ended (K := K) (p := Grammar.expression g) (f := fun x => do
      Parser.notFollowedBy (Parser.sym .colonEq)
      return x) fun x => .bind (b := 0) fun _ => .pure rfl
  infer_instance

/-! ## Atoms -/

instance listComp : Begins K (listComp g) := by
  unfold Grammar.listComp
  exact rule (h := orElse (h := of_sym 1 fun _ => .bind fun _ => .bind fun _ => .pure rfl))

instance setComp : Begins K (setComp g) := by
  unfold Grammar.setComp
  exact rule (h := orElse (h := of_sym 1 fun _ => .bind fun _ => .bind fun _ => .pure rfl))

instance genExp : Begins K (genExp g) := by
  unfold Grammar.genExp
  exact rule (h := orElse (h := of_sym 1 fun _ => .bind fun _ => .bind fun _ => .pure rfl))

instance group : Begins K (group g) := by
  unfold Grammar.group
  infer_instance

instance tuple : Begins K (tuple g) := by
  unfold Grammar.tuple
  exact rule (h := of_sym 1 fun _ => .bind fun _ => .bind fun _ => .pure rfl)

instance list : Begins K (list g) := by
  unfold Grammar.list
  exact rule (h := of_sym 1 fun _ => .bind fun _ => .bind fun _ => .pure rfl)

instance set : Begins K (set g) := by
  unfold Grammar.set
  exact rule (h := of_sym 1 fun _ => .bind fun _ => .pure rfl)

instance dictComp : Begins K (dictComp g) := by
  unfold Grammar.dictComp
  exact rule (h := orElse (h := of_sym 1 fun _ => .bind fun ⟨_, _⟩ => .bind fun _ => .pure rfl))

instance stringsBody : Begins K (Grammar.strings g) := by
  have hliterals (i : ℕ) : K.Yields i (Parser.many1 Grammar.stringToken) fun ls j => i < j ∧
      ∃ t, K.lexed.tokens[i]? = some t ∧ (ls.head?.map (·.1)).getD 1 = t.line := by
    refine Yields.bind (Q := fun l j => i < j ∧ ∃ t, K.lexed.tokens[i]? = some t ∧ l.1 = t.line)
      (.accept fun t a ht ha => ⟨Nat.lt_succ_self i, t, ht, ?_⟩) fun l j hl =>
      ((Leads.many (b := 0)).yields j).bind fun ls k hk => ?_
    · split at ha
      · cases ha
        rfl
      · cases ha
    · exact .pure ⟨Nat.lt_of_lt_of_le hl.1 hk.le, hl.2⟩
  unfold Grammar.strings
  refine of_token (c := 0) (e := 0) hliterals fun ls => ?_
  split
  · exact .pure (StringLiteral.line_of_value ‹_›)
  · exact .raiseHere
  · exact .raiseAt

instance number : Begins K number := by
  unfold Grammar.number
  refine of_accept (c := 0) (e := 0) (n := Prod.fst) (fun t a ha => ?_) fun ⟨_, _⟩ => ?_
  · split at ha
    · cases ha
      rfl
    · cases ha
  · simp only
    split
    · exact .raiseAt
    · exact .pure rfl

theorem misplacedValue : Makes K b b (fun _ => False) (misplacedValue g : Parser Expr) := by
  unfold Grammar.misplacedValue
  exact .orElse (.bind fun _ => .bind fun _ => .bind fun _ => .bind fun _ => .raiseAt)
    (.bind fun _ => .bind fun _ => .bind fun _ => .raiseAt)

theorem misplacedEntries : Makes K b b (fun _ => False) (misplacedEntries g : Parser Expr) := by
  unfold Grammar.misplacedEntries
  exact .rule (.orElse (.bind fun _ => .bind fun _ => .rule (.orElse
    (.bind fun _ => .bind fun _ => .raiseAt) misplacedValue)) misplacedValue)

instance dict : Begins K (dict g) := by
  unfold Grammar.dict
  exact rule (h := orElse (h := of_sym 1 fun _ => .bind fun _ => .bind fun _ => .pure rfl)
    (r := of_sym 1 fun _ => .absurd_bind misplacedEntries))

instance atom : Begins K (atom g) := by
  unfold Grammar.atom
  have : Begins K (do
      let t ← Parser.sym .ellipsis
      return .literal t.line "...") := of_sym 0 fun _ => .pure rfl
  infer_instance

theorem extendPrimary {line : ℕ} {subject : Expr} :
    Makes K 0 0 (fun x => x.line = line) (extendPrimary g line (Pure.pure ()) subject) := by
  unfold Grammar.extendPrimary
  refine .orElse (.bind fun _ => .bind fun _ => .bind fun _ => .pure rfl) (.orElse
    (.bind fun _ => .bind fun _ => .pure rfl) (.orElse (.bind fun _ => .bind fun arguments =>
      .bind fun _ => .bind fun _ => ?_) (.bind fun _ => .bind fun _ => .bind fun _ => .pure rfl)))
  cases arguments <;> exact .pure rfl

instance primaryBody : Begins K (primaryBody g) := by
  unfold Grammar.primaryBody
  exact grown fun _ _ => extendPrimary

instance awaitPrimaryBody : Begins K (awaitPrimaryBody g) := by
  unfold Grammar.awaitPrimaryBody
  exact orElse (h := of_kw fun _ => .bind fun _ => .pure rfl)

/-! ## Operators -/

instance power : Begins K (power g) := by
  unfold Grammar.power
  refine rule (h := extended (b := 0) (e := 0) fun line x => .bind fun y => ?_)
  cases y with
  | none => exact .pure (.inl rfl)
  | some => exact .pure (.inr rfl)

instance factorBody : Begins K (factorBody g) := by
  have hsigned (mark : Punct) [Holds mark.isFlat] (op : UnaryOp) : Begins K (do
      let t ← Parser.sym mark
      return .unary t.line op (← g.call .factor)) :=
    of_sym 0 fun _ => .bind fun _ => .pure rfl
  unfold Grammar.factorBody
  exact orElse (h := hsigned ..) (r := orElse (h := hsigned ..) (r := orElse (h := hsigned ..)))

theorem chain {operand : Parser Expr} {op? : Punct → Option BinaryOp} [Leads K 0 0 operand]
    [Begins K operand] (h : ∀ m, op? m ≠ none → m.isFlat = true) : Begins K (chain operand op?) := by
  have := Leads.acceptOp (K := K) (b := 0) h
  unfold Grammar.chain
  exact grown (b := 0) fun _ _ => .bind fun _ => .bind fun _ => .pure rfl

instance termBody : Begins K (termBody g) := chain fun m => by cases m <;> simp

instance sumBody : Begins K (sumBody g) := chain fun m => by cases m <;> simp

instance shiftBody : Begins K (shiftBody g) := chain fun m => by cases m <;> simp

instance bitwiseAndBody : Begins K (bitwiseAndBody g) := chain fun m => by cases m <;> simp

instance bitwiseXorBody : Begins K (bitwiseXorBody g) := chain fun m => by cases m <;> simp

instance bitwiseOrBody : Begins K (bitwiseOrBody g) := chain fun m => by cases m <;> simp

instance comparison : Begins K (comparison g) := by
  unfold Grammar.comparison
  refine rule (h := extended (b := 0) (e := 0) fun line x => .bind fun rest => ?_)
  split
  · exact .pure (.inl rfl)
  · exact .pure (.inr rfl)

instance inversionBody : Begins K (inversionBody g) := by
  unfold Grammar.inversionBody
  exact orElse (h := of_kw fun _ => .bind fun _ => .pure rfl)

instance joined {operand : Parser Expr} {k : Keyword} {op : BoolOp} [Leads K 0 0 operand]
    [Begins K operand] : Begins K (joined operand k op) := by
  unfold Grammar.joined
  refine extended (b := 0) (e := 0) fun line x => .bind fun more => ?_
  split
  · exact .pure (.inl rfl)
  · exact .pure (.inr rfl)

instance conjunctionBody : Begins K (conjunctionBody g) := joined

instance disjunctionBody : Begins K (disjunctionBody g) := joined

instance conditional : Begins K (conditional g) := by
  unfold Grammar.conditional
  refine of_lineHere fun i t ht => .orElse ?_ (disjunction.yields i)
  exact opens_of_makes ht (.bind fun _ => .bind fun _ => .bind fun _ => .bind fun _ =>
    .bind fun _ => .pure rfl)

instance lambda : Begins K (lambda g) := by
  unfold Grammar.lambda
  exact rule (h := of_kw fun _ => .bind fun _ => .bind fun _ => .bind fun _ => .pure rfl)

instance expressionBody : Begins K (expressionBody g) := by
  unfold Grammar.expressionBody Grammar.plainExpression
  infer_instance

end Begins

end Rules

end Contract

end NotebookSlice.Syntax
