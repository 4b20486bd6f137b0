import NotebookSlice.Proofs.Syntax.Extent.Contract

/-! # Parsers that stay in a line

Most rules of the grammar read no layout and change the number of open brackets
in a known way. Both are found out part by part.
-/

namespace NotebookSlice.Syntax

namespace Contract

variable {α β : Type} (K : Contract)

/-- Whatever the parser reads, what it remembers satisfies the contract. -/
class Keeps (p : Parser α) : Prop where
  yields : ∀ i, K.Yields i p fun _ _ => True

/-- The parser reads no layout; if `b` brackets are open before it, `e` are open after it. -/
class Leads (b : ℕ) (e : outParam ℕ) (p : Parser α) : Prop where
  yields : ∀ i, K.Yields i p fun _ j => K.Spans b e i j

class Takes (b : ℕ) (e : outParam ℕ) (p : Parser α) : Prop where
  yields : ∀ i, K.Yields i p fun _ j => K.Spans b e i j ∧ i < j

/-- The nonterminals of an engine satisfy the contract. No rule refers to a whole program. -/
class Meets (g : Engine) : Prop where
  call : ∀ n, n ≠ .file → ∀ i, K.Yields i (g.call n) (K.holds n i)

class Holds (b : Bool) : Prop where
  eq_true : b = true

instance Holds.of_true : Holds true := ⟨rfl⟩

end Contract

@[reducible] def Punct.isFlat : Punct → Bool
  | .lpar | .rpar | .lsqb | .rsqb | .lbrace | .rbrace => false
  | _ => true

theorem Punct.turn_of_isFlat {m : Punct} (h : m.isFlat = true) :
    (Token.Kind.punct m).turn = 0 := by
  cases m <;> first | rfl | cases h

namespace Contract

variable {α β : Type} {K : Contract} {b c e i : ℕ} {p q : Parser α} {f : α → Parser β}

/-! ## What is remembered -/

namespace Keeps

instance accept {f : Token → Option α} : Keeps K (Parser.accept f) :=
  ⟨fun _ => .accept fun _ _ _ _ => trivial⟩

instance sym {m : Punct} : Keeps K (Parser.sym m) := accept

instance kw {k : Keyword} : Keeps K (Parser.kw k) := accept

instance kind {k : Token.Kind} : Keeps K (Parser.kind k) := accept

instance newline : Keeps K Parser.newline := kind

instance soft {s : SoftKeyword} : Keeps K (Parser.soft s) := accept

instance pure {a : α} : Keeps K (Pure.pure a : Parser α) := ⟨fun _ => .pure trivial⟩

instance bind [h : Keeps K p] [r : ∀ a, Keeps K (f a)] : Keeps K (p >>= f) :=
  ⟨fun i => (h.yields i).bind fun a j _ => (r a).yields j⟩

instance orElse [h : Keeps K p] [r : Keeps K q] : Keeps K (p <|> q) :=
  ⟨fun i => (h.yields i).orElse (r.yields i)⟩

instance (priority := low) of_leads [h : Leads K 0 e p] : Keeps K p :=
  ⟨fun i => (h.yields i).mono fun _ _ _ => trivial⟩

end Keeps

/-! ## Leading on -/

namespace Leads

theorem accept {f : Token → Option α}
    (h : ∀ t a, f t = some a → t.isLayout = false ∧ t.kind.turn + b = e) :
    Leads K b e (Parser.accept f) :=
  ⟨fun _ => .accept fun t a ht ha => .succ ht (h t a ha).1 (h t a ha).2⟩

theorem sym_of_turn {m : Punct} (h : (Token.Kind.punct m).turn + b = e) :
    Leads K b e (Parser.sym m) := by
  refine accept fun t a ha => ?_
  rw [Token.isLayout_eq]
  cases hkind : t.kind with
  | punct m' =>
    rw [hkind] at ha
    simp only [Option.ite_none_right_eq_some] at ha
    exact ⟨rfl, ha.1 ▸ h⟩
  | _ =>
    rw [hkind] at ha
    cases ha

instance sym {m : Punct} [h : Holds m.isFlat] : Leads K b b (Parser.sym m) :=
  sym_of_turn (by rw [Punct.turn_of_isFlat h.eq_true, Int.zero_add])

instance lpar : Leads K b (b + 1) (Parser.sym .lpar) := sym_of_turn (Int.add_comm 1 b)

instance lsqb : Leads K b (b + 1) (Parser.sym .lsqb) := sym_of_turn (Int.add_comm 1 b)

instance lbrace : Leads K b (b + 1) (Parser.sym .lbrace) := sym_of_turn (Int.add_comm 1 b)

theorem closing {m : Punct} (h : (Token.Kind.punct m).turn = -1) :
    Leads K (b + 1) b (Parser.sym m) :=
  sym_of_turn (by rw [h]; omega)

instance rpar : Leads K (b + 1) b (Parser.sym .rpar) := closing rfl

instance rsqb : Leads K (b + 1) b (Parser.sym .rsqb) := closing rfl

instance rbrace : Leads K (b + 1) b (Parser.sym .rbrace) := closing rfl

theorem accept_flat {f : Token → Option α}
    (h : ∀ t, f t ≠ none → t.kind.isPlain = true ∧ t.kind.turn = 0) :
    Leads K b b (Parser.accept f) :=
  accept fun t a ha => by
    obtain ⟨hplain, hturn⟩ := h t (by rw [ha]; exact Option.some_ne_none a)
    exact ⟨by rw [Token.isLayout_eq, hplain]; rfl, by rw [hturn, Int.zero_add]⟩

instance kw {k : Keyword} : Leads K b b (Parser.kw k) :=
  accept_flat fun t => by cases t.kind <;> simp [Token.Kind.isPlain, Token.Kind.turn]

instance soft {s : SoftKeyword} : Leads K b b (Parser.soft s) :=
  accept_flat fun t => by cases t.kind <;> simp [Token.Kind.isPlain, Token.Kind.turn]

instance name : Leads K b b Parser.name :=
  accept_flat fun t => by cases t.kind <;> simp [Token.Kind.isPlain, Token.Kind.turn]

instance pure {a : α} : Leads K b b (Pure.pure a : Parser α) := ⟨fun i => .pure (.refl b i)⟩

instance bind [h : Leads K b c p] [r : ∀ a, Leads K c e (f a)] : Leads K b e (p >>= f) :=
  ⟨fun i => (h.yields i).bind fun a j hj => ((r a).yields j).mono fun _ _ hk => hj.trans hk⟩

instance orElse [h : Leads K b e p] [r : Leads K b e q] : Leads K b e (p <|> q) :=
  ⟨fun i => (h.yields i).orElse (r.yields i)⟩

instance rule [h : Leads K b e p] : Leads K b e (Parser.rule p) := ⟨fun i => (h.yields i).rule⟩

instance commit [h : Leads K b e p] : Leads K b e (Parser.commit p) :=
  ⟨fun i => (h.yields i).commit⟩

instance fail : Leads K b b (Parser.fail : Parser α) := ⟨fun _ => .fail⟩

instance diagnose : Leads K b b (Parser.diagnose p) := ⟨fun _ => .diagnose⟩

instance raiseAt {line : ℕ} : Leads K b b (Parser.raiseAt line : Parser α) := ⟨fun _ => .raiseAt⟩

instance raiseHere : Leads K b b (Parser.raiseHere : Parser α) := ⟨fun _ => .raiseHere⟩

instance followedBy [h : Keeps K p] : Leads K b b (Parser.followedBy p) :=
  ⟨fun i => (h.yields i).followedBy.mono fun _ _ hj => hj ▸ .refl b _⟩

instance notFollowedBy [h : Keeps K p] : Leads K b b (Parser.notFollowedBy p) :=
  ⟨fun i => (h.yields i).notFollowedBy.mono fun _ _ hj => hj ▸ .refl b _⟩

instance lineHere : Leads K b b Parser.lineHere :=
  ⟨fun _ => Yields.lineHere.mono fun _ _ hj => hj.1 ▸ .refl b _⟩

instance spanFrom {start : Parser.Mark} : Leads K b b (Parser.spanFrom start) :=
  ⟨fun _ => Yields.spanFrom.mono fun _ _ hj => hj.1 ▸ .refl b _⟩

instance opt [h : Leads K b b p] : Leads K b b (Parser.opt p) :=
  ⟨fun i => (h.yields i).opt.mono fun _ j hj => by
    obtain ⟨-, rfl⟩ | ⟨-, -, hj⟩ := hj
    · exact .refl b j
    · exact hj⟩

instance many [h : Leads K b b p] : Leads K b b (Parser.many p) :=
  ⟨fun i => .many (I := fun _ j => K.Spans b b i j) (.refl b i) fun _ j hj =>
    (h.yields j).mono fun _ _ hk => hj.trans hk⟩

instance many1 [Leads K b b p] : Leads K b b (Parser.many1 p) := by
  unfold Parser.many1
  infer_instance

instance sepBy1 {sep : Parser β} [Leads K b b p] [Leads K b b sep] :
    Leads K b b (Parser.sepBy1 p sep) := by
  unfold Parser.sepBy1
  infer_instance

instance grow {step : α → Parser α} [h : Leads K b b p] [r : ∀ a, Leads K b b (step a)] :
    Leads K b b (Parser.grow p step) :=
  ⟨fun i => (h.yields i).grow fun a j hj => ((r a).yields j).mono fun _ _ hk => hj.trans hk⟩

instance ite {P : Prop} [Decidable P] [h : Leads K b e p] [r : Leads K b e q] :
    Leads K b e (if P then p else q) := by
  split
  · exact h
  · exact r

instance ident : Leads K b b Parser.ident := by
  unfold Parser.ident
  infer_instance

instance nameExpr {ctx : Context} : Leads K b b (Parser.nameExpr ctx) :=
  bind (r := fun ⟨_, _⟩ => pure)

end Leads

/-! ## Reading something -/

namespace Takes

theorem accept {f : Token → Option α} (h : Leads K b e (Parser.accept f)) :
    Takes K b e (Parser.accept f) :=
  ⟨fun i => (h.yields i).and (.accept fun _ _ _ _ => Nat.lt_succ_self i)⟩

instance sym {m : Punct} [h : Leads K b e (Parser.sym m)] : Takes K b e (Parser.sym m) := accept h

instance kw {k : Keyword} : Takes K b b (Parser.kw k) := accept Leads.kw

instance name : Takes K b b Parser.name := accept Leads.name

instance bind_left [h : Takes K b c p] [r : ∀ a, Leads K c e (f a)] : Takes K b e (p >>= f) :=
  ⟨fun i => (h.yields i).bind fun a j hj => ((r a).yields j).mono fun _ _ hk =>
    ⟨hj.1.trans hk, Nat.lt_of_lt_of_le hj.2 hk.le⟩⟩

instance bind_right [h : Leads K b c p] [r : ∀ a, Takes K c e (f a)] : Takes K b e (p >>= f) :=
  ⟨fun i => (h.yields i).bind fun a j hj => ((r a).yields j).mono fun _ _ hk =>
    ⟨hj.trans hk.1, Nat.lt_of_le_of_lt hj.le hk.2⟩⟩

instance orElse [h : Takes K b e p] [r : Takes K b e q] : Takes K b e (p <|> q) :=
  ⟨fun i => (h.yields i).orElse (r.yields i)⟩

instance rule [h : Takes K b e p] : Takes K b e (Parser.rule p) := ⟨fun i => (h.yields i).rule⟩

instance commit [h : Takes K b e p] : Takes K b e (Parser.commit p) :=
  ⟨fun i => (h.yields i).commit⟩

instance diagnose : Takes K b b (Parser.diagnose p) := ⟨fun _ => .diagnose⟩

instance many1 [Takes K b b p] [Leads K b b p] : Takes K b b (Parser.many1 p) := by
  unfold Parser.many1
  infer_instance

instance sepBy1 {sep : Parser β} [Takes K b b p] [Leads K b b p] [Leads K b b sep] :
    Takes K b b (Parser.sepBy1 p sep) := by
  unfold Parser.sepBy1
  infer_instance

instance ident : Takes K b b Parser.ident := by
  unfold Parser.ident
  infer_instance

end Takes

/-! ## Nonterminals -/

section Nonterminals

variable {g : Engine} [hg : Meets K g]

theorem leads_call {n : Nonterminal} (hn : n ≠ .file)
    (h : ∀ i v j, K.holds n i v j → K.Spans 0 0 i j) : Leads K b b (g.call n) :=
  ⟨fun i => (hg.call n hn i).mono fun v j hv =>
    ⟨(h i v j hv).le, by have := (h i v j hv).level; omega, (h i v j hv).plain⟩⟩

namespace Leads

instance expression : Leads K b b (g.call .expression) := leads_call nofun fun _ _ _ h => h.1

instance starExpression : Leads K b b (g.call .starExpression) :=
  leads_call nofun fun _ _ _ h => h.1

instance disjunction : Leads K b b (g.call .disjunction) := leads_call nofun fun _ _ _ h => h.1

instance conjunction : Leads K b b (g.call .conjunction) := leads_call nofun fun _ _ _ h => h.1

instance inversion : Leads K b b (g.call .inversion) := leads_call nofun fun _ _ _ h => h.1

instance bitwiseOr : Leads K b b (g.call .bitwiseOr) := leads_call nofun fun _ _ _ h => h.1

instance bitwiseXor : Leads K b b (g.call .bitwiseXor) := leads_call nofun fun _ _ _ h => h.1

instance bitwiseAnd : Leads K b b (g.call .bitwiseAnd) := leads_call nofun fun _ _ _ h => h.1

instance shift : Leads K b b (g.call .shift) := leads_call nofun fun _ _ _ h => h.1

instance sum : Leads K b b (g.call .sum) := leads_call nofun fun _ _ _ h => h.1

instance term : Leads K b b (g.call .term) := leads_call nofun fun _ _ _ h => h.1

instance factor : Leads K b b (g.call .factor) := leads_call nofun fun _ _ _ h => h.1

instance awaitPrimary : Leads K b b (g.call .awaitPrimary) := leads_call nofun fun _ _ _ h => h.1

instance primary : Leads K b b (g.call .primary) := leads_call nofun fun _ _ _ h => h.1

instance strings : Leads K b b (g.call .strings) := leads_call nofun fun _ _ _ h => h.1

instance arguments : Leads K b b (g.call .arguments) := leads_call nofun fun _ _ _ h => h

instance starTarget : Leads K b b (g.call .starTarget) := leads_call nofun fun _ _ _ h => h

instance unparenthesizedTarget : Leads K b b (g.call .unparenthesizedTarget) :=
  leads_call nofun fun _ _ _ h => h

instance targetPrimary : Leads K b b (g.call .targetPrimary) := leads_call nofun fun _ _ _ h => h

instance deleteTarget : Leads K b b (g.call .deleteTarget) := leads_call nofun fun _ _ _ h => h

instance singleTarget : Leads K b b (g.call .singleTarget) := leads_call nofun fun _ _ _ h => h

instance annotationTarget : Leads K b b (g.call .annotationTarget) :=
  leads_call nofun fun _ _ _ h => h

instance closedPattern : Leads K b b (g.call .closedPattern) := leads_call nofun fun _ _ _ h => h

instance starPattern : Leads K b b (g.call .starPattern) := leads_call nofun fun _ _ _ h => h

instance attributePath : Leads K b b (g.call .attributePath) := leads_call nofun fun _ _ _ h => h

instance dottedName : Leads K b b (g.call .dottedName) := leads_call nofun fun _ _ _ h => h

end Leads

instance Takes.expression : Takes K 0 0 (g.call .expression) :=
  ⟨fun i => (hg.call .expression nofun i).mono fun _ _ h => ⟨h.1, h.2.lt⟩⟩

instance Takes.starExpression : Takes K 0 0 (g.call .starExpression) :=
  ⟨fun i => (hg.call .starExpression nofun i).mono fun _ _ h => ⟨h.1, h.2.lt⟩⟩

instance Takes.disjunction : Takes K 0 0 (g.call .disjunction) :=
  ⟨fun i => (hg.call .disjunction nofun i).mono fun _ _ h => ⟨h.1, h.2.lt⟩⟩

end Nonterminals

end Contract

end NotebookSlice.Syntax
