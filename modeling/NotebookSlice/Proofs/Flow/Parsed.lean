import NotebookSlice.Proofs.Flow.Definitions
import NotebookSlice.Proofs.Syntax.Program

/-! # The lines of parsed programs

The statements of a program lie on its tokens, with nested positions: there is no line
of a token that no unit has, unless a backslash joins it to another line.
-/

namespace NotebookSlice.Flow

open Syntax Grammar Contract
open Text (Joined)

variable {c : Configuration} {lines : List String} {l : Lexed} {g : Engine} {i j k : ℕ} {t : Token}

/-! ## Rows of statements -/

theorem isWhole_of_isSimple {s : Stmt} (h : s.isSimple = true) : isWhole s = true := by
  cases s <;> first | rfl | cases h

theorem firstLine_of_isSimple {s : Stmt} (h : s.isSimple = true) : firstLine s = s.span.first := by
  cases s <;> first | rfl | cases h

/-- Statements without blocks on the tokens from `i` to `j`. If no bracket is open before them,
every line of a token is one of a unit or is joined to another line. -/
structure Row (c : Configuration) (lines : List String) (l : Lexed) (i : ℕ) (ss : List Stmt)
    (j : ℕ) : Prop where
  spans : (onText c lines l).Spans 0 0 i j
  first : ∃ t, l.tokens[i]? = some t ∧ t.isLayout = false ∧ blockFirst ss = t.line
  last : ∃ k t, i ≤ k ∧ k < j ∧ l.tokens[k]? = some t ∧ t.isLayout = false ∧
    t.lastLine = blockLast ss
  shown : (onText c lines l).level i = 0 → ∀ k t n, i ≤ k → k < j → l.tokens[k]? = some t →
    t.line ≤ n → n ≤ t.lastLine → ¬ Joined lines n → ShowsIn c lines ss n
  placed : ∀ s ∈ ss, Throughout Placed s
  follow : Follow ss

namespace Row

variable {ss ts : List Stmt}

theorem of_simple (hl : Laid l lines) {s : Stmt} (h : (onText c lines l).Simple i s j) :
    Row c lines l i [s] j := by
  obtain ⟨hspans, hlt, hsimple, t, ht, hplain, hspan⟩ := h
  have hfirst : firstLine s = t.line := by rw [firstLine_of_isSimple hsimple, hspan]
  have hwhole := isWhole_of_isSimple hsimple
  refine ⟨hspans, ⟨t, ht, hplain, hfirst⟩, ?_, fun _ k u n hik hkj hu hn hn' _ =>
    ⟨s, List.mem_singleton_self s, shows_whole hwhole ?_ ?_⟩,
    List.forall_mem_singleton.mpr (placed_of_isWhole hwhole ?_), List.isChain_singleton s⟩
  · obtain ⟨k, u, hik, hkj, hu, huplain, hlast, -⟩ := exists_lastLineFrom ht hplain hlt t.line
    exact ⟨k, u, hik, hkj, hu, huplain, hlast.trans (congrArg Span.last hspan).symm⟩
  · rw [hfirst]
    exact Nat.le_trans (hl.line_le hik ht hu) hn
  · rw [hspan]
    exact Nat.le_trans hn' (le_lastLineFrom hl ht hplain t.line hkj hu
      (hspans.plain k u hik hkj hu) hlt)
  · rw [hspan]
    exact le_blockSpan hl ht hplain hlt

theorem level_eq (h : Row c lines l i ss j) :
    (onText c lines l).level j = (onText c lines l).level i := by simpa using h.spans.level

theorem semi (hl : Laid l lines) (h : Row c lines l i ss j) (ht : l.tokens[j]? = some t)
    (hkind : t.kind = .punct .semi) : Row c lines l i ss (j + 1) := by
  have hplain : t.isLayout = false := by rw [Token.isLayout_eq, hkind]; rfl
  have hsemi : (onText c lines l).Spans 0 0 j (j + 1) :=
    .succ ht hplain (by rw [hkind]; rfl)
  obtain ⟨k, u, hik, hkj, hu⟩ := h.last
  refine ⟨h.spans.trans hsemi, h.first, ⟨k, u, hik, Nat.lt_succ_of_lt hkj, hu⟩,
    fun hlevel m v n him hmj hv hn hn' hjoin => ?_, h.placed, h.follow⟩
  rcases Nat.eq_or_lt_of_le (Nat.le_of_lt_succ hmj) with rfl | hlt
  · obtain rfl := Option.some.inj (hv.symm.trans ht)
    obtain ⟨p, rfl⟩ := Nat.exists_eq_add_one_of_ne_zero (Nat.ne_zero_of_lt hkj)
    obtain ⟨w, hw⟩ : ∃ w, l.tokens[p]? = some w := by
      obtain ⟨hlt, -⟩ := Array.getElem?_eq_some_iff.mp hv
      exact ⟨_, Array.getElem?_eq_getElem (show p < l.tokens.size by omega)⟩
    have hwplain := h.spans.plain p w (Nat.le_trans hik (Nat.le_of_lt_succ hkj))
      (Nat.lt_succ_self p) hw
    have hdepth : w.depth = 0 := by
      have : (w.depth : ℤ) = (onText c lines l).level (p + 1) := hl.depth hw
      have := h.level_eq
      omega
    have hmark := hl.mark hv (.inl ⟨.semi, hkind⟩)
    have hone : n = v.line := by omega
    rcases hl.adjoins hw hv hwplain hplain hdepth with hline | hjoined
    · exact h.shown hlevel p w n (Nat.le_trans hik (Nat.le_of_lt_succ hkj)) (Nat.lt_succ_self p) hw
        (by have := hl.le hw; omega) (by omega) hjoin
    · exact absurd (hone ▸ hjoined) hjoin
  · exact h.shown hlevel m v n him hlt hv hn hn' hjoin

theorem append (hl : Laid l lines) (hne : ss ≠ []) (hne' : ts ≠ []) (h : Row c lines l i ss j)
    (h' : Row c lines l j ts k) : Row c lines l i (ss ++ ts) k := by
  refine ⟨h.spans.trans h'.spans, ?_, ?_, fun hlevel m t n him hmk ht hn hn' hjoin => ?_,
    List.forall_mem_append.mpr ⟨h.placed, h'.placed⟩, h.follow.append h'.follow ?_⟩
  · obtain ⟨t, ht, hplain, hfirst⟩ := h.first
    obtain ⟨s, ss, rfl⟩ := List.exists_cons_of_ne_nil hne
    exact ⟨t, ht, hplain, hfirst⟩
  · obtain ⟨m, t, hjm, hmk, ht, hplain, hlast⟩ := h'.last
    refine ⟨m, t, Nat.le_trans h.spans.le hjm, hmk, ht, hplain, ?_⟩
    rw [hlast, blockLast, blockLast, List.getLast?_append_of_ne_nil _ hne']
  · rcases Nat.lt_or_ge m j with hlt | hge
    · obtain ⟨s, hs, hn⟩ := h.shown hlevel m t n him hlt ht hn hn' hjoin
      exact ⟨s, List.mem_append_left _ hs, hn⟩
    · obtain ⟨s, hs, hn⟩ := h'.shown (h.level_eq.trans hlevel) m t n hge hmk ht hn hn' hjoin
      exact ⟨s, List.mem_append_right _ hs, hn⟩
  · obtain ⟨m, u, -, hmj, hu, -, hlast⟩ := h.last
    obtain ⟨t, ht, -, hfirst⟩ := h'.first
    rw [← hlast, hfirst]
    exact (hl.precedes hmj hu ht).le

theorem lies (hl : Laid l lines) (h : Row c lines l i ss j) (ht : l.tokens[j]? = some t)
    (hkind : t.kind = .newline) : Lies c lines l i ss (j + 1) := by
  have hlayout : t.isLayout = true := by rw [Token.isLayout_eq, hkind]; rfl
  have hlevel : (onText c lines l).level i = 0 := by
    have hdepth : (t.depth : ℤ) = (onText c lines l).level (j + 1) := hl.depth ht
    rw [hl.newline ht hkind, level_succ ht, hkind] at hdepth
    have := h.level_eq
    simp only [Token.Kind.turn] at hdepth
    omega
  obtain ⟨k, u, hik, hkj, hu⟩ := h.last
  refine ⟨h.first, ⟨⟨k, u, hik, Nat.lt_succ_of_lt hkj, hu⟩,
    ⟨j, t, Nat.le_trans hik hkj.le, Nat.lt_succ_self j, ht, hkind, fun m _ hjm hmj =>
      absurd hjm (by omega)⟩, fun m v n him hmj hv hvplain hn hn' hjoin => ?_⟩, h.placed, h.follow⟩
  rcases Nat.eq_or_lt_of_le (Nat.le_of_lt_succ hmj) with rfl | hlt
  · rw [Option.some.inj (hv.symm.trans ht), hlayout] at hvplain
    cases hvplain
  · exact h.shown hlevel m v n him hlt hv hn hn' hjoin

end Row

theorem Lies.fresh {ss : List Stmt} (h : Lies c lines l i ss j) : Fresh l j :=
  fun _ _ ht => h.written.isLayout_pred ht

namespace OnText

variable [hg : Meets (onText c lines l) g] (hl : Laid l lines)
include hl

theorem simpleStatement : (onText c lines l).Yields i (g.call .simpleStatement) fun s j =>
    Row c lines l i [s.val] j :=
  (hg.call .simpleStatement (by cases ·) i).mono fun _ _ h => .of_simple hl h

theorem simpleStatements : (onText c lines l).Yields i (simpleStatements g) fun suite j =>
    Lies c lines l i suite.statements j := by
  refine Yields.rule (.orElse ?_ ?_)
  · refine (simpleStatement hl).bind fun s j hs => ?_
    refine (Yields.notFollowedBy Yields.sym).bind ?_
    rintro _ _ rfl
    refine Yields.kind.bind ?_
    rintro t _ ⟨rfl, ht, hkind⟩
    exact .pure (hs.lies hl ht hkind)
  · refine (simpleStatement hl).bind fun first i₁ hfirst => ?_
    refine (Yields.many (I := fun more j => Row c lines l i (first.val :: more.map Subtype.val) j)
      hfirst fun more j hmore => Yields.sym.bind ?_).bind fun more j hmore => ?_
    · rintro t _ ⟨rfl, ht, hkind⟩
      refine (simpleStatement hl).mono fun s k hs => ?_
      have := (hmore.semi hl ht hkind).append hl (List.cons_ne_nil _ _) (List.cons_ne_nil _ _) hs
      simpa using this
    · refine (Yields.sym.opt (Q := fun (t : Token) k => k = j + 1 ∧ l.tokens[j]? = some t ∧
        t.kind = .punct .semi)).bind fun last k hlast => Yields.kind.bind ?_
      rintro t _ ⟨rfl, ht, hkind⟩
      rcases hlast with ⟨-, rfl⟩ | ⟨u, -, rfl, hu, hsemi⟩
      · exact .pure (hmore.lies hl ht hkind)
      · exact .pure ((hmore.semi hl hu hsemi).lies hl ht hkind)

/-! ## Statements -/

omit hl hg in
theorem looked {α β : Type} {K : Contract} {p : Parser α} {q : Parser β} {Q : β → ℕ → Prop}
    [h : Keeps K p] (hq : K.Yields i q Q) : K.Yields i (Parser.followedBy p >>= fun _ => q) Q :=
  (h.yields i).followedBy.bind fun _ _ hj => hj ▸ hq

theorem compoundStatement : (onText c lines l).Yields i (compoundStatement g) fun s j =>
    Lies c lines l i [s.val] j :=
  Yields.rule <| (looked (functionDef hl .nil)).orElse <| (looked (ifStatement hl .if)).orElse <|
    (looked (classDef hl .nil)).orElse <| (looked (withStatement hl)).orElse <|
    (looked (forStatement hl)).orElse <| (looked (tryStatement hl)).orElse <|
    (looked (whileStatement hl)).orElse <| matchStatement hl

variable (hplaced : decoratorsInLine true l.tokens.toList = true)
include hplaced

theorem statement (hfresh : Fresh l i) : (onText c lines l).Yields i (statement g) fun suite j =>
    Lies c lines l i suite.statements j := by
  refine Yields.rule (.orElse ?_ (.orElse ?_ (simpleStatements hl)))
  · exact (decorated hl hplaced hfresh).bind fun s j hs => .pure hs
  · exact (compoundStatement hl).bind fun s j hs => .pure hs

theorem statements (hfresh : Fresh l i) :
    (onText c lines l).Yields i (statements g) fun suite j =>
      Lies c lines l i suite.statements j := by
  refine (statement hl hplaced hfresh).bind fun first i₁ hfirst => ?_
  refine (Yields.many (I := fun more j =>
    Lies c lines l i (first.statements ++ more.flatMap Suite.statements) j) (by simpa using hfirst)
      fun more j hmore => (statement hl hplaced hmore.fresh).mono fun suite k hsuite => ?_).bind
        fun more j hmore => .pure hmore
  have := hmore.append hl hsuite
  simpa using this

theorem blockBody : (onText c lines l).Yields i (blockBody g) fun suite j =>
    BlockLies c lines l i suite.statements j := by
  refine Yields.orElse ?_ (.orElse ?_ .diagnose)
  · refine (indented (Q := fun suite j => BlockLies c lines l i suite.statements j)
      fun t u ht hkind hu hindent => ?_).mono ?_
    · have ht' : t.isLayout = true := by rw [Token.isLayout_eq, hkind]; rfl
      have hu' : u.isLayout = true := by rw [Token.isLayout_eq, hindent]; rfl
      refine (statements hl hplaced fun v _ hv => ?_).mono fun suite j h =>
        ⟨i + 2, Nat.le_add_right i 2, fun m v him hmi hv => ?_, h⟩
      · rwa [Option.some.inj (hv.symm.trans hu)]
      · obtain rfl | rfl : m = i ∨ m = i + 1 := by omega
        · rwa [Option.some.inj (hv.symm.trans ht)]
        · rwa [Option.some.inj (hv.symm.trans hu)]
    · rintro suite _ ⟨j, t, hsuite, rfl, ht, hkind⟩
      refine hsuite.layout (Nat.le_succ j) fun m v hjm hmj hv => ?_
      obtain rfl : m = j := by omega
      obtain rfl := Option.some.inj (hv.symm.trans ht)
      rw [Token.isLayout_eq, hkind]
      rfl
  · exact (simpleStatements hl).mono fun suite j h => h.block

theorem fileBody : (onText c lines l).Yields 0 (fileBody g) fun ss j =>
    ∃ k t, j = k + 1 ∧ l.tokens[k]? = some t ∧ t.kind = .endmarker ∧
      (ss.val = [] ∨ Lies c lines l 0 ss.val k) := by
  have hfresh : Fresh l 0 := fun _ h => absurd h (Nat.lt_irrefl 0)
  refine (Yields.many (I := fun suites j => suites = [] ∧ j = 0 ∨
    Lies c lines l 0 (suites.flatMap Suite.statements) j) (.inl ⟨rfl, rfl⟩)
      fun suites j hsuites => ?_).bind fun suites j hsuites => Yields.kind.bind ?_
  · rcases hsuites with ⟨rfl, rfl⟩ | hsuites
    · exact (statement hl hplaced hfresh).mono fun suite k hsuite => .inr (by simpa using hsuite)
    · refine (statement hl hplaced hsuites.fresh).mono fun suite k hsuite => .inr ?_
      have := hsuites.append hl hsuite
      simpa using this
  · rintro t _ ⟨rfl, ht, hkind⟩
    refine .pure ⟨j, t, rfl, ht, hkind, hsuites.imp_left ?_⟩
    rintro ⟨rfl, -⟩
    rfl

/-! ## The grammar as a whole -/

omit hl hplaced hg in
theorem opens {K : Contract} {p : Parser Expr} [h : Leads K 0 0 p] [r : Begins K p] :
    K.Yields i p fun e j => K.Spans 0 0 i j ∧ K.Opens i e j := (h.yields i).and (r.yields i)

theorem production (n : Nonterminal) (hn : n ≠ .file) :
    (onText c lines l).Yields i (production g n) ((onText c lines l).holds n i) := by
  cases n with
  | file => exact absurd rfl hn
  | replacement => exact Leads.starExpressions.yields i
  | simpleStatement => exact simpleStatementBody
  | block => exact blockBody hl hplaced
  | elifClause => exact (ifStatement hl .elif).bind fun s j hs => .pure hs
  | expression | starExpression | disjunction | conjunction | inversion | bitwiseOr | bitwiseXor
  | bitwiseAnd | shift | sum | term | factor | awaitPrimary | primary | strings =>
    unfold Syntax.production
    exact opens
  | arguments => exact Leads.argumentsBody.yields i
  | misplacedAssignment => exact Leads.misplacedAssignment.yields i
  | starTarget => exact Leads.starTargetBody.yields i
  | unparenthesizedTarget => exact Leads.unparenthesizedTargetBody.yields i
  | targetPrimary => exact Leads.targetPrimaryBody.yields i
  | deleteTarget => exact Leads.deleteTargetBody.yields i
  | singleTarget => exact Leads.singleTargetBody.yields i
  | annotationTarget => exact Leads.annotationTargetBody.yields i
  | closedPattern => exact Leads.closedPatternBody.yields i
  | starPattern => exact Leads.starPatternBody.yields i
  | attributePath => exact Leads.attributePathBody.yields i
  | dottedName => exact Leads.dottedNameBody.yields i

omit hg in
theorem meets_engine (depth : ℕ) : Meets (onText c lines l) (engine depth) := by
  induction depth with
  | zero => exact ⟨fun _ _ _ => .exhausted⟩
  | succ depth ih => exact ⟨fun n hn i => (production hl hplaced n hn).remember⟩

end OnText

/-- Parsed statements lie on the tokens of their text, which may be a part of whole lines of a
longer one. -/
theorem lies_of_parse {firstLine : ℕ} {text : String} {ss : List Stmt} (hfirst : 1 ≤ firstLine)
    (hreturn : Text.ReturnsEndLines text.toList)
    (hpart : Text.lines text <+: lines.drop (firstLine - 1))
    (hplaced : decoratorsInLine true (lex firstLine text.toList).tokens.toList = true)
    (hparse : parse firstLine text.toList = .ok ss) (hne : ss ≠ []) :
    ∃ k t, Lies c lines (lex firstLine text.toList) 0 ss k ∧
      (lex firstLine text.toList).tokens[k]? = some t ∧ t.kind = .endmarker := by
  have hl := laid_lex hfirst hreturn hpart (fault_eq_none_of_parse hparse)
  obtain ⟨depth, legal, j, m, -, rfl, hbody⟩ := exists_fileBody_of_parse hparse
  have := OnText.meets_engine (c := c) hl hplaced depth
  obtain ⟨k, t, -, ht, hkind, hlies⟩ := (OnText.fileBody (c := c) hl hplaced).of_ok
    (Sound.empty (lex firstLine text.toList).tokens.size) hbody
  exact ⟨k, t, hlies.resolve_left hne, ht, hkind⟩

theorem walkAll_ne_nil {ss : List Stmt} {next : ℕ} {source : Option (List String)} (hne : ss ≠ []) :
    walkAll c source ss next ≠ [] := by
  obtain ⟨s, ss, rfl⟩ := List.exists_cons_of_ne_nil hne
  cases s <;> simp [walkAll, walk]

section Units

variable {firstLine : ℕ} {text : String} {ss : List Stmt} (hfirst : 1 ≤ firstLine)
  (hreturn : Text.ReturnsEndLines text.toList)
  (hpart : Text.lines text <+: lines.drop (firstLine - 1))
  (hplaced : decoratorsInLine true (lex firstLine text.toList).tokens.toList = true)
  (hparse : parse firstLine text.toList = .ok ss) (hne : ss ≠ [])
include hfirst hreturn hpart hplaced hparse hne

/-- A line of a token is one of a unit, or is joined to another line. -/
theorem showsLine_of_parse (ht : t ∈ (lex firstLine text.toList).tokens.toList)
    (hplain : t.isLayout = false) {n : ℕ} (hline : t.line ≤ n) (hlast : n ≤ t.lastLine)
    (hjoin : ¬ Joined lines n) (next : ℕ) : ShowsLine (walkAll c (some lines) ss next) n := by
  obtain ⟨k, u, hlies, hu, hend⟩ := lies_of_parse (c := c) hfirst hreturn hpart hplaced hparse hne
  have hl := laid_lex hfirst hreturn hpart (fault_eq_none_of_parse hparse)
  obtain ⟨i, hi⟩ := List.getElem?_of_mem ht
  rw [Array.getElem?_toList] at hi
  have hik : i < k := by
    rcases Nat.lt_trichotomy i k with hlt | rfl | hgt
    · exact hlt
    · rw [Token.isLayout, Option.some.inj (hi.symm.trans hu), hend] at hplain
      cases hplain
    · rw [hl.endmarker hu hend hgt] at hi
      cases hi
  exact (hlies.written.shown i t n (Nat.zero_le i) hik hi hplain hline hlast hjoin).walkAll next

/-- The units lie on the lines of the text, and none ends after the last line of a token. -/
theorem within_of_parse : ∃ t ∈ (lex firstLine text.toList).tokens.toList, t.isLayout = false ∧
    t.line ≤ t.lastLine ∧ t.lastLine < firstLine + (Text.lines text).length ∧
    ∀ next, ∀ u ∈ walkAll c (some lines) ss next, firstLine ≤ u.first ∧ u.last ≤ t.lastLine := by
  have hfault := fault_eq_none_of_parse hparse
  have hl := laid_lex hfirst hreturn hpart hfault
  obtain ⟨k, -, hlies, -⟩ := lies_of_parse (c := c) hfirst hreturn hpart hplaced hparse hne
  obtain ⟨t, ht, hplain, heq⟩ := hlies.first
  obtain ⟨i, u, -, -, hu, huplain, hlast⟩ := hlies.written.last
  have hmem {j : ℕ} {v : Token} (hv : (lex firstLine text.toList).tokens[j]? = some v) :
      v ∈ (lex firstLine text.toList).tokens.toList :=
    List.mem_of_getElem? (Array.getElem?_toList.trans hv)
  refine ⟨u, hmem hu, huplain, hl.le hu,
    (line_bounds_of_lex hfirst hreturn hfault (hmem hu) huplain).2, fun next w hw => ?_⟩
  obtain ⟨hle, -, hle'⟩ :=
    (ordered_walkAll c (some lines) hne hlies.placed hlies.follow next).within w hw
  exact ⟨Nat.le_trans (line_bounds_of_lex hfirst hreturn hfault (hmem ht) hplain).1 (heq ▸ hle),
    hlast ▸ hle'⟩

end Units

/-- Parsed code has nested positions. -/
theorem placed_of_parse {firstLine : ℕ} {text : String} {ss : List Stmt} (hfirst : 1 ≤ firstLine)
    (hreturn : Text.ReturnsEndLines text.toList)
    (hplaced : decoratorsInLine true (lex firstLine text.toList).tokens.toList = true)
    (hparse : parse firstLine text.toList = .ok ss) :
    (∀ s ∈ ss, Throughout Placed s) ∧ Follow ss := by
  rcases eq_or_ne ss [] with rfl | hne
  · exact ⟨List.forall_mem_nil _, .nil⟩
  · have hpart : Text.lines text <+:
        (List.replicate (firstLine - 1) "" ++ Text.lines text).drop (firstLine - 1) := by simp
    obtain ⟨k, t, hlies, -⟩ := lies_of_parse (c := .empty) hfirst hreturn hpart hplaced hparse hne
    exact ⟨hlies.placed, hlies.follow⟩

end NotebookSlice.Flow
