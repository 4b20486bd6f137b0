import NotebookSlice.Proofs.Flow.Lies
import NotebookSlice.Proofs.Syntax.Extent.Simple

/-! # Parsed statements on their tokens

Every rule of the grammar for statements puts its statements on the tokens it
reads, if each decorator begins on the line of its `@`.
-/

namespace NotebookSlice.Flow

open Syntax Grammar Contract

def onText (c : Configuration) (lines : List String) (l : Lexed) : Contract :=
  ⟨l, BlockLies c lines l, Lies c lines l⟩

variable {c : Configuration} {lines : List String} {l : Lexed} {g : Engine} {i : ℕ}

namespace OnText

variable [hg : Meets (onText c lines l) g]

/-! ## Blocks -/

theorem force {K : Contract} {mark : Punct} : K.Yields i (force mark) fun _ j => j = i + 1 ∧
    ∃ t, K.lexed.tokens[i]? = some t ∧ t.kind = .punct mark := by
  refine Yields.orElse (Yields.sym.bind ?_) (Yields.peek.bind fun _ _ _ => .raiseAt)
  rintro t _ ⟨rfl, ht⟩
  exact .pure ⟨rfl, t, ht⟩

theorem block : (onText c lines l).Yields i (Grammar.block g) fun suite j =>
    BlockLies c lines l i suite.statements j := hg.call .block nofun i

theorem colonBlock : (onText c lines l).Yields i (colonBlock g) fun suite j =>
    BlockLies c lines l (i + 1) suite.statements j := by
  refine Yields.sym.bind ?_
  rintro t _ ⟨rfl, -⟩
  exact block

theorem clauseBlock (w : Keyword) : (onText c lines l).Yields i (do
      let _ ← Parser.kw w
      Grammar.force .colon
      Grammar.block g) fun suite j => Follows c lines l w i suite.statements j := by
  refine Yields.kw.bind ?_
  rintro t _ ⟨rfl, ht, hkind⟩
  refine force.bind ?_
  rintro _ _ ⟨rfl, u, hu, hcolon⟩
  exact block.mono fun suite j hj => .clause ht hkind hu hcolon hj

theorem elseBlock : (onText c lines l).Yields i (elseBlock g) fun suite j =>
    Follows c lines l .else i suite.statements j :=
  Yields.rule (Yields.diagnose.orElse (clauseBlock .else))

theorem finallyBlock : (onText c lines l).Yields i (finallyBlock g) fun suite j =>
    Follows c lines l .finally i suite.statements j :=
  Yields.rule (Yields.diagnose.orElse (clauseBlock .finally))

theorem optional {K : Contract} {p : Parser Suite} {w : Keyword}
    (h : K.Yields i p fun suite j => Follows c lines l w i suite.statements j) :
    K.Yields i (Parser.opt p) fun suite j =>
      Follows c lines l w i (Suite.optional suite).val j := by
  refine h.opt.mono fun suite j hj => ?_
  rcases hj with ⟨rfl, rfl⟩ | ⟨suite, rfl, hj⟩
  · exact .nothing
  · exact hj

variable {α : Type} {t : Token}

theorem fromStart {K : Contract} {f : Parser.Mark → Parser α} {Q : α → ℕ → Prop}
    (h : ∀ t, K.lexed.tokens[i]? = some t → t.isLayout = false → K.Yields i (f ⟨t.line, i⟩) Q) :
    K.Yields i (Parser.rule (Parser.startHere >>= f)) Q := by
  refine Yields.rule (Yields.startHere.bind ?_)
  rintro start _ ⟨rfl, t, ht, hplain, rfl⟩
  exact h t ht hplain

theorem done {K : Contract} {f : Span → α} {start : Parser.Mark} {Q : α → ℕ → Prop}
    (h : Q (f ⟨start.line, Parser.lastLineFrom K.lexed.tokens start i⟩) i) :
    K.Yields i (Parser.spanFrom start >>= fun span => pure (f span)) Q := by
  refine Yields.spanFrom.bind ?_
  rintro span _ ⟨rfl, rfl⟩
  exact .pure h

instance leadsCondition {K : Contract} [Meets K g] {k : Keyword} : Leads K 0 0 (condition g k) := by
  unfold condition
  infer_instance

instance leadsWithItem {K : Contract} {b : ℕ} [Meets K g] : Leads K b b (withItem g) := by
  unfold withItem
  infer_instance

theorem elifClause : (onText c lines l).Yields i (g.call .elifClause) fun suite j =>
    Follows c lines l .else i suite.statements j :=
  (hg.call .elifClause nofun i).mono fun _ _ h => .directly h

variable (hl : Laid l lines)
include hl

/-! ## Conditions, loops and contexts -/

theorem ifStatement (k : Keyword) : (onText c lines l).Yields i (ifStatement g k) fun s j =>
    Lies c lines l i [s.val] j := by
  refine fromStart fun t ht hplain => Yields.diagnose.orElse ?_
  refine (leadsCondition.yields i).bind fun test i₁ hi₁ => colonBlock.bind fun body i₂ hbody => ?_
  refine (optional (elifClause.orElse elseBlock)).bind fun orelse i₃ horelse => done ?_
  exact .of_else hl ht hplain rfl rfl rfl rfl rfl (Nat.le_succ_of_le hi₁.le) hbody horelse
    fun n hn => shows_if hn

theorem whileStatement : (onText c lines l).Yields i (whileStatement g) fun s j =>
    Lies c lines l i [s.val] j := by
  refine fromStart fun t ht hplain => Yields.diagnose.orElse ?_
  refine (leadsCondition.yields i).bind fun test i₁ hi₁ => colonBlock.bind fun body i₂ hbody => ?_
  refine (optional elseBlock).bind fun orelse i₃ horelse => done ?_
  exact .of_else hl ht hplain rfl rfl rfl rfl rfl (Nat.le_succ_of_le hi₁.le) hbody horelse
    fun n hn => shows_while hn

section

variable {j : ℕ} (hle : i ≤ j) (ht : l.tokens[i]? = some t) (hplain : t.isLayout = false)
include hle ht hplain

theorem loopRest {async : Bool} : (onText c lines l).Yields j (loopRest g ⟨t.line, i⟩ async)
    fun s j => Lies c lines l i [s.val] j := by
  refine (Leads.kw (b := 0).yields j).bind fun _ j₁ hj₁ => ?_
  refine (Leads.starTargets (b := 0).yields j₁).bind fun target j₂ hj₂ => ?_
  refine (Leads.kw (b := 0).yields j₂).bind fun _ j₃ hj₃ => Yields.commit ?_
  refine (Leads.starExpressions (b := 0).yields j₃).bind fun iter j₄ hj₄ => ?_
  refine colonBlock.bind fun body j₅ hbody => ?_
  refine (optional elseBlock).bind fun orelse j₆ horelse => done ?_
  have := (hj₁.trans (hj₂.trans (hj₃.trans hj₄))).le
  exact .of_else hl ht hplain rfl rfl rfl rfl rfl (show i ≤ j₄ + 1 by omega) hbody horelse
    fun n hn => shows_for hn

theorem withRest {async : Bool} : (onText c lines l).Yields j (withRest g ⟨t.line, i⟩ async)
    fun s j => Lies c lines l i [s.val] j := by
  refine (Leads.kw (b := 0).yields j).bind fun _ j₁ hj₁ => ?_
  refine (Leads.sepBy1 (b := 0).yields j₁).bind fun items j₂ hj₂ => ?_
  refine colonBlock.bind fun body j₃ hbody => done ?_
  have := (hj₁.trans hj₂).le
  exact .of_block hl ht hplain rfl rfl rfl rfl rfl (show i ≤ j₂ + 1 by omega) hbody
    fun n hn => shows_with hn

theorem withInBrackets {async : Bool} :
    (onText c lines l).Yields j (withInBrackets g ⟨t.line, i⟩ async)
      fun s j => Lies c lines l i [s.val] j := by
  refine (Leads.kw (b := 0).yields j).bind fun _ j₁ hj₁ => ?_
  refine (Leads.lpar (b := 0).yields j₁).bind fun _ j₂ hj₂ => ?_
  refine (Leads.sepBy1 (b := 1).yields j₂).bind fun items j₃ hj₃ => ?_
  refine (Leads.opt (b := 1).yields j₃).bind fun _ j₄ hj₄ => ?_
  refine (Leads.rpar (b := 0).yields j₄).bind fun _ j₅ hj₅ => ?_
  refine colonBlock.bind fun body j₆ hbody => done ?_
  have := (hj₁.trans (hj₂.trans (hj₃.trans (hj₄.trans hj₅)))).le
  exact .of_block hl ht hplain rfl rfl rfl rfl rfl (show i ≤ j₅ + 1 by omega) hbody
    fun n hn => shows_with hn

end

theorem forStatement : (onText c lines l).Yields i (forStatement g) fun s j =>
    Lies c lines l i [s.val] j := by
  refine fromStart fun t ht hplain => Yields.diagnose.orElse ?_
  refine (loopRest hl (Nat.le_refl i) ht hplain).orElse (Yields.orElse ?_ .diagnose)
  exact (Leads.kw (b := 0).yields i).bind fun _ i₁ hi₁ => loopRest hl hi₁.le ht hplain

theorem withStatement : (onText c lines l).Yields i (withStatement g) fun s j =>
    Lies c lines l i [s.val] j := by
  refine fromStart fun t ht hplain => Yields.diagnose.orElse ?_
  refine (withInBrackets hl (Nat.le_refl i) ht hplain).orElse ?_
  refine (withRest hl (Nat.le_refl i) ht hplain).orElse (Yields.orElse ?_ (.orElse ?_ .diagnose))
  · exact (Leads.kw (b := 0).yields i).bind fun _ i₁ hi₁ => withInBrackets hl hi₁.le ht hplain
  · exact (Leads.kw (b := 0).yields i).bind fun _ i₁ hi₁ => withRest hl hi₁.le ht hplain

/-! ## Handlers -/

/-- A handler with its block on the tokens from `i` to `j`. -/
structure HandlerLies (c : Configuration) (lines : List String) (l : Lexed) (i : ℕ) (h : Handler)
    (j : ℕ) : Prop where
  written : Written lines l i j (blockLast h.body) (HandlerShows c lines h)
  first : ∃ t, l.tokens[i]? = some t ∧ t.isLayout = false ∧ h.span.first = t.line
  block : ∃ k, i ≤ k ∧ BlockLies c lines l k h.body j

/-- A guarded block on the tokens from `i` to `j`, with handlers after it. The blocks lie within the
lines of any statement that begins at `i` and does not end before `j`. -/
structure GuardLies (c : Configuration) (lines : List String) (l : Lexed) (i line : ℕ)
    (body : List Stmt) (hs : List Handler) (j : ℕ) : Prop where
  written : Written lines l i j (afterHandlers body hs) fun n =>
    (line ≤ n ∧ n < blockFirst body ∨ ShowsIn c lines body n) ∨
      ∃ h ∈ hs, HandlerShows c lines h n
  filled : body ≠ [] ∧ ∀ h ∈ hs, h.body ≠ []
  inside : ∀ m, j ≤ m → Inside line (Parser.lastLineFrom l.tokens ⟨line, i⟩ m) body
  follow : HandlersFollow (blockLast body) hs
  handlers : ∀ m, j ≤ m → ∀ h ∈ hs,
    Inside h.span.first (Parser.lastLineFrom l.tokens ⟨line, i⟩ m) h.body

section

variable {j k : ℕ} {body orelse final : List Stmt} {hs : List Handler} {h : Handler}
  (ht : l.tokens[i]? = some t) (hplain : t.isLayout = false)
include ht hplain

omit hg in
theorem GuardLies.header (hik : i ≤ k) (hbody : BlockLies c lines l k body j) :
    GuardLies c lines l i t.line body [] j where
  written := (written_header hl ht hik hbody).mono fun _ hn => .inl hn
  filled := ⟨hbody.ne_nil hl, List.forall_mem_nil _⟩
  inside _ hjm := hbody.inside hl ht hplain (Nat.le_refl i) ht hik (Nat.le_refl _) hjm
  follow := trivial
  handlers _ _ := List.forall_mem_nil _

omit hg in
theorem GuardLies.snoc (hguard : GuardLies c lines l i t.line body hs j)
    (hh : HandlerLies c lines l j h k) : GuardLies c lines l i t.line body (hs ++ [h]) k := by
  obtain ⟨u, hu, huplain, hfirst⟩ := hh.first
  obtain ⟨b, hjb, hblock⟩ := hh.block
  have hinside (m : ℕ) (hkm : k ≤ m) : Inside h.span.first
      (Parser.lastLineFrom l.tokens ⟨t.line, i⟩ m) h.body :=
    hblock.inside hl ht hplain hguard.written.lt.le hu hjb hfirst.le hkm
  have hlast : afterHandlers body (hs ++ [h]) = blockLast h.body := by
    rw [afterHandlers, List.foldl_append]
    rfl
  have hle := hh.written.lt.le
  have hne := hblock.ne_nil hl
  refine ⟨hlast ▸ (hguard.written.trans hh.written).mono fun n hn => ?_,
    ⟨hguard.filled.1, List.forall_mem_append.mpr
      ⟨hguard.filled.2, List.forall_mem_singleton.mpr hne⟩⟩,
    fun m hkm => hguard.inside m (Nat.le_trans hle hkm), ?_,
    fun m hkm => List.forall_mem_append.mpr ⟨hguard.handlers m (Nat.le_trans hle hkm),
      List.forall_mem_singleton.mpr (hinside m hkm)⟩⟩
  · rcases hn with (hn | ⟨h', hmem, hn⟩) | hn
    · exact .inl hn
    · exact .inr ⟨h', List.mem_append_left _ hmem, hn⟩
    · exact .inr ⟨h, List.mem_append_right _ (List.mem_singleton_self h), hn⟩
  · exact hguard.follow.snoc (hfirst ▸ hguard.written.lt_line hl hu huplain)
      ((hinside k (Nat.le_refl k)).first_le hne) (hinside k (Nat.le_refl k)).follow

omit hg in
theorem GuardLies.lies {group : Bool} {m n : ℕ} (hguard : GuardLies c lines l i t.line body hs j)
    (horelse : Follows c lines l .else j orelse m) (hfinal : Follows c lines l .finally m final n) :
    Lies c lines l i [.try ⟨t.line, Parser.lastLineFrom l.tokens ⟨t.line, i⟩ n⟩ group body hs orelse
      final] n := by
  have helse := written_follows hl hguard.written (rfl : "else".toList = _) horelse
  have hwritten := written_follows hl helse (rfl : "finally".toList = _) hfinal
  have hjn := Nat.le_trans horelse.le hfinal.le
  refine .of_written ht hplain rfl rfl ?_ hwritten fun n hn => shows_try ?_
  · refine .placed ?_ (le_blockSpan hl ht hplain hwritten.lt) (hguard.inside n hjn) hguard.follow
      (hguard.handlers n hjn) ?_
    · simpa [isFilled, hguard.filled.1] using hguard.filled.2
    · refine List.forall_mem_cons.mpr ⟨horelse.inside hl hguard.written ht hplain hfinal.le,
        List.forall_mem_singleton.mpr ?_⟩
      have := hfinal.inside hl helse ht hplain (Nat.le_refl n)
      simpa [lastOf, Stmt.span] using this
  · rcases hn with ((hn | hn) | hn) | hn
    · exact .inl hn
    · exact .inr (.inl hn)
    · exact .inr (.inr (.inl hn))
    · exact .inr (.inr (.inr hn))

end

theorem handlerRest {j : ℕ} (hle : i ≤ j) (ht : l.tokens[i]? = some t)
    (hplain : t.isLayout = false) : (onText c lines l).Yields j (handlerRest g ⟨t.line, i⟩)
      fun h j => HandlerLies c lines l i h.val j := by
  refine (Leads.expression (b := 0).yields j).bind fun type j₁ hj₁ => ?_
  refine (Leads.asName (b := 0).yields j₁).bind fun id j₂ hj₂ => ?_
  refine colonBlock.bind fun body j₃ hbody => done ?_
  have := (hj₁.trans hj₂).le
  exact ⟨written_header hl ht (show i ≤ j₂ + 1 by omega) hbody, ⟨t, ht, hplain, rfl⟩,
    j₂ + 1, by omega, hbody⟩

theorem handler : (onText c lines l).Yields i (handler g) fun h j =>
    HandlerLies c lines l i h.val j := by
  refine fromStart fun t ht hplain => Yields.diagnose.orElse (.orElse ?_ (.orElse ?_ .diagnose))
  · exact (Leads.kw (b := 0).yields i).bind fun _ i₁ hi₁ => handlerRest hl hi₁.le ht hplain
  · refine (Leads.kw (b := 0).yields i).bind fun _ i₁ hi₁ => ?_
    refine colonBlock.bind fun body i₂ hbody => done ?_
    exact ⟨written_header hl ht (Nat.le_succ_of_le hi₁.le) hbody, ⟨t, ht, hplain, rfl⟩,
      i₁ + 1, Nat.le_succ_of_le hi₁.le, hbody⟩

theorem groupHandler : (onText c lines l).Yields i (groupHandler g) fun h j =>
    HandlerLies c lines l i h.val j := by
  refine fromStart fun t ht hplain => Yields.diagnose.orElse (.orElse ?_ .diagnose)
  refine (Leads.kw (b := 0).yields i).bind fun _ i₁ hi₁ => ?_
  exact (Leads.sym (b := 0).yields i₁).bind fun _ i₂ hi₂ =>
    handlerRest hl (hi₁.trans hi₂).le ht hplain

omit hl in
theorem tryHead : (onText c lines l).Yields i (tryHead g) fun suite j =>
    BlockLies c lines l (i + 2) suite.statements j := by
  refine Yields.kw.bind ?_
  rintro _ _ ⟨rfl, -⟩
  refine force.bind ?_
  rintro _ _ ⟨rfl, -⟩
  exact block

theorem tryRest {group : Bool} {clause : Parser LegalHandler} (ht : l.tokens[i]? = some t)
    (hplain : t.isLayout = false)
    (hclause : ∀ i, (onText c lines l).Yields i clause fun h j => HandlerLies c lines l i h.val j) :
    (onText c lines l).Yields i (tryRest g ⟨t.line, i⟩ group clause) fun s j =>
      Lies c lines l i [s.val] j := by
  refine tryHead.bind fun body i₁ hbody => (hclause i₁).bind fun first i₂ hfirst => ?_
  have hguard := GuardLies.header hl ht hplain (Nat.le_add_right i 2) hbody
  refine (Yields.many (I := fun more j => GuardLies c lines l i t.line body.statements
    (first.val :: more.map Subtype.val) j) (hguard.snoc hl ht hplain hfirst) fun more j hmore =>
      (hclause j).mono fun h k hh => ?_).bind fun more i₃ hmore => ?_
  · have := hmore.snoc hl ht hplain hh
    simpa using this
  · refine (optional elseBlock).bind fun orelse i₄ horelse => ?_
    refine (optional finallyBlock).bind fun final i₅ hfinal => done ?_
    exact hmore.lies hl ht hplain horelse hfinal

theorem tryStatement : (onText c lines l).Yields i (tryStatement g) fun s j =>
    Lies c lines l i [s.val] j := by
  refine fromStart fun t ht hplain => Yields.diagnose.orElse (.orElse ?_ (.orElse ?_ ?_))
  · refine tryHead.bind fun body i₁ hbody => finallyBlock.bind fun final i₂ hfinal => done ?_
    have hguard := GuardLies.header hl ht hplain (Nat.le_add_right i 2) hbody
    exact hguard.lies hl ht hplain .nothing hfinal
  · exact tryRest hl ht hplain fun i => handler hl
  · exact tryRest hl ht hplain fun i => groupHandler hl

end OnText

end NotebookSlice.Flow
