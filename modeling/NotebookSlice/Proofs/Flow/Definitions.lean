import NotebookSlice.Proofs.Flow.Grammar
import NotebookSlice.Proofs.Syntax.Decorators

/-! # Statements that are units with all their blocks

Definitions and matches on the tokens they are read from. A definition begins with
its first decorator, if that begins on the line of its mark.
-/

namespace NotebookSlice.Flow

open Syntax Grammar Contract

/-- What comes before the stretch may be put to it, if nothing is said about its lines. -/
theorem Written.widen {lines : List String} {l : Lexed} {i j k last : ℕ} {shown : ℕ → Prop}
    (h : Written lines l k j last shown) (hle : i ≤ k) : Written lines l i j last fun _ => True where
  last := by
    obtain ⟨m, t, hk, hm⟩ := h.last
    exact ⟨m, t, Nat.le_trans hle hk, hm⟩
  ends := by
    obtain ⟨q, t, hk, hq⟩ := h.ends
    exact ⟨q, t, Nat.le_trans hle hk, hq⟩
  shown _ _ _ _ _ _ _ _ _ _ := trivial

def Fresh (l : Lexed) (i : ℕ) : Prop := ∀ t, 0 < i → l.tokens[i - 1]? = some t → t.isLayout = true

variable {c : Configuration} {lines : List String} {l : Lexed} {g : Engine} {i j k : ℕ} {t u : Token}

namespace OnText

/-! ## Parts of heads -/

section Heads

variable {K : Contract} {b : ℕ} [Meets K g]

instance leadsReturns : Leads K b b (returns g) := by
  unfold returns
  infer_instance

instance leadsClassArguments : Leads K b b (classArguments g) := by
  unfold classArguments
  infer_instance

instance leadsClassHead : Leads K b b (classHead g) := by
  unfold classHead
  infer_instance

instance leadsSubject : Leads K b b (subject g) := by
  unfold subject
  infer_instance

instance leadsMatchHead : Leads K b b (matchHead g) := by
  unfold matchHead
  infer_instance

instance leadsGuard : Leads K 0 0 (Grammar.guard g) := by
  unfold Grammar.guard
  infer_instance

instance leadsCaseHead : Leads K 0 0 (caseHead g) := by
  unfold caseHead
  infer_instance

end Heads

variable [hg : Meets (onText c lines l) g] (hl : Laid l lines)
include hl

/-! ## Definitions -/

omit hl hg in
/-- A definition whose own first token is at `k` begins, with its decorators, on the line of the
token at `i`. -/
def Heads (l : Lexed) (i k : ℕ) (ds : List Expr) : Prop :=
  i ≤ k ∧ ∀ u, l.tokens[k]? = some u → u.isLayout = false → ∃ t, l.tokens[i]? = some t ∧
    t.isLayout = false ∧ ds.foldl (fun n d => min n d.line) u.line = t.line

omit hl hg in
theorem Heads.nil : Heads l i i [] := ⟨Nat.le_refl i, fun u hu huplain => ⟨u, hu, huplain, rfl⟩⟩

section Definitions

variable {ds : List Expr} (hheads : Heads l i k ds)
include hheads

theorem functionRest {async : Bool} (hu : l.tokens[k]? = some u) (huplain : u.isLayout = false)
    (hkj : k ≤ j) : (onText c lines l).Yields j (functionRest g ⟨u.line, k⟩ async ds) fun s j =>
      Lies c lines l i [s.val] j := by
  obtain ⟨hik, hfirst⟩ := hheads
  obtain ⟨t, ht, hplain, hfirst⟩ := hfirst u hu huplain
  refine (Leads.kw (b := 0).yields j).bind fun _ j₁ hj₁ => ?_
  refine (Leads.ident (b := 0).yields j₁).bind fun id j₂ hj₂ => force.bind ?_
  rintro _ _ ⟨rfl, -⟩
  refine (Leads.opt (b := 1).yields (j₂ + 1)).bind fun ps j₃ hj₃ => ?_
  refine (Leads.rpar (b := 0).yields j₃).bind fun _ j₄ hj₄ => ?_
  refine (leadsReturns (b := 0).yields j₄).bind fun result j₅ hj₅ => force.bind ?_
  rintro _ _ ⟨rfl, -⟩
  refine block.bind fun body j₆ hbody => done ?_
  have := (hj₁.trans hj₂).le
  have := (hj₃.trans (hj₄.trans hj₅)).le
  exact .of_whole hl ht hplain hfirst rfl hu huplain hik rfl
    (written_header hl hu (show k ≤ j₅ + 1 by omega) hbody)

theorem functionDef : (onText c lines l).Yields k (functionDef g ds) fun s j =>
    Lies c lines l i [s.val] j := by
  refine fromStart fun u hu huplain => Yields.diagnose.orElse (.orElse ?_ ?_)
  · exact functionRest hl hheads hu huplain (Nat.le_refl k)
  · exact (Leads.kw (b := 0).yields k).bind fun _ k₁ hk₁ =>
      functionRest hl hheads hu huplain hk₁.le

theorem classDef : (onText c lines l).Yields k (classDef g ds) fun s j =>
    Lies c lines l i [s.val] j := by
  refine fromStart fun u hu huplain => Yields.diagnose.orElse ?_
  obtain ⟨hik, hfirst⟩ := hheads
  obtain ⟨t, ht, hplain, hfirst⟩ := hfirst u hu huplain
  refine (leadsClassHead (b := 0).yields k).bind ?_
  rintro ⟨id, arguments⟩ k₁ hk₁
  refine colonBlock.bind fun body k₂ hbody => done ?_
  exact .of_whole hl ht hplain hfirst rfl hu huplain hik rfl
    (written_header hl hu (Nat.le_succ_of_le hk₁.le) hbody)

end Definitions

/-! ## Decorators -/

omit hl in
theorem decorator {K : Contract} [Meets K g] : K.Yields i (do
      let _ ← Parser.sym .at
      let e ← namedExpression g
      let _ ← Parser.newline
      return e) fun e j => K.Opens (i + 1) e j ∧
        ∃ t, K.lexed.tokens[i]? = some t ∧ t.kind = .punct .at := by
  refine Yields.sym.bind ?_
  rintro t _ ⟨rfl, ht, hkind⟩
  refine (Begins.namedExpression.yields (i + 1)).bind fun e j he => Yields.kind.bind ?_
  rintro _ _ ⟨rfl, -⟩
  exact .pure ⟨he.mono (Nat.le_succ j), t, ht, hkind⟩

omit hl in
theorem foldl_min_line {ds : List Expr} {n : ℕ} (h : ∀ d ∈ ds, n ≤ d.line) :
    ds.foldl (fun n d => min n d.line) n = n := by
  induction ds with
  | nil => rfl
  | cons d ds ih =>
    obtain ⟨hd, hds⟩ := List.forall_mem_cons.mp h
    rw [List.foldl_cons, Nat.min_eq_left hd]
    exact ih hds

/-- The first line of a decorated definition is that of the first mark. -/
theorem decorators (hplaced : decoratorsInLine true l.tokens.toList = true) (hfresh : Fresh l i) :
    (onText c lines l).Yields i (decorators g) fun ds k => Heads l i k ds := by
  refine Yields.rule (decorator.bind ?_)
  rintro d i₁ ⟨hd, t, ht, hkind⟩
  have hplain : t.isLayout = false := by rw [Token.isLayout_eq, hkind]; rfl
  have hline : d.line = t.line := by
    obtain ⟨k, u, hik, -, hu, hline, hpars⟩ := hd
    have htoken (m : ℕ) : l.tokens.toList[m]? = l.tokens[m]? := Array.getElem?_toList
    rw [hline]
    exact line_of_decoratorsInLine hplaced ((htoken i).trans ht) hkind (fun _ => rfl)
      (fun v hpos hv => hfresh v hpos ((htoken _).symm.trans hv)) hik ((htoken k).trans hu)
      fun j v hij hjk hv => hpars j v hij hjk ((htoken j).symm.trans hv)
  have hle {e : Expr} {j k : ℕ} (hij : i ≤ j) (he : (onText c lines l).Opens (j + 1) e k) :
      t.line ≤ e.line := by
    obtain ⟨m, u, hjm, -, hu, hline, -⟩ := he
    rw [hline]
    exact hl.line_le (show i ≤ m by omega) ht hu
  refine (Yields.many (I := fun ds j => i < j ∧ ∀ d ∈ ds, t.line ≤ d.line)
    ⟨by have := hd.lt; omega, fun _ h => nomatch h⟩ fun ds j hds => decorator.mono ?_).bind
      fun ds j hds => .pure ⟨hds.1.le, fun u hu _ => ⟨t, ht, hplain, ?_⟩⟩
  · rintro e k ⟨he, -⟩
    refine ⟨by have := hds.1; have := he.lt; omega, fun d hd => ?_⟩
    rcases List.mem_append.mp hd with hd | hd
    · exact hds.2 d hd
    · rw [List.mem_singleton.mp hd]
      exact hle hds.1.le he
  · rw [List.foldl_cons, hline, Nat.min_eq_right (hl.line_le hds.1.le ht hu)]
    exact foldl_min_line hds.2

theorem decorated (hplaced : decoratorsInLine true l.tokens.toList = true) (hfresh : Fresh l i) :
    (onText c lines l).Yields i (decorated g) fun s j => Lies c lines l i [s.val] j := by
  refine (Yields.followedBy Yields.sym).bind ?_
  rintro _ _ rfl
  refine Yields.commit ((decorators hl hplaced hfresh).bind fun ds k hheads => ?_)
  exact (functionDef hl hheads).orElse (classDef hl hheads)

/-! ## Matches -/

omit hl hg in
/-- What stands on lines of its own, between the tokens that say so. -/
theorem indented {α : Type} {K : Contract} {p : Parser α} {Q : α → ℕ → Prop}
    (h : ∀ t u, K.lexed.tokens[i]? = some t → t.kind = .newline → K.lexed.tokens[i + 1]? = some u →
      u.kind = .indent → K.Yields (i + 2) p Q) :
    K.Yields i (indented p) fun a j => ∃ k t, Q a k ∧ j = k + 1 ∧ K.lexed.tokens[k]? = some t ∧
      t.kind = .dedent := by
  refine Yields.kind.bind ?_
  rintro t _ ⟨rfl, ht, hkind⟩
  refine Yields.kind.bind ?_
  rintro u _ ⟨rfl, hu, hindent⟩
  refine (h t u ht hkind hu hindent).bind fun a k ha => Yields.kind.bind ?_
  rintro v _ ⟨rfl, hv, hdedent⟩
  exact .pure ⟨k, v, ha, rfl, hv, hdedent⟩

omit hl in
theorem caseClause : (onText c lines l).Yields i (caseClause g) fun _ j =>
    ∃ last, Written lines l i j last fun _ => True := by
  refine Yields.rule (Yields.diagnose.orElse ?_)
  refine (leadsCaseHead.yields i).bind ?_
  rintro ⟨p, condition⟩ i₁ hi₁
  refine colonBlock.bind ?_
  rintro body j ⟨b, hb, -, hbody⟩
  have := hi₁.le
  exact .pure ⟨_, hbody.written.widen (show i ≤ b by omega)⟩

theorem matchStatement : (onText c lines l).Yields i (matchStatement g) fun s j =>
    Lies c lines l i [s.val] j := by
  refine fromStart fun t ht hplain => Yields.orElse ?_ .diagnose
  refine (leadsMatchHead (b := 0).yields i).bind fun value i₁ hi₁ => ?_
  refine (Leads.sym (b := 0).yields i₁).bind fun _ i₂ hi₂ => ?_
  have hclauses : (onText c lines l).Yields (i₂ + 2) (do
      let first ← Grammar.caseClause g
      return (first, ← Parser.many (Grammar.caseClause g))) fun _ j =>
        ∃ last, Written lines l (i₂ + 2) j last fun _ => True := by
    refine caseClause.bind fun first j hfirst => ?_
    refine (Yields.many (I := fun _ j => ∃ last, Written lines l (i₂ + 2) j last fun _ => True) hfirst
      fun _ j hmore => caseClause.mono fun _ k hk => ?_).bind fun more k hk => .pure hk
    obtain ⟨last, hmore⟩ := hmore
    obtain ⟨last', hk⟩ := hk
    exact ⟨last', (hmore.trans hk).widen (Nat.le_refl _)⟩
  refine (indented fun _ _ _ _ _ _ => hclauses).bind ?_
  rintro ⟨first, more⟩ _ ⟨j, u, ⟨last, hwritten⟩, rfl, hu, hkind⟩
  refine done ?_
  have hlayout : ∀ m v, j ≤ m → m < j + 1 → l.tokens[m]? = some v → v.isLayout = true := by
    intro m v hjm hmj hv
    obtain rfl : m = j := by omega
    have hv : v = u := Option.some.inj (hv.symm.trans hu)
    rw [hv, Token.isLayout_eq, hkind]
    rfl
  have := (hi₁.trans hi₂).le
  exact .of_whole hl ht hplain rfl rfl ht hplain (Nat.le_refl i) rfl
    ((hwritten.widen (show i ≤ i₂ + 2 by omega)).layout (Nat.le_succ j) hlayout)

end OnText

end NotebookSlice.Flow
