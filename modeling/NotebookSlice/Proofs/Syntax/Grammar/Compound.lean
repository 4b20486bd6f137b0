import NotebookSlice.Proofs.Syntax.Grammar.Simple
import NotebookSlice.Proofs.Syntax.Grammar.Pattern
import NotebookSlice.Syntax.Grammar.Compound

/-! # Compound statements on a frame

A statement may end at the boundary. What may go on with it, a clause, begins
with a word that does not stand there. Inside a block the boundary is never met,
so that the statements of a block end on both sides together.
-/

namespace NotebookSlice.Syntax

open List (Forall₂)

/-! ## Clauses -/

/-- The parser begins with none of the tokens. -/
structure Parser.Refuses {α : Type} (P : Token.Kind → Bool) (p : Parser α) : Prop where
  refuses {l : Lexed} {i : Nat} {t : Token} (m : Memory) : l.tokens[i]? = some t →
    P t.kind = true → ∃ m', p ⟨l, false⟩ i m = .fail false m' ∧ m'.entries = m.entries
  breaks {l : Lexed} {i : Nat} (m : Memory) : l.tokens[i]? = none → l.fault.isSome = true →
    ∃ fault, p ⟨l, false⟩ i m = .raised fault

/-- The parser begins with a word that goes on with a statement. -/
abbrev Parser.Clausal {α : Type} (p : Parser α) : Prop := p.Refuses Token.Kind.bounds

namespace Parser.Refuses

variable {α β : Type} {P : Token.Kind → Bool} {p q : Parser α}

theorem accept {f : Token → Option α} (hf : ∀ t, P t.kind = true → f t = none) :
    (accept f).Refuses P where
  refuses {l i t} m ht hP := by
    unfold Parser.accept peek
    simp only [ht, hf t hP]
    exact ⟨_, rfl, rfl⟩
  breaks {l i} m ht hfault := by
    obtain ⟨fault, hfault⟩ := Option.isSome_iff_exists.mp hfault
    unfold Parser.accept peek
    simp only [ht, hfault]
    exact ⟨_, rfl⟩

theorem sym {mark : Punct} (h : P (.punct mark) = false) : (sym mark).Refuses P := by
  refine accept fun t ht => ?_
  split
  · rename_i hkind
    refine if_neg fun heq => ?_
    rw [hkind, heq, h] at ht
    cases ht
  · rfl

theorem kw {k : Keyword} (h : P (.keyword k) = false) : (kw k).Refuses P := by
  refine accept fun t ht => ?_
  split
  · rename_i hkind
    refine if_neg fun heq => ?_
    rw [hkind, heq, h] at ht
    cases ht
  · rfl

theorem soft {s : SoftKeyword} (h : ∀ id, P (.name id (some s)) = false) :
    (soft s).Refuses P := by
  refine accept fun t ht => ?_
  split
  · rename_i hkind
    refine if_neg fun heq => ?_
    rw [hkind, heq, h] at ht
    cases ht
  · rfl

theorem bind {f : α → Parser β} (h : p.Refuses P) : (p >>= f).Refuses P where
  refuses {l i t} m ht hP := by
    obtain ⟨m', hp, hm⟩ := h.refuses m ht hP
    refine ⟨m', ?_, hm⟩
    rw [bind_apply, Parser.bind, hp]
  breaks {l i} m ht hfault := by
    obtain ⟨fault, hp⟩ := h.breaks m ht hfault
    refine ⟨fault, ?_⟩
    rw [bind_apply, Parser.bind, hp]

theorem rule (h : p.Refuses P) : (rule p).Refuses P where
  refuses {l i t} m ht hP := by
    obtain ⟨m', hp, hm⟩ := h.refuses m ht hP
    refine ⟨m', ?_, hm⟩
    unfold Parser.rule
    rw [hp]
  breaks {l i} m ht hfault := by
    obtain ⟨fault, hp⟩ := h.breaks m ht hfault
    refine ⟨fault, ?_⟩
    unfold Parser.rule
    rw [hp]

theorem followedBy (h : p.Refuses P) : (followedBy p).Refuses P where
  refuses {l i t} m ht hP := by
    obtain ⟨m', hp, hm⟩ := h.refuses m ht hP
    refine ⟨m', ?_, hm⟩
    unfold Parser.followedBy
    rw [hp]
  breaks {l i} m ht hfault := by
    obtain ⟨fault, hp⟩ := h.breaks m ht hfault
    refine ⟨fault, ?_⟩
    unfold Parser.followedBy
    rw [hp]

theorem orElse (hp : p.Refuses P) (hq : q.Refuses P) : (p <|> q).Refuses P where
  refuses {l i t} m ht hP := by
    obtain ⟨m₁, hp, hm₁⟩ := hp.refuses m ht hP
    obtain ⟨m₂, hq, hm₂⟩ := hq.refuses m₁ ht hP
    rw [orElse_apply, Parser.orElse, hp]
    exact ⟨m₂, hq, hm₂.trans hm₁⟩
  breaks {l i} m ht hfault := by
    obtain ⟨fault, hp⟩ := hp.breaks m ht hfault
    refine ⟨fault, ?_⟩
    rw [orElse_apply, Parser.orElse, hp]

theorem diagnose_orElse (h : p.Refuses P) : (diagnose q <|> p).Refuses P := ⟨h.refuses, h.breaks⟩

theorem orElse_diagnose (h : p.Refuses P) : (p <|> diagnose q).Refuses P where
  refuses {l i t} m ht hP := by
    obtain ⟨m', hp, hm⟩ := h.refuses m ht hP
    rw [orElse_apply, Parser.orElse, hp]
    exact ⟨m', rfl, hm⟩
  breaks {l i} m ht hfault := by
    obtain ⟨fault, hp⟩ := h.breaks m ht hfault
    refine ⟨fault, ?_⟩
    rw [orElse_apply, Parser.orElse, hp]

theorem startHere {f : Mark → Parser β} (h : ∀ start, (f start).Refuses P) :
    (startHere >>= f).Refuses P where
  refuses {l i t} m ht hP := by
    rw [bind_apply, Parser.bind, startHere_of_getElem? ht]
    cases t.isLayout with
    | true => exact ⟨_, rfl, rfl⟩
    | false => exact (h _).refuses (m.reach (i + 1)) ht hP
  breaks {l i} m ht hfault := by
    obtain ⟨fault, hfault⟩ := Option.isSome_iff_exists.mp hfault
    have hpeek : peek ⟨l, false⟩ i m =
        .raised ⟨fault.line, (m.reach (i + 1)).reached, true⟩ := by
      simp only [peek, ht, hfault]
    have hstart : Parser.startHere ⟨l, false⟩ i m =
        .raised ⟨fault.line, (m.reach (i + 1)).reached, true⟩ := by
      unfold Parser.startHere lineHere
      rw [bind_apply, Parser.bind, hpeek]
    exact ⟨_, by rw [bind_apply, Parser.bind, hstart]⟩

end Parser.Refuses

theorem CallArguments.alike_getD {same : Nat → Nat → Prop} {a a' : Option CallArguments}
    (h : Option.Rel (CallArguments.Alike same) a a') :
    CallArguments.Alike same (a.getD ⟨[], []⟩) (a'.getD ⟨[], []⟩) := by
  cases h with
  | none => exact ⟨.nil, .nil⟩
  | some h => exact h

namespace Frame

variable {F : Frame} {g g' : Engine} {P Q : Region}

namespace Agrees

variable {α : Type} {R : α → α → Prop} {p p' : Parser α}

theorem clause [F.Clean] (h : F.Agrees .inside Q R p p') (hp : p.Clausal) (hp' : p'.Clausal) :
    F.Agrees .upTo Q R p p' := by
  constructor
  intro i m m' hi hm
  rcases Nat.lt_or_eq_of_le hi with hlt | rfl
  · exact h.reply i m m' hlt hm
  · cases ht : F.left.tokens[F.stop]? with
    | none =>
      obtain ⟨fault, hfault⟩ := hp.breaks m ht (F.broken _ hi ht)
      rw [hfault]
      exact .raised
    | some t =>
      obtain ⟨hbounds, t', ht', hbounds'⟩ := Clean.boundary t ht
      obtain ⟨m₁, hl, hm₁⟩ := hp.refuses m ht hbounds
      obtain ⟨m₁', hr, hm₁'⟩ := hp'.refuses m' ht' hbounds'
      rw [hl, hr]
      exact .fail (hm.congr hm₁ hm₁')

/-- What stands between an indentation and its end is deeper by one level. -/
theorem indented [F.Clean] (h : F.Agrees .nested .nested R p p') :
    F.Agrees .inside .upTo R (Grammar.indented p) (Grammar.indented p') := by
  have clean_at {k : Token.Kind} {i : Nat} (hi : i ≤ F.stop) (hk : k.bounds = false) :
      i < F.stop ∨ F.Clean ∧ i = F.stop ∧ k.bounds = false :=
    (Nat.lt_or_eq_of_le hi).imp_right fun h => ⟨inferInstance, h, hk⟩
  refine .bind newline fun _ _ _ => ⟨fun i m m' hi hm => ?_⟩
  change F.Replies .upTo R i (Parser.bind _ _ _ _ _) (Parser.bind _ _ _ _ _)
  unfold Parser.bind
  rcases kindAt (k := .indent) hm (clean_at hi rfl) with ⟨fault, hl⟩ | ⟨m₁, m₁', hm₁, hl, hr⟩ |
    ⟨t, t', m₁, m₁', hm₁, hlt, ht, hkind, hl, hr⟩
  · rw [hl]
    exact .raised
  · rw [hl, hr]
    exact .fail hm₁
  have hopen : ¬ F.closed → F.level (i + 1) = F.level i + 1 := by
    intro ho
    rw [F.level_succ ho i t hlt ht, hkind]
  have hnested : F.At .nested (i + 1) := by
    refine ⟨Nat.succ_le_of_lt hlt, fun ho => ?_⟩
    have := F.level_nonneg ho i hi
    have := hopen ho
    omega
  have hbody := h.reply (i + 1) m₁ m₁' hnested hm₁
  simp only [hl, hr]
  change F.Replies .upTo R i (Parser.bind p _ _ _ _) (Parser.bind p' _ _ _ _)
  unfold Parser.bind
  generalize p _ (i + 1) m₁ = r, p' _ _ m₁' = r' at hbody ⊢
  cases hbody with
  | fail hm => exact .fail hm
  | raised => exact .raised
  | @ok a b j m₂ m₂' hj hle hlevel hR hm₂ =>
    simp only
    change F.Replies .upTo R i (Parser.bind _ _ _ _ _) (Parser.bind _ _ _ _ _)
    unfold Parser.bind
    rcases kindAt (k := .dedent) hm₂ (clean_at hj.1 rfl) with ⟨fault, hl⟩ | ⟨m₃, m₃', hm₃, hl, hr⟩ |
      ⟨t, t', m₃, m₃', hm₃, hlt, ht, hkind, hl, hr⟩
    · rw [hl]
      exact .raised
    · rw [hl, hr]
      exact .fail hm₃
    · simp only [hl, hr]
      refine .ok (Nat.succ_le_of_lt hlt) (by omega) (fun ho => ?_) hR hm₃
      have := hopen ho
      have := hlevel ho
      rw [F.level_succ ho j t hlt ht, hkind]
      simp only
      omega

/-- Inside a block what comes up to the boundary stays inside the block. -/
theorem nested (h : F.Agrees .nested .upTo R p p') : F.Agrees .nested .nested R p p' := by
  constructor
  intro i m m' hi hm
  have hreply := h.reply i m m' hi hm
  generalize p _ i m = r, p' _ _ m' = r' at hreply ⊢
  cases hreply with
  | ok hj hle hlevel hR hm =>
    exact .ok ⟨hj, fun ho => hlevel ho ▸ hi.2 ho⟩ hle hlevel hR hm
  | fail hm => exact .fail hm
  | raised => exact .raised

theorem force {mark : Punct} (h : Token.Kind.opens (.punct mark) = true) :
    F.Agrees .inside .inside (fun _ _ => True) (Grammar.force mark) (Grammar.force mark) := by
  refine .orElse (.bind (.sym h) fun _ _ _ => .pure trivial) ⟨fun i m m' hi hm => ?_⟩
  rw [Parser.bind_apply, Parser.bind]
  unfold Parser.peek
  cases ht : F.left.tokens[i]? with
  | none =>
    obtain ⟨fault, hfault⟩ := Option.isSome_iff_exists.mp (F.broken i (Nat.le_of_lt hi) ht)
    simp only [hfault]
    exact .raised
  | some t => exact .raised

theorem ahead [P.Le .edge] {k : Keyword} (h : Token.Kind.opens (.keyword k) = true) :
    F.Agrees P P (fun _ _ => True) (Grammar.ahead k) (Grammar.ahead k) :=
  .followedBy (.kw h)

end Agrees

namespace Engines

variable (hg : F.Engines g g')
include hg

/-! ## Heads of statements -/

theorem decorator [P.Le .edge] :
    F.Agrees P .upTo (Expr.Alike F.lines.same)
      (do
        let _ ← Parser.sym .at
        let e ← Grammar.namedExpression g
        let _ ← Parser.newline
        return e)
      (do
        let _ ← Parser.sym .at
        let e ← Grammar.namedExpression g'
        let _ ← Parser.newline
        return e) :=
  .bind (.sym rfl) fun _ _ _ => .bind hg.namedExpression fun _ _ ha => .bind .newline fun _ _ _ =>
    .pure ha

theorem decorators :
    F.Agrees .nested .nested (Forall₂ (Expr.Alike F.lines.same)) (Grammar.decorators g)
      (Grammar.decorators g') :=
  have decorator := Agrees.nested hg.decorator
  .rule (.bind decorator fun _ _ ha => .bind (.many decorator) fun _ _ has => .pure (.cons ha has))

theorem classArguments :
    F.Agrees .inside .inside (Option.Rel (CallArguments.Alike F.lines.same))
      (Grammar.classArguments g) (Grammar.classArguments g') :=
  .opt (.bind (.sym rfl) fun _ _ _ => .bind (.opt (hg.call .arguments rfl)) fun _ _ harguments =>
    .bind (.sym rfl) fun _ _ _ => .pure (CallArguments.alike_getD harguments))

theorem returns :
    F.Agrees .inside .inside (Option.Rel (Expr.Alike F.lines.same)) (Grammar.returns g)
      (Grammar.returns g') :=
  .opt (.bind (.sym rfl) fun _ _ _ => hg.call .expression rfl)

theorem condition {k : Keyword}
    (h : F.Agrees P .inside (Agrees.SameLine F.lines.same) (Parser.kw k) (Parser.kw k)) :
    F.Agrees P .inside (Expr.Alike F.lines.same) (Grammar.condition g k)
      (Grammar.condition g' k) :=
  .bind h fun _ _ _ => hg.namedExpression

section

variable [P.Le .edge]

theorem classHead :
    F.Agrees P .inside (SamePair Eq (Option.Rel (CallArguments.Alike F.lines.same)))
      (Grammar.classHead g) (Grammar.classHead g') :=
  .bind (.kw rfl) fun _ _ _ => .bind .ident fun _ _ hid => .bind hg.classArguments
    fun _ _ harguments => .pure ⟨hid, harguments⟩

theorem withItem :
    F.Agrees P .inside (WithItem.Alike F.lines.same) (Grammar.withItem g)
      (Grammar.withItem g') :=
  .rule (.orElse
    (.bind (hg.call .expression rfl) fun _ _ hcontext => .bind (.kw rfl) fun _ _ _ =>
      .bind (hg.call .starTarget rfl) fun _ _ htarget =>
        .bind (.followedBy (.orElse (.sym rfl) (.orElse (.sym rfl) (.sym rfl)))) fun _ _ _ =>
          .pure ⟨hcontext, .some htarget⟩) (.orElse
    .diagnose
    (.bind (hg.call .expression rfl) fun _ _ hcontext => .pure ⟨hcontext, .none⟩)))

theorem subject :
    F.Agrees P .inside (Expr.Alike F.lines.same) (Grammar.subject g) (Grammar.subject g') :=
  .rule (.bind .lineHere fun _ _ hl => .orElse
    (.bind hg.starNamedExpression fun _ _ hfirst => .bind (.sym rfl) fun _ _ _ =>
      .bind (.opt hg.starNamedExpressions) fun _ _ hmore =>
        .pure (.tuple hl (.cons hfirst (forall₂_getD hmore))))
    hg.namedExpression)

theorem guard :
    F.Agrees P .inside (Expr.Alike F.lines.same) (Grammar.guard g) (Grammar.guard g') :=
  .rule (hg.condition (.kw rfl))

theorem caseHead :
    F.Agrees P .inside
      (SamePair (Pattern.Alike F.lines.same) (Option.Rel (Expr.Alike F.lines.same)))
      (Grammar.caseHead g) (Grammar.caseHead g') :=
  .bind .soft fun _ _ _ => .bind hg.patterns fun _ _ hp => .bind (.opt hg.guard)
    fun _ _ hguard => .pure ⟨hp, hguard⟩

theorem matchHead :
    F.Agrees P .inside (Expr.Alike F.lines.same) (Grammar.matchHead g) (Grammar.matchHead g') :=
  .bind .soft fun _ _ _ => hg.subject

end

variable [F.Clean]

theorem colonBlock :
    F.Agrees .inside .upTo (Suite.Alike F.lines.same) (Grammar.colonBlock g)
      (Grammar.colonBlock g') :=
  .bind (.sym rfl) fun _ _ _ => hg.block

theorem elseBlock :
    F.Agrees .upTo .upTo (Suite.Alike F.lines.same) (Grammar.elseBlock g)
      (Grammar.elseBlock g') :=
  .clause (.rule (.orElse .diagnose
    (.bind .kwInside fun _ _ _ => .bind (.force rfl) fun _ _ _ => hg.block)))
    (.rule (.diagnose_orElse (.bind (.kw rfl)))) (.rule (.diagnose_orElse (.bind (.kw rfl))))

variable [P.Le .edge]

/-! ## Definitions -/

theorem classDef {ds ds' : List Expr} (hds : Forall₂ (Expr.Alike F.lines.same) ds ds') :
    F.Agrees P .upTo (LegalStmt.Alike F.lines.same) (Grammar.classDef g ds)
      (Grammar.classDef g' ds') := by
  refine .rule (.bind .startHere fun _ _ hs => .orElse .diagnose (.bind hg.classHead
    fun head head' ⟨hid, harguments⟩ => .bind hg.colonBlock fun _ _ hbody =>
      .bind (.spanFrom hs) fun _ _ hspan => .pure ?_))
  have hall := CallArguments.alike_getD harguments
  exact hid ▸ .classDef hspan hall.positional hall.keywords hbody hds

theorem functionRest {s s' : Parser.Mark} {async : Bool} {ds ds' : List Expr}
    (hs : Agrees.SameMark F s s') (hds : Forall₂ (Expr.Alike F.lines.same) ds ds') :
    F.Agrees P .upTo (LegalStmt.Alike F.lines.same) (Grammar.functionRest g s async ds)
      (Grammar.functionRest g' s' async ds') := by
  refine .bind (.kw rfl) fun _ _ _ => .bind .ident fun _ _ hid => .bind (.force rfl) fun _ _ _ =>
    .bind (.opt hg.params) fun _ _ hps => .bind (.sym rfl) fun _ _ _ => .bind hg.returns
      fun _ _ hresult => .bind (.force rfl) fun _ _ _ => .bind hg.block fun _ _ hbody =>
        .bind (.spanFrom hs) fun _ _ hspan => .pure ?_
  have hparams := alike_params hps
  exact hid ▸ .functionDef hspan hparams hbody hds hresult

theorem functionDef {ds ds' : List Expr} (hds : Forall₂ (Expr.Alike F.lines.same) ds ds') :
    F.Agrees P .upTo (LegalStmt.Alike F.lines.same) (Grammar.functionDef g ds)
      (Grammar.functionDef g' ds') :=
  .rule (.bind .startHere fun _ _ hs => .orElse .diagnose (.orElse (hg.functionRest hs hds)
    (.bind (.kw rfl) fun _ _ _ => hg.functionRest hs hds)))

omit [P.Le .edge] in
theorem decorated :
    F.Agrees .nested .upTo (LegalStmt.Alike F.lines.same) (Grammar.decorated g)
      (Grammar.decorated g') :=
  .bind (.followedBy (.sym rfl)) fun _ _ _ => .commit (.bind hg.decorators fun _ _ hds =>
    .orElse (hg.functionDef hds) (hg.classDef hds))

/-! ## Conditions and loops -/

theorem ifStatement {k : Keyword}
    (h : F.Agrees P .inside (Agrees.SameLine F.lines.same) (Parser.kw k) (Parser.kw k)) :
    F.Agrees P .upTo (LegalStmt.Alike F.lines.same) (Grammar.ifStatement g k)
      (Grammar.ifStatement g' k) :=
  .rule (.bind .startHere fun _ _ hs => .orElse .diagnose (.bind (hg.condition h) fun _ _ htest =>
    .bind hg.colonBlock fun _ _ hbody => .bind (.opt (.orElse hg.elifClause hg.elseBlock))
      fun _ _ horelse => .bind (.spanFrom hs) fun _ _ hspan =>
        .pure (.if hspan htest hbody (Suite.alike_optional horelse))))

omit [P.Le .edge] in
theorem elifClauseBody :
    F.Agrees .upTo .upTo (Suite.Alike F.lines.same) (Grammar.elifClauseBody g)
      (Grammar.elifClauseBody g') :=
  have clausal (g : Engine) : (Grammar.elifClauseBody g).Clausal :=
    .bind (.rule (.startHere fun _ => .diagnose_orElse (.bind (.bind (.kw rfl)))))
  .clause (.bind (hg.ifStatement .kwInside) fun _ _ hs => .pure (Suite.alike_ofStmts hs .nil))
    (clausal g) (clausal g')

theorem whileStatement :
    F.Agrees P .upTo (LegalStmt.Alike F.lines.same) (Grammar.whileStatement g)
      (Grammar.whileStatement g') :=
  .rule (.bind .startHere fun _ _ hs =>
    .orElse .diagnose (.bind (hg.condition (.kw rfl)) fun _ _ htest =>
    .bind hg.colonBlock fun _ _ hbody => .bind (.opt hg.elseBlock) fun _ _ horelse =>
      .bind (.spanFrom hs) fun _ _ hspan =>
        .pure (.while hspan htest hbody (Suite.alike_optional horelse))))

theorem loopRest {s s' : Parser.Mark} {async : Bool} (hs : Agrees.SameMark F s s') :
    F.Agrees P .upTo (LegalStmt.Alike F.lines.same) (Grammar.loopRest g s async)
      (Grammar.loopRest g' s' async) :=
  .bind (.kw rfl) fun _ _ _ => .bind hg.starTargets fun _ _ htarget => .bind (.kw rfl) fun _ _ _ =>
    .commit
    (.bind hg.starExpressions fun _ _ hiter => .bind hg.colonBlock fun _ _ hbody =>
      .bind (.opt hg.elseBlock) fun _ _ horelse => .bind (.spanFrom hs) fun _ _ hspan =>
        .pure (.for hspan htarget hiter hbody (Suite.alike_optional horelse)))

theorem forStatement :
    F.Agrees P .upTo (LegalStmt.Alike F.lines.same) (Grammar.forStatement g)
      (Grammar.forStatement g') :=
  .rule (.bind .startHere fun _ _ hs => .orElse .diagnose (.orElse (hg.loopRest hs) (.orElse
    (.bind (.kw rfl) fun _ _ _ => hg.loopRest hs) .diagnose)))

/-! ## Contexts -/

theorem withInBrackets {s s' : Parser.Mark} {async : Bool} (hs : Agrees.SameMark F s s') :
    F.Agrees P .upTo (LegalStmt.Alike F.lines.same) (Grammar.withInBrackets g s async)
      (Grammar.withInBrackets g' s' async) :=
  .bind (.kw rfl) fun _ _ _ => .bind (.sym rfl) fun _ _ _ => .bind (.sepBy1 hg.withItem (.sym rfl))
    fun _ _ hitems => .bind (.opt (.sym rfl)) fun _ _ _ => .bind (.sym rfl) fun _ _ _ =>
      .bind hg.colonBlock fun _ _ hbody => .bind (.spanFrom hs) fun _ _ hspan =>
        .pure (.with hspan hitems hbody)

theorem withRest {s s' : Parser.Mark} {async : Bool} (hs : Agrees.SameMark F s s') :
    F.Agrees P .upTo (LegalStmt.Alike F.lines.same) (Grammar.withRest g s async)
      (Grammar.withRest g' s' async) :=
  .bind (.kw rfl) fun _ _ _ => .bind (.sepBy1 hg.withItem (.sym rfl)) fun _ _ hitems =>
    .bind hg.colonBlock fun _ _ hbody => .bind (.spanFrom hs) fun _ _ hspan =>
      .pure (.with hspan hitems hbody)

theorem withStatement :
    F.Agrees P .upTo (LegalStmt.Alike F.lines.same) (Grammar.withStatement g)
      (Grammar.withStatement g') :=
  .rule (.bind .startHere fun _ _ hs => .orElse .diagnose (.orElse (hg.withInBrackets hs)
    (.orElse (hg.withRest hs) (.orElse (.bind (.kw rfl) fun _ _ _ => hg.withInBrackets hs)
    (.orElse (.bind (.kw rfl) fun _ _ _ => hg.withRest hs) .diagnose)))))

/-! ## Handlers -/

omit [P.Le .edge] in
theorem handlerRest {s s' : Parser.Mark} (hs : Agrees.SameMark F s s') :
    F.Agrees .inside .upTo (LegalHandler.Alike F.lines.same) (Grammar.handlerRest g s)
      (Grammar.handlerRest g' s') :=
  .bind (hg.call .expression rfl) fun _ _ htype => .bind .asName fun _ _ hid =>
    .bind hg.colonBlock fun _ _ hbody => .bind (.spanFrom hs) fun _ _ hspan =>
      .pure (hid ▸ .mk hspan (.some htype) hbody)

omit [P.Le .edge] in
theorem handler :
    F.Agrees .upTo .upTo (LegalHandler.Alike F.lines.same) (Grammar.handler g)
      (Grammar.handler g') :=
  have clausal (g : Engine) : (Grammar.handler g).Clausal :=
    .rule (.startHere fun _ => .diagnose_orElse (.orElse (.bind (.kw rfl))
      (.orElse_diagnose (.bind (.kw rfl)))))
  .clause (.rule (.bind .startHere fun _ _ hs => .orElse .diagnose (.orElse
    (.bind .kwInside fun _ _ _ => hg.handlerRest hs) (.orElse
    (.bind .kwInside fun _ _ _ => .bind hg.colonBlock fun _ _ hbody => .bind (.spanFrom hs)
      fun _ _ hspan => .pure (.mk hspan .none hbody))
    .diagnose)))) (clausal g) (clausal g')

omit [P.Le .edge] in
theorem groupHandler :
    F.Agrees .upTo .upTo (LegalHandler.Alike F.lines.same) (Grammar.groupHandler g)
      (Grammar.groupHandler g') :=
  have clausal (g : Engine) : (Grammar.groupHandler g).Clausal :=
    .rule (.startHere fun _ => .diagnose_orElse (.orElse_diagnose (.bind (.kw rfl))))
  .clause (.rule (.bind .startHere fun _ _ hs => .orElse .diagnose (.orElse
    (.bind .kwInside fun _ _ _ => .bind (.sym rfl) fun _ _ _ => hg.handlerRest hs) .diagnose)))
    (clausal g) (clausal g')

omit [P.Le .edge] in
theorem finallyBlock :
    F.Agrees .upTo .upTo (Suite.Alike F.lines.same) (Grammar.finallyBlock g)
      (Grammar.finallyBlock g') :=
  .clause (.rule (.orElse .diagnose
    (.bind .kwInside fun _ _ _ => .bind (.force rfl) fun _ _ _ => hg.block)))
    (.rule (.diagnose_orElse (.bind (.kw rfl)))) (.rule (.diagnose_orElse (.bind (.kw rfl))))

theorem tryHead :
    F.Agrees P .upTo (Suite.Alike F.lines.same) (Grammar.tryHead g) (Grammar.tryHead g') :=
  .bind (.kw rfl) fun _ _ _ => .bind (.force rfl) fun _ _ _ => hg.block

theorem tryRest {s s' : Parser.Mark} {group : Bool} {clause clause' : Parser LegalHandler}
    (hs : Agrees.SameMark F s s')
    (h : F.Agrees .upTo .upTo (LegalHandler.Alike F.lines.same) clause clause') :
    F.Agrees P .upTo (LegalStmt.Alike F.lines.same) (Grammar.tryRest g s group clause)
      (Grammar.tryRest g' s' group clause') := by
  refine .bind hg.tryHead fun _ _ hbody => .bind h fun _ _ hfirst => .bind (.many h)
    fun _ _ hmore => .bind (.opt hg.elseBlock) fun _ _ horelse => .bind (.opt hg.finallyBlock)
      fun _ _ hfinal => .bind (.spanFrom hs) fun _ _ hspan => .pure ?_
  refine .try hspan hbody (.cons hfirst ?_) (Suite.alike_optional horelse)
    (Suite.alike_optional hfinal)
  exact List.forall₂_map_left_iff.mpr (List.forall₂_map_right_iff.mpr hmore)

theorem tryStatement :
    F.Agrees P .upTo (LegalStmt.Alike F.lines.same) (Grammar.tryStatement g)
      (Grammar.tryStatement g') :=
  .rule (.bind .startHere fun _ _ hs => .orElse .diagnose (.orElse
    (.bind hg.tryHead fun _ _ hbody => .bind hg.finallyBlock fun _ _ hfinal =>
      .bind (.spanFrom hs) fun _ _ hspan => .pure (.try hspan hbody .nil .nil hfinal))
    (.orElse (hg.tryRest hs hg.handler) (hg.tryRest hs hg.groupHandler))))

/-! ## Matching -/

theorem caseClause :
    F.Agrees P .upTo (LegalCase.Alike F.lines.same) (Grammar.caseClause g)
      (Grammar.caseClause g') :=
  .rule (.orElse .diagnose (.bind hg.caseHead fun _ _ ⟨hp, hguard⟩ => .bind hg.colonBlock
    fun _ _ hbody => .pure (.mk hp hguard hbody)))

theorem matchStatement :
    F.Agrees P .upTo (LegalStmt.Alike F.lines.same) (Grammar.matchStatement g)
      (Grammar.matchStatement g') := by
  have hclause := Agrees.nested (hg.caseClause (P := .nested))
  refine .rule (.bind .startHere fun _ _ hs => .orElse
    (.bind hg.matchHead fun _ _ hvalue => .bind (.sym rfl) fun _ _ _ => .bind (.indented
      (R := SamePair (LegalCase.Alike F.lines.same) (Forall₂ (LegalCase.Alike F.lines.same)))
      (.bind hclause fun _ _ hfirst => .bind (.many hclause) fun _ _ hmore =>
        .pure ⟨hfirst, hmore⟩)) fun _ _ ⟨hfirst, hmore⟩ =>
      .bind (.spanFrom hs) fun _ _ hspan => .pure (.match hspan hvalue (.cons hfirst ?_)))
    .diagnose)
  exact List.forall₂_map_left_iff.mpr (List.forall₂_map_right_iff.mpr hmore)

/-! ## Statements -/

theorem compoundStatement :
    F.Agrees P .upTo (LegalStmt.Alike F.lines.same) (Grammar.compoundStatement g)
      (Grammar.compoundStatement g') :=
  .rule (.orElse
    (.bind (.followedBy (.orElse (.kw rfl) (.kw rfl))) fun _ _ _ => hg.functionDef .nil) (.orElse
    (.bind (.ahead rfl) fun _ _ _ => hg.ifStatement (.kw rfl)) (.orElse
    (.bind (.ahead rfl) fun _ _ _ => hg.classDef .nil) (.orElse
    (.bind (.followedBy (.orElse (.kw rfl) (.kw rfl))) fun _ _ _ => hg.withStatement) (.orElse
    (.bind (.followedBy (.orElse (.kw rfl) (.kw rfl))) fun _ _ _ => hg.forStatement) (.orElse
    (.bind (.ahead rfl) fun _ _ _ => hg.tryStatement) (.orElse
    (.bind (.ahead rfl) fun _ _ _ => hg.whileStatement)
    hg.matchStatement)))))))

omit [P.Le .edge] in
theorem statement :
    F.Agrees .nested .nested (Suite.Alike F.lines.same) (Grammar.statement g)
      (Grammar.statement g') :=
  .nested (.rule (.orElse
    (.bind hg.decorated fun _ _ hs => .pure (Suite.alike_ofStmts hs .nil)) (.orElse
    (.bind hg.compoundStatement fun _ _ hs => .pure (Suite.alike_ofStmts hs .nil))
    hg.simpleStatements)))

omit [P.Le .edge] in
theorem statements :
    F.Agrees .nested .nested (Suite.Alike F.lines.same) (Grammar.statements g)
      (Grammar.statements g') :=
  .bind hg.statement fun _ _ hfirst => .bind (.many hg.statement) fun _ _ hmore =>
    .pure (Suite.alike_flatten hfirst hmore)

omit [P.Le .edge] in
theorem blockBody :
    F.Agrees .inside .upTo (Suite.Alike F.lines.same) (Grammar.blockBody g)
      (Grammar.blockBody g') :=
  .orElse (.indented hg.statements) (.orElse hg.simpleStatements .diagnose)



end Engines

end Frame

end NotebookSlice.Syntax
