import NotebookSlice.Proofs.Syntax.Grammar.Expression
import NotebookSlice.Syntax.Grammar.Parameter

/-! # Parameters on a frame -/

namespace NotebookSlice.Syntax.Frame

open List (Forall₂)
open Grammar (ParameterPlace)

variable {F : Frame} {g g' : Engine} {P : Region} {place : ParameterPlace}

/-- What follows the positional parameters is alike. -/
structure Tail.Alike (same : Nat → Nat → Prop) (t t' : Grammar.Parameter.Tail) : Prop where
  rest : Option.Rel (Param.Alike same) t.rest t'.rest
  keywordOnly : Forall₂ (Param.Alike same) t.keywordOnly t'.keywordOnly
  keywords : Option.Rel (Param.Alike same) t.keywords t'.keywords

section

variable {same : Nat → Nat → Prop}

theorem alike_withDefault {p p' : Param} {d d' : Option Expr} (hp : Param.Alike same p p')
    (hd : Option.Rel (Expr.Alike same) d d') :
    Param.Alike same (Grammar.Parameter.withDefault p d)
      (Grammar.Parameter.withDefault p' d') := by
  obtain ⟨hhint, -⟩ := hp
  exact .mk hhint hd

theorem alike_assemble {ps ps' qs qs' : List Param} {t t' : Option Grammar.Parameter.Tail}
    (hps : Forall₂ (Param.Alike same) ps ps') (hqs : Forall₂ (Param.Alike same) qs qs')
    (ht : Option.Rel (Tail.Alike same) t t') :
    Params.Alike same (Grammar.Parameter.assemble ps qs t)
      (Grammar.Parameter.assemble ps' qs' t') := by
  cases ht with
  | none => exact .mk hps hqs .none .nil .none
  | some h => exact .mk hps hqs h.rest h.keywordOnly h.keywords

theorem alike_params {ps ps' : Option Params} (h : Option.Rel (Params.Alike same) ps ps') :
    Params.Alike same (ps.getD .empty) (ps'.getD .empty) := by
  cases h with
  | none => exact .mk .nil .nil .none .nil .none
  | some h => exact h

end

theorem Agrees.separator :
    F.Agrees .inside .inside (fun _ _ => True) (Grammar.Parameter.separator place)
      (Grammar.Parameter.separator place) :=
  have hclosing : Token.Kind.opens (.punct place.closing) = true := by cases place <;> rfl
  .orElse (.bind (.sym rfl) fun _ _ _ => .pure trivial) (.followedBy (.sym hclosing))

namespace Engines

variable [P.Le .edge] (hg : F.Engines g g')
include hg

theorem param :
    F.Agrees P .inside (SamePair F.lines.same (Param.Alike F.lines.same))
      (Grammar.Parameter.param g place) (Grammar.Parameter.param g' place) := by
  refine .rule (.bind .name fun _ _ ⟨hl⟩ => ?_)
  cases place with
  | function =>
    exact .bind (.opt (.rule (.bind (.sym rfl) fun _ _ _ =>
      hg.call .expression rfl))) fun _ _ hhint =>
      .pure ⟨hl, .mk hhint .none⟩
  | lambda => exact .pure ⟨hl, .mk .none .none⟩

theorem default :
    F.Agrees P .inside (Expr.Alike F.lines.same) (Grammar.Parameter.default g)
      (Grammar.Parameter.default g') :=
  .rule (.orElse (.bind (.sym rfl) fun _ _ _ => hg.call .expression rfl) .diagnose)

theorem noDefault :
    F.Agrees P .inside (SamePair F.lines.same (Param.Alike F.lines.same))
      (Grammar.Parameter.noDefault g place) (Grammar.Parameter.noDefault g' place) :=
  .rule (.bind hg.param fun _ _ hp => .bind .separator fun _ _ _ => .pure hp)

theorem hasDefault :
    F.Agrees P .inside (Param.Alike F.lines.same) (Grammar.Parameter.hasDefault g place)
      (Grammar.Parameter.hasDefault g' place) :=
  .rule (.bind hg.param fun _ _ hp => .bind hg.default fun _ _ hd =>
    .bind .separator fun _ _ _ => .pure (alike_withDefault hp.snd (.some hd)))

theorem maybeDefault :
    F.Agrees P .inside (Param.Alike F.lines.same) (Grammar.Parameter.maybeDefault g place)
      (Grammar.Parameter.maybeDefault g' place) :=
  .rule (.bind hg.param fun _ _ hp => .bind (.opt hg.default) fun _ _ hd =>
    .bind .separator fun _ _ _ => .pure (alike_withDefault hp.snd hd))

theorem slashNoDefault :
    F.Agrees P .inside (Forall₂ (Param.Alike F.lines.same))
      (Grammar.Parameter.slashNoDefault g place) (Grammar.Parameter.slashNoDefault g' place) :=
  .rule (.bind (.many1 hg.noDefault) fun _ _ hps => .bind (.sym rfl) fun _ _ _ =>
    .bind .separator fun _ _ _ => .pure (forall₂_unzip hps).2)

omit [P.Le .edge] in
theorem slashHasDefault :
    F.Agrees .inside .inside (Forall₂ (Param.Alike F.lines.same))
      (Grammar.Parameter.slashHasDefault g place) (Grammar.Parameter.slashHasDefault g' place) :=
  .rule (.bind (.many hg.noDefault) fun _ _ hps => .bind (.many1 hg.hasDefault)
    fun _ _ hqs => .bind (.sym rfl) fun _ _ _ => .bind .separator fun _ _ _ =>
      .pure (List.rel_append (forall₂_unzip hps).2 hqs))

theorem keywords :
    F.Agrees P .inside (Param.Alike F.lines.same) (Grammar.Parameter.keywords g place)
      (Grammar.Parameter.keywords g' place) :=
  .rule (.orElse .diagnose (.bind (.sym rfl) fun _ _ _ => .bind hg.noDefault fun _ _ hp =>
    .pure hp.snd))

theorem restParam :
    F.Agrees P .inside (Param.Alike F.lines.same) (Grammar.Parameter.restParam g place)
      (Grammar.Parameter.restParam g' place) := by
  refine .orElse (.bind hg.noDefault fun _ _ hp => .pure hp.snd) ?_
  cases place with
  | function =>
    exact .rule (.bind .ident fun _ _ hid => .bind (.sym rfl) fun _ _ _ =>
      .bind (hg.call .starExpression rfl) fun _ _ hhint => .bind .separator fun _ _ _ =>
        .pure (hid ▸ .mk (.some hhint) .none))
  | lambda => exact .fail

theorem tail :
    F.Agrees P .inside (Tail.Alike F.lines.same) (Grammar.Parameter.tail g place)
      (Grammar.Parameter.tail g' place) :=
  .rule (.orElse .diagnose (.orElse
    (.bind (.sym rfl) fun _ _ _ => .bind hg.restParam fun _ _ hrest =>
      .bind (.many hg.maybeDefault) fun _ _ honly => .bind (.opt hg.keywords) fun _ _ hkeywords =>
        .pure ⟨.some hrest, honly, hkeywords⟩)
    (.orElse
      (.bind (.sym rfl) fun _ _ _ => .bind (.sym rfl) fun _ _ _ => .bind (.many1 hg.maybeDefault)
        fun _ _ honly => .bind (.opt hg.keywords) fun _ _ hkeywords =>
          .pure ⟨.none, honly, hkeywords⟩)
      (.bind hg.keywords fun _ _ hkeywords => .pure ⟨.none, .nil, .some hkeywords⟩))))

omit [P.Le .edge] in
theorem params :
    F.Agrees .inside .inside (Params.Alike F.lines.same) (Grammar.params g place)
      (Grammar.params g' place) :=
  .rule (.orElse .diagnose (.orElse
    (.bind hg.slashNoDefault fun _ _ ha => .bind (.many hg.noDefault) fun _ _ hb =>
      .bind (.many hg.hasDefault) fun _ _ hc => .bind (.opt hg.tail) fun _ _ ht =>
        .pure (alike_assemble ha (List.rel_append (forall₂_unzip hb).2 hc) ht))
    (.orElse
      (.bind hg.slashHasDefault fun _ _ ha => .bind (.many hg.hasDefault) fun _ _ hb =>
        .bind (.opt hg.tail) fun _ _ ht => .pure (alike_assemble ha hb ht))
      (.orElse
        (.bind (.many1 hg.noDefault) fun _ _ ha => .bind (.many hg.hasDefault) fun _ _ hb =>
          .bind (.opt hg.tail) fun _ _ ht =>
            .pure (alike_assemble .nil (List.rel_append (forall₂_unzip ha).2 hb) ht))
        (.orElse
          (.bind (.many1 hg.hasDefault) fun _ _ ha => .bind (.opt hg.tail) fun _ _ ht =>
            .pure (alike_assemble .nil ha ht))
          (.bind hg.tail fun _ _ ht => .pure (alike_assemble .nil .nil (.some ht))))))))

theorem lambda :
    F.Agrees P .inside (Expr.Alike F.lines.same) (Grammar.lambda g) (Grammar.lambda g') :=
  .rule (.bind (.kw rfl) fun _ _ hl => .bind (.opt hg.params) fun _ _ hps => .bind (.sym rfl)
    fun _ _ _ => .bind (hg.call .expression rfl) fun _ _ ha =>
      .pure (.lambda hl (alike_params hps) ha))

theorem expressionBody :
    F.Agrees P .inside (Expr.Alike F.lines.same) (Grammar.expressionBody g)
      (Grammar.expressionBody g') :=
  .orElse .diagnose (.orElse .diagnose (.orElse hg.conditional hg.lambda))

end Engines

end NotebookSlice.Syntax.Frame
