import NotebookSlice.Proofs.Syntax.Agree
import NotebookSlice.Syntax.Grammar.Expression

/-! # Expressions on a frame

The rules for expressions agree on a frame if the nonterminals do. They stay
inside the lines of a statement.
-/

namespace NotebookSlice.Syntax.Frame

open List (Forall₂)

variable {F : Frame} {g g' : Engine} {P : Region}

/-! ## Results put together -/

section Results

variable {α β γ δ : Type} {R : α → β → Prop} {S : γ → δ → Prop}

theorem forall₂_getD {as : Option (List α)} {bs : Option (List β)}
    (h : Option.Rel (Forall₂ R) as bs) : Forall₂ R (as.getD []) (bs.getD []) := by
  cases h with
  | none => exact .nil
  | some h => exact h

theorem rel_join {a : Option (Option α)} {b : Option (Option β)}
    (h : Option.Rel (Option.Rel R) a b) : Option.Rel R a.join b.join := by
  cases h with
  | none => exact .none
  | some h => exact h

/-- Pairs whose parts are related. -/
structure SamePair (R : α → β → Prop) (S : γ → δ → Prop) (x : α × γ) (y : β × δ) : Prop where
  fst : R x.1 y.1
  snd : S x.2 y.2

theorem forall₂_unzip {xs : List (α × γ)} {ys : List (β × δ)} (h : Forall₂ (SamePair R S) xs ys) :
    Forall₂ R (xs.map (·.1)) (ys.map (·.1)) ∧ Forall₂ S (xs.map (·.2)) (ys.map (·.2)) := by
  induction h with
  | nil => exact ⟨.nil, .nil⟩
  | cons h _ ih => exact ⟨.cons h.fst ih.1, .cons h.snd ih.2⟩

end Results

inductive LateArgument.Alike (same : Nat → Nat → Prop) :
    Grammar.LateArgument → Grammar.LateArgument → Prop
  | starred {e e' : Expr} : Expr.Alike same e e' → Alike same (.starred e) (.starred e')
  | keyword {a a' : Argument} : Argument.Alike same a a' → Alike same (.keyword a) (.keyword a')

theorem alike_callArguments {same : Nat → Nat → Prop} {es es' : List Expr}
    {ls ls' : List Grammar.LateArgument} (hes : Forall₂ (Expr.Alike same) es es')
    (hls : Forall₂ (LateArgument.Alike same) ls ls') :
    CallArguments.Alike same (Grammar.callArguments es ls) (Grammar.callArguments es' ls') where
  positional := by
    refine List.rel_append hes (List.rel_filterMap (fun _ _ h => ?_) hls)
    cases h with
    | starred h => exact .some h
    | keyword _ => exact .none
  keywords := by
    refine List.rel_filterMap (fun _ _ h => ?_) hls
    cases h with
    | starred _ => exact .none
    | keyword h => exact .some h

namespace Agrees

theorem closedBy {α : Type} {R : α → α → Prop} {p p' : Parser α} {mark : Punct}
    (hmark : Token.Kind.opens (.punct mark) = true) (h : F.Agrees P .inside R p p') :
    F.Agrees P .inside R (Grammar.closedBy p mark) (Grammar.closedBy p' mark) :=
  .bind h fun _ _ ha => .bind (.sym hmark) fun _ _ _ => .pure ha

variable [P.Le .edge]

theorem enclosed {α : Type} {R : α → α → Prop} {p p' : Parser α} {opening closing : Punct}
    (hopening : Token.Kind.opens (.punct opening) = true)
    (hclosing : Token.Kind.opens (.punct closing) = true)
    (h : F.Agrees .inside .inside R p p') :
    F.Agrees P .inside R (Grammar.enclosed opening p closing)
      (Grammar.enclosed opening p' closing) :=
  .bind (.sym hopening) fun _ _ _ => .closedBy hclosing h

theorem word {k : Keyword} {text : String}
    (h : Token.Kind.opens (.keyword k) = true) :
    F.Agrees P .inside (Expr.Alike F.lines.same) (Grammar.word k text) (Grammar.word k text) :=
  .bind (.kw h) fun _ _ hl => .pure (.literal hl)

theorem tupled {p p' : Parser Expr}
    (h : ∀ {P : Region} [P.Le .edge], F.Agrees P .inside (Expr.Alike F.lines.same) p p') :
    F.Agrees P .inside (Expr.Alike F.lines.same) (Grammar.tupled p) (Grammar.tupled p') := by
  refine .bind .lineHere fun _ _ hl => .bind h fun _ _ hfirst =>
    .bind (.many (.bind (.sym rfl) fun _ _ _ => h)) fun _ _ hmore =>
      .bind (.opt (.sym rfl)) fun _ _ hcomma => ?_
  cases hcomma with
  | none =>
    cases hmore with
    | nil => exact .pure hfirst
    | cons ha has => exact .pure (.tuple hl (.cons hfirst (.cons ha has)))
  | some _ => exact .pure (.tuple hl (.cons hfirst hmore))

theorem stringToken :
    F.Agrees P .inside (SameText F.lines.same) Grammar.stringToken Grammar.stringToken := by
  refine .accept (fun t => ?_) fun t t' ht => ?_
  · cases hkind : t.kind <;> simp [Token.Kind.opens]
  · rw [ht.kind]
    cases hkind : t.kind with
    | string text => exact .some ⟨ht.line (by rw [Token.isLayout_eq, hkind]; rfl)⟩
    | _ => exact .none

theorem number :
    F.Agrees P .inside (Expr.Alike F.lines.same) Grammar.number Grammar.number := by
  refine .bind (R := SameText F.lines.same) (.accept (fun t => ?_) fun t t' ht => ?_) ?_
  · cases hkind : t.kind <;> simp [Token.Kind.opens]
  · rw [ht.kind]
    cases hkind : t.kind with
    | number digits => exact .some ⟨ht.line (by rw [Token.isLayout_eq, hkind]; rfl)⟩
    | _ => exact .none
  · rintro _ _ ⟨hl⟩
    simp only
    split
    · exact .raiseAt
    · exact .pure (.literal hl)

theorem chain {p p' : Parser Expr} {op? : Punct → Option BinaryOp}
    (h : ∀ {P : Region} [P.Le .edge], F.Agrees P .inside (Expr.Alike F.lines.same) p p') :
    F.Agrees P .inside (Expr.Alike F.lines.same) (Grammar.chain p op?)
      (Grammar.chain p' op?) := by
  refine .bind .lineHere fun _ _ hl => .grow h fun _ _ ha =>
    .bind (R := Eq) (.acceptInside (fun t => ?_) fun t t' ht => ?_) fun _ _ hop => .bind h
      fun _ _ hb => .pure (hop ▸ .binary hl ha hb)
  · cases hkind : t.kind <;> simp [Token.Kind.isPlain]
  · rw [ht.kind]
    cases t.kind with
    | punct mark =>
      simp only
      cases op? mark with
      | none => exact .none
      | some op => exact .some rfl
    | _ => exact .none

omit [P.Le .edge] in
theorem compareOp :
    F.Agrees .inside .inside Eq Grammar.compareOp Grammar.compareOp := by
  refine .orElse (.acceptInside (fun t => ?_) fun t t' ht => ?_) (.orElse
    (.bind (.kw rfl) fun _ _ _ => .bind (.kw rfl) fun _ _ _ => .pure rfl)
    (.bind (.kw rfl) fun _ _ _ => .bind (.opt (.kw rfl)) fun _ _ hnot => .pure ?_))
  · cases hkind : t.kind <;> simp [Token.Kind.isPlain]
  · rw [ht.kind]
    split <;> first | exact .some rfl | exact .none
  · cases hnot <;> rfl

theorem joined {p p' : Parser Expr} {k : Keyword} {op : BoolOp}
    (h : ∀ {P : Region} [P.Le .edge], F.Agrees P .inside (Expr.Alike F.lines.same) p p') :
    F.Agrees P .inside (Expr.Alike F.lines.same) (Grammar.joined p k op)
      (Grammar.joined p' k op) := by
  refine .bind .lineHere fun _ _ hl => .bind h fun _ _ hfirst =>
    .bind (.many (.bind .kwInside fun _ _ _ => h)) fun _ _ hmore => ?_
  cases hmore with
  | nil => exact .pure hfirst
  | cons ha has => exact .pure (.bool hl (.cons hfirst (.cons ha has)))

end Agrees

namespace Engines

variable [P.Le .edge] (hg : F.Engines g g')
include hg

theorem starTargets :
    F.Agrees P .inside (Expr.AlikeTarget F.lines.same) (Grammar.starTargets g)
      (Grammar.starTargets g') :=
  .rule (.bind .lineHere fun _ _ hl => .bind (hg.call .starTarget rfl) fun _ _ hfirst => .orElse
    (.bind (.notFollowedBy (.sym rfl)) fun _ _ _ => .pure hfirst)
    (.bind (.many (.bind (.sym rfl) fun _ _ _ => hg.call .starTarget rfl)) fun _ _ hmore =>
      .bind (.opt (.sym rfl)) fun _ _ _ => .pure (.tuple hl (.cons hfirst hmore))))

theorem starExpressions :
    F.Agrees P .inside (Expr.Alike F.lines.same) (Grammar.starExpressions g)
      (Grammar.starExpressions g') :=
  .rule (.tupled (hg.call .starExpression rfl))

theorem starExpressionBody :
    F.Agrees P .inside (Expr.Alike F.lines.same) (Grammar.starExpressionBody g)
      (Grammar.starExpressionBody g') :=
  .bind .lineHere fun _ _ hl => .orElse
    (.bind (.sym rfl) fun _ _ _ => .bind (hg.call .bitwiseOr rfl) fun _ _ ha =>
      .pure (.starred hl ha))
    (hg.call .expression rfl)

theorem yieldExpr :
    F.Agrees P .inside (Expr.Alike F.lines.same) (Grammar.yieldExpr g) (Grammar.yieldExpr g') :=
  .rule (.bind .lineHere fun _ _ hl => .orElse
    (.bind (.kw rfl) fun _ _ _ => .bind (.kw rfl) fun _ _ _ =>
      .bind (hg.call .expression rfl) fun _ _ ha =>
      .pure (.yieldFrom hl ha))
    (.bind (.kw rfl) fun _ _ _ => .bind (.opt hg.starExpressions) fun _ _ ha =>
      .pure (.yield hl ha)))

theorem yieldOrStar :
    F.Agrees P .inside (Expr.Alike F.lines.same) (Grammar.yieldOrStar g) (Grammar.yieldOrStar g') :=
  .orElse hg.yieldExpr hg.starExpressions

theorem assignmentExpression :
    F.Agrees P .inside (Expr.Alike F.lines.same) (Grammar.assignmentExpression g)
      (Grammar.assignmentExpression g') :=
  .rule (.bind .name fun _ _ ⟨hl⟩ => .bind (.sym rfl) fun _ _ _ => .commit
    (.bind (hg.call .expression rfl) fun _ _ ha => .pure (.walrus hl ha)))

theorem namedExpression :
    F.Agrees P .inside (Expr.Alike F.lines.same) (Grammar.namedExpression g)
      (Grammar.namedExpression g') :=
  .rule (.orElse hg.assignmentExpression (.orElse .diagnose
    (.bind (hg.call .expression rfl) fun _ _ ha => .bind (.notFollowedBy (.sym rfl)) fun _ _ _ =>
      .pure ha)))

theorem assignmentOrPlain :
    F.Agrees P .inside (Expr.Alike F.lines.same) (Grammar.assignmentOrPlain g)
      (Grammar.assignmentOrPlain g') :=
  .orElse hg.assignmentExpression
    (.bind (hg.call .expression rfl) fun _ _ ha => .bind (.notFollowedBy (.sym rfl)) fun _ _ _ =>
      .pure ha)

theorem starNamedExpression :
    F.Agrees P .inside (Expr.Alike F.lines.same) (Grammar.starNamedExpression g)
      (Grammar.starNamedExpression g') :=
  .rule (.bind .lineHere fun _ _ hl => .orElse
    (.bind (.sym rfl) fun _ _ _ => .bind (hg.call .bitwiseOr rfl) fun _ _ ha =>
      .pure (.starred hl ha))
    hg.namedExpression)

theorem starNamedExpressions :
    F.Agrees P .inside (Forall₂ (Expr.Alike F.lines.same)) (Grammar.starNamedExpressions g)
      (Grammar.starNamedExpressions g') :=
  .rule (.bind (.sepBy1 hg.starNamedExpression (.sym rfl)) fun _ _ has =>
    .bind (.opt (.sym rfl)) fun _ _ _ =>
    .pure has)

theorem starredExpression :
    F.Agrees P .inside (Expr.Alike F.lines.same) (Grammar.starredExpression g)
      (Grammar.starredExpression g') :=
  .rule (.bind (.sym rfl) fun _ _ hl => .bind (hg.call .expression rfl) fun _ _ ha =>
    .pure (.starred hl ha))

/-! ## Comprehensions -/

theorem generatorRest {async : Bool} :
    F.Agrees P .inside (Generator.Alike F.lines.same) (Grammar.generatorRest g async)
      (Grammar.generatorRest g' async) :=
  .bind (.kw rfl) fun _ _ _ => .bind hg.starTargets fun _ _ htarget => .bind (.kw rfl) fun _ _ _ =>
    .commit
    (.bind (hg.call .disjunction rfl) fun _ _ hiter =>
      .bind (.many (.bind (.kw rfl) fun _ _ _ => hg.call .disjunction rfl)) fun _ _ hconditions =>
        .pure (.mk htarget hiter hconditions))

theorem generator :
    F.Agrees P .inside (Generator.Alike F.lines.same) (Grammar.generator g)
      (Grammar.generator g') :=
  .rule (.orElse (.bind (.kw rfl) fun _ _ _ =>
    hg.generatorRest) (.orElse hg.generatorRest .diagnose))

theorem generators :
    F.Agrees P .inside (Forall₂ (Generator.Alike F.lines.same)) (Grammar.generators g)
      (Grammar.generators g') :=
  .rule (.many1 hg.generator)

theorem listComp :
    F.Agrees P .inside (Expr.Alike F.lines.same) (Grammar.listComp g) (Grammar.listComp g') :=
  .rule (.orElse (.bind (.sym rfl) fun _ _ hl => .bind hg.namedExpression fun _ _ ha =>
    .bind (.closedBy rfl hg.generators) fun _ _ hgs => .pure (.listComp hl ha hgs)) .diagnose)

theorem setComp :
    F.Agrees P .inside (Expr.Alike F.lines.same) (Grammar.setComp g) (Grammar.setComp g') :=
  .rule (.orElse (.bind (.sym rfl) fun _ _ hl => .bind hg.namedExpression fun _ _ ha =>
    .bind (.closedBy rfl hg.generators) fun _ _ hgs => .pure (.setComp hl ha hgs)) .diagnose)

theorem genExp :
    F.Agrees P .inside (Expr.Alike F.lines.same) (Grammar.genExp g) (Grammar.genExp g') :=
  .rule (.orElse (.bind (.sym rfl) fun _ _ hl => .bind hg.assignmentOrPlain fun _ _ ha =>
    .bind (.closedBy rfl hg.generators) fun _ _ hgs => .pure (.genExp hl ha hgs)) .diagnose)

/-! ## Brackets -/

theorem group :
    F.Agrees P .inside (Expr.Alike F.lines.same) (Grammar.group g) (Grammar.group g') :=
  .rule (.orElse (.enclosed rfl rfl (.orElse hg.yieldExpr hg.namedExpression)) .diagnose)

theorem tuple :
    F.Agrees P .inside (Expr.Alike F.lines.same) (Grammar.tuple g) (Grammar.tuple g') := by
  refine .rule (.bind (.sym rfl) fun _ _ hl => .bind (.opt (R := Forall₂ (Expr.Alike F.lines.same))
    (.bind hg.starNamedExpression fun _ _ hfirst => .bind (.sym rfl) fun _ _ _ =>
      .bind (.opt hg.starNamedExpressions) fun _ _ hmore =>
        .pure (.cons hfirst (forall₂_getD hmore))))
    fun _ _ hes => .bind (.sym rfl) fun _ _ _ => .pure (.tuple hl (forall₂_getD hes)))

theorem list :
    F.Agrees P .inside (Expr.Alike F.lines.same) (Grammar.list g) (Grammar.list g') :=
  .rule (.bind (.sym rfl) fun _ _ hl => .bind (.opt hg.starNamedExpressions) fun _ _ hes =>
    .bind (.sym rfl) fun _ _ _ => .pure (.list hl (forall₂_getD hes)))

theorem set :
    F.Agrees P .inside (Expr.Alike F.lines.same) (Grammar.set g) (Grammar.set g') :=
  .rule (.bind (.sym rfl) fun _ _ hl => .bind (.closedBy rfl hg.starNamedExpressions) fun _ _ hes =>
    .pure (.set hl hes))

theorem pair :
    F.Agrees P .inside (SamePair (Expr.Alike F.lines.same) (Expr.Alike F.lines.same))
      (Grammar.pair g) (Grammar.pair g') :=
  .rule (.bind (hg.call .expression rfl) fun _ _ hk => .bind (.sym rfl) fun _ _ _ =>
    .bind (hg.call .expression rfl) fun _ _ hv => .pure ⟨hk, hv⟩)

theorem entry :
    F.Agrees P .inside (Entry.Alike F.lines.same) (Grammar.entry g) (Grammar.entry g') :=
  .rule (.orElse
    (.bind (.sym rfl) fun _ _ _ => .bind (hg.call .bitwiseOr rfl) fun _ _ ha => .pure (.unpack ha))
    (.bind hg.pair fun _ _ ⟨hk, hv⟩ => .pure (.pair hk hv)))

theorem entries :
    F.Agrees P .inside (Forall₂ (Entry.Alike F.lines.same)) (Grammar.entries g)
      (Grammar.entries g') :=
  .rule (.bind (.sepBy1 hg.entry (.sym rfl)) fun _ _ hes => .bind (.opt (.sym rfl)) fun _ _ _ =>
    .pure hes)

theorem misplacedValue {α : Type} {R : α → α → Prop} :
    F.Agrees P .inside R (Grammar.misplacedValue g) (Grammar.misplacedValue g') :=
  .orElse
    (.bind (hg.call .expression rfl) fun _ _ _ => .bind (.sym rfl) fun _ _ _ =>
      .bind (.sym rfl) fun _ _ _ =>
      .bind (hg.call .bitwiseOr rfl) fun _ _ _ => .raiseAt)
    (.bind (hg.call .expression rfl) fun _ _ _ => .bind (.sym rfl) fun _ _ _ =>
      .bind (.followedBy (.orElse (.sym rfl) (.sym rfl))) fun _ _ _ => .raiseAt)

theorem misplacedEntries {α : Type} {R : α → α → Prop} :
    F.Agrees P .inside R (Grammar.misplacedEntries g) (Grammar.misplacedEntries g') :=
  .rule (.orElse
    (.bind (.sepBy1 hg.entry (.sym rfl)) fun _ _ _ => .bind (.sym rfl) fun _ _ _ => .rule (.orElse
      (.bind (hg.call .expression rfl) fun _ _ _ => .bind (.notFollowedBy (.sym rfl)) fun _ _ _ =>
        .raiseAt)
      hg.misplacedValue))
    hg.misplacedValue)

theorem dict :
    F.Agrees P .inside (Expr.Alike F.lines.same) (Grammar.dict g) (Grammar.dict g') :=
  .rule (.orElse
    (.bind (.sym rfl) fun _ _ hl => .bind (.opt hg.entries) fun _ _ hes =>
      .bind (.sym rfl) fun _ _ _ =>
      .pure (.dict hl (forall₂_getD hes)))
    (.enclosed rfl rfl hg.misplacedEntries))

theorem dictComp :
    F.Agrees P .inside (Expr.Alike F.lines.same) (Grammar.dictComp g) (Grammar.dictComp g') :=
  .rule (.orElse
    (.bind (.sym rfl) fun _ _ hl => .bind hg.pair fun _ _ ⟨hk, hv⟩ =>
      .bind (.closedBy rfl hg.generators) fun _ _ hgs => .pure (.dictComp hl hk hv hgs))
    .diagnose)

/-! ## Atoms -/

theorem atom :
    F.Agrees P .inside (Expr.Alike F.lines.same) (Grammar.atom g) (Grammar.atom g') :=
  .rule (.orElse .nameExpr (.orElse (.word rfl) (.orElse (.word rfl) (.orElse (.word rfl) (.orElse
    (.bind (.followedBy .stringToken) fun _ _ _ => hg.call .strings rfl)
    (.orElse .number (.orElse
      (.bind (.followedBy (.sym rfl)) fun _ _ _ => .orElse hg.tuple (.orElse hg.group hg.genExp))
      (.orElse (.bind (.followedBy (.sym rfl)) fun _ _ _ => .orElse hg.list hg.listComp) (.orElse
        (.bind (.followedBy (.sym rfl)) fun _ _ _ =>
          .orElse hg.dict (.orElse hg.set (.orElse hg.dictComp hg.setComp)))
        (.bind (.sym rfl) fun _ _ hl => .pure (.literal hl)))))))))))

/-! ## Subscripts -/

theorem slice :
    F.Agrees P .inside (Expr.Alike F.lines.same) (Grammar.slice g) (Grammar.slice g') :=
  .rule (.orElse
    (.bind .lineHere fun _ _ hl => .bind (.optEdge (hg.call .expression rfl)) fun _ _ hlower =>
      .bind (.sym rfl) fun _ _ _ => .bind (.opt (hg.call .expression rfl)) fun _ _ hupper =>
        .bind (.opt (.bind (.sym rfl) fun _ _ _ => .opt (hg.call .expression rfl))) fun _ _ hstep =>
          .pure (.slice hl hlower hupper (rel_join hstep)))
    hg.namedExpression)

theorem slices :
    F.Agrees P .inside (Expr.Alike F.lines.same) (Grammar.slices g) (Grammar.slices g') :=
  .rule (.bind .lineHere fun _ _ hl => .orElse
    (.bind hg.slice fun _ _ ha => .bind (.notFollowedBy (.sym rfl)) fun _ _ _ => .pure ha)
    (.bind (.sepBy1 (.orElse hg.slice hg.starredExpression) (.sym rfl)) fun _ _ hes =>
      .bind (.opt (.sym rfl)) fun _ _ _ => .pure (.tuple hl hes)))

/-! ## Arguments of calls -/

theorem keywordArgument :
    F.Agrees P .inside (LateArgument.Alike F.lines.same) (Grammar.keywordArgument g)
      (Grammar.keywordArgument g') :=
  .bind .ident fun _ _ hid => .bind (.sym rfl) fun _ _ _ =>
    .bind (hg.call .expression rfl) fun _ _ ha =>
    .pure (hid ▸ .keyword (.mk ha))

theorem keywordOrStarred :
    F.Agrees P .inside (LateArgument.Alike F.lines.same) (Grammar.keywordOrStarred g)
      (Grammar.keywordOrStarred g') :=
  .rule (.orElse .diagnose (.orElse hg.keywordArgument
    (.bind hg.starredExpression fun _ _ ha => .pure (.starred ha))))

theorem keywordOrDoubleStarred :
    F.Agrees P .inside (LateArgument.Alike F.lines.same) (Grammar.keywordOrDoubleStarred g)
      (Grammar.keywordOrDoubleStarred g') :=
  .rule (.orElse .diagnose (.orElse hg.keywordArgument
    (.bind (.sym rfl) fun _ _ _ => .bind (hg.call .expression rfl) fun _ _ ha =>
      .pure (.keyword (.mk ha)))))

theorem lateArguments :
    F.Agrees P .inside (Forall₂ (LateArgument.Alike F.lines.same)) (Grammar.lateArguments g)
      (Grammar.lateArguments g') :=
  .rule (.orElse
    (.bind (.sepBy1 hg.keywordOrStarred (.sym rfl)) fun _ _ has => .bind (.sym rfl) fun _ _ _ =>
      .bind (.sepBy1 hg.keywordOrDoubleStarred (.sym rfl)) fun _ _ hbs =>
        .pure (List.rel_append has hbs))
    (.orElse (.sepBy1 hg.keywordOrStarred (.sym rfl)) (.sepBy1 hg.keywordOrDoubleStarred
      (.sym rfl))))

theorem positionalArgument :
    F.Agrees P .inside (Expr.Alike F.lines.same) (Grammar.positionalArgument g)
      (Grammar.positionalArgument g') :=
  .orElse hg.starredExpression
    (.bind hg.assignmentOrPlain fun _ _ ha => .bind (.notFollowedBy (.sym rfl)) fun _ _ _ =>
      .pure ha)

theorem args :
    F.Agrees P .inside (CallArguments.Alike F.lines.same) (Grammar.args g) (Grammar.args g') :=
  .rule (.orElse
    (.bind (.sepBy1 hg.positionalArgument (.sym rfl)) fun _ _ hearly =>
      .bind (.opt (.bind (.sym rfl) fun _ _ _ => hg.lateArguments)) fun _ _ hlate =>
        .pure (alike_callArguments hearly (forall₂_getD hlate)))
    (.bind hg.lateArguments fun _ _ hlate => .pure (alike_callArguments .nil hlate)))

theorem argumentsBody :
    F.Agrees P .inside (CallArguments.Alike F.lines.same) (Grammar.argumentsBody g)
      (Grammar.argumentsBody g') :=
  .orElse (.bind hg.args fun _ _ ha => .bind (.opt (.sym rfl)) fun _ _ _ =>
    .bind (.followedBy (.sym rfl)) fun _ _ _ => .pure ha) .diagnose

/-! ## Primaries -/

theorem extendPrimary {l l' : Nat} {e e' : Expr} {after after' : Parser Unit}
    (hl : F.lines.same l l') (he : Expr.Alike F.lines.same e e')
    (hafter : F.Agrees .inside .inside (fun _ _ => True) after after') :
    F.Agrees P .inside (Expr.Alike F.lines.same) (Grammar.extendPrimary g l after e)
      (Grammar.extendPrimary g' l' after' e') := by
  refine .orElse (.bind (.sym rfl) fun _ _ _ => .bind .ident fun _ _ hid =>
    .bind hafter fun _ _ _ =>
    .pure (hid ▸ .attribute hl he)) (.orElse (.bind hg.genExp fun _ _ ha =>
    .bind hafter fun _ _ _ => .pure (.call hl he (.cons ha .nil) .nil)) (.orElse
    (.bind (.sym rfl) fun _ _ _ => .bind (.opt (hg.call .arguments rfl)) fun _ _ harguments =>
      .bind (.sym rfl) fun _ _ _ => .bind hafter fun _ _ _ => ?_)
    (.bind (.sym rfl) fun _ _ _ => .bind (.closedBy rfl hg.slices) fun _ _ ha =>
      .bind hafter fun _ _ _ =>
      .pure (.subscript hl he ha))))
  cases harguments with
  | none => exact .pure (.call hl he .nil .nil)
  | some h => exact .pure (.call hl he h.positional h.keywords)

theorem primaryBody :
    F.Agrees P .inside (Expr.Alike F.lines.same) (Grammar.primaryBody g)
      (Grammar.primaryBody g') :=
  .bind .lineHere fun _ _ hl => .grow hg.atom fun _ _ ha =>
    hg.extendPrimary hl ha (.pure trivial)

theorem awaitPrimaryBody :
    F.Agrees P .inside (Expr.Alike F.lines.same) (Grammar.awaitPrimaryBody g)
      (Grammar.awaitPrimaryBody g') :=
  .orElse (.bind (.kw rfl) fun _ _ hl => .bind (hg.call .primary rfl) fun _ _ ha =>
    .pure (.await hl ha))
    (hg.call .primary rfl)

/-! ## Operators -/

theorem power :
    F.Agrees P .inside (Expr.Alike F.lines.same) (Grammar.power g) (Grammar.power g') := by
  refine .rule (.bind .lineHere fun _ _ hl => .bind (hg.call .awaitPrimary rfl) fun _ _ hbase =>
    .bind (.opt (.bind (.sym rfl) fun _ _ _ => hg.call .factor rfl)) fun _ _ hexponent => ?_)
  cases hexponent with
  | none => exact .pure hbase
  | some h => exact .pure (.binary hl hbase h)

theorem factorBody :
    F.Agrees P .inside (Expr.Alike F.lines.same) (Grammar.factorBody g)
      (Grammar.factorBody g') :=
  have signed {mark : Punct} {op : UnaryOp} (h : Token.Kind.opens (.punct mark) = true) :
      F.Agrees P .inside (Expr.Alike F.lines.same)
        (do
          let t ← Parser.sym mark
          return .unary t.line op (← g.call .factor))
        (do
          let t ← Parser.sym mark
          return .unary t.line op (← g'.call .factor)) :=
    .bind (.sym h) fun _ _ hl => .bind (hg.call .factor rfl) fun _ _ ha => .pure (.unary hl ha)
  .orElse (signed rfl) (.orElse (signed rfl) (.orElse (signed rfl) hg.power))

theorem comparison :
    F.Agrees P .inside (Expr.Alike F.lines.same) (Grammar.comparison g)
      (Grammar.comparison g') := by
  refine .rule (.bind .lineHere fun _ _ hl => .bind (hg.call .bitwiseOr rfl) fun _ _ hleft =>
    .bind (.many (R := SamePair Eq (Expr.Alike F.lines.same)) (.bind .compareOp
      fun _ _ hop => .bind (hg.call .bitwiseOr rfl) fun _ _ ha => .pure ⟨hop, ha⟩))
      fun _ _ hrest => ?_)
  obtain ⟨hops, has⟩ := forall₂_unzip hrest
  rw [List.forall₂_eq_eq_eq] at hops
  cases hrest with
  | nil => exact .pure hleft
  | cons h hs => exact .pure (hops ▸ .compare hl hleft has)

theorem inversionBody :
    F.Agrees P .inside (Expr.Alike F.lines.same) (Grammar.inversionBody g)
      (Grammar.inversionBody g') :=
  .orElse (.bind (.kw rfl) fun _ _ hl => .bind (hg.call .inversion rfl) fun _ _ ha =>
    .pure (.unary hl ha))
    hg.comparison

theorem conditional :
    F.Agrees P .inside (Expr.Alike F.lines.same) (Grammar.conditional g)
      (Grammar.conditional g') :=
  .bind .lineHere fun _ _ hl => .orElse
    (.bind (hg.call .disjunction rfl) fun _ _ hbody => .bind (.kw rfl) fun _ _ _ =>
      .bind (hg.call .disjunction rfl) fun _ _ htest => .bind .kwInside fun _ _ _ =>
        .bind (hg.call .expression rfl) fun _ _ horelse =>
          .pure (.conditional hl htest hbody horelse))
    (hg.call .disjunction rfl)

end Engines

end NotebookSlice.Syntax.Frame
