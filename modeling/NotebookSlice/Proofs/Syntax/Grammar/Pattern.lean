import NotebookSlice.Proofs.Syntax.Grammar.Expression
import NotebookSlice.Syntax.Grammar.Pattern

/-! # Patterns on a frame -/

namespace NotebookSlice.Syntax.Frame

open List (Forall₂)

variable {F : Frame} {g g' : Engine} {P : Region}

theorem alike_path {same : Nat → Nat → Prop} {l l' : Nat} (hl : same l l') {e e' : Expr}
    (he : Expr.Alike same e e') (attrs : List String) :
    Expr.Alike same (attrs.foldl (fun subject attr => .attribute l .load subject attr) e)
      (attrs.foldl (fun subject attr => .attribute l' .load subject attr) e') := by
  induction attrs generalizing e e' with
  | nil => exact he
  | cons attr attrs ih => exact ih (.attribute hl he)

namespace Agrees

theorem pathAhead :
    F.Agrees .inside .inside (fun _ _ => True) Grammar.pathAhead Grammar.pathAhead :=
  .bind (.orElse (.sym rfl) (.orElse (.sym rfl) (.sym rfl))) fun _ _ _ => .pure trivial

theorem closeBrace :
    F.Agrees .inside .inside (fun _ _ => True) Grammar.closeBrace Grammar.closeBrace :=
  .bind (.opt (.sym rfl)) fun _ _ _ => .bind (.sym rfl) fun _ _ _ => .pure trivial

theorem closePar :
    F.Agrees .inside .inside (fun _ _ => True) Grammar.closePar Grammar.closePar :=
  .bind (.opt (.sym rfl)) fun _ _ _ => .bind (.sym rfl) fun _ _ _ => .pure trivial

variable [P.Le .edge]

theorem captureTarget : F.Agrees P .inside Eq Grammar.captureTarget Grammar.captureTarget :=
  .rule (.bind (.notFollowedBy .soft) fun _ _ _ => .bind .ident fun _ _ hid =>
    .bind (.notFollowedBy .pathAhead) fun _ _ _ => .pure hid)

theorem attributePathBody :
    F.Agrees P .inside (Expr.Alike F.lines.same) Grammar.attributePathBody
      Grammar.attributePathBody := by
  refine .bind .lineHere fun _ _ hl => .bind .nameExpr fun _ _ hfirst =>
    .bind (.many1 (.bind (.sym rfl) fun _ _ _ => .ident)) fun _ _ hattrs => .pure ?_
  rw [List.forall₂_eq_eq_eq] at hattrs
  exact hattrs ▸ alike_path hl hfirst _

theorem part {imaginary : Bool} :
    F.Agrees P .inside (Expr.Alike F.lines.same) (Grammar.part imaginary)
      (Grammar.part imaginary) := by
  refine .rule (.bind .number fun e e' he => ?_)
  have halike := he
  cases he with
  | literal hl =>
    simp only
    split
    · exact .pure (.literal hl)
    · exact .raiseAt
  | _ => exact .pure halike

theorem signed {p p' : Parser Expr}
    (h : ∀ {P : Region} [P.Le .edge], F.Agrees P .inside (Expr.Alike F.lines.same) p p') :
    F.Agrees P .inside (Expr.Alike F.lines.same) (Grammar.signed p) (Grammar.signed p') :=
  .rule (.orElse h (.bind (.sym rfl) fun _ _ hl => .bind h fun _ _ ha => .pure (.unary hl ha)))

theorem signedNumber :
    F.Agrees P .inside (Expr.Alike F.lines.same) Grammar.signedNumber Grammar.signedNumber :=
  .bind (.signed .number) fun _ _ ha => .bind (.notFollowedBy (.orElse (.sym rfl) (.sym rfl)))
    fun _ _ _ => .pure ha

theorem complexNumber :
    F.Agrees P .inside (Expr.Alike F.lines.same) Grammar.complexNumber Grammar.complexNumber :=
  .rule (.bind .lineHere fun _ _ hl => .orElse
    (.bind (.signed .part) fun _ _ hre => .bind (.sym rfl) fun _ _ _ => .bind .part fun _ _ him =>
      .pure (.binary hl hre him))
    (.bind (.signed .part) fun _ _ hre => .bind (.sym rfl) fun _ _ _ => .bind .part fun _ _ him =>
      .pure (.binary hl hre him)))

theorem constantWord :
    F.Agrees P .inside (Expr.Alike F.lines.same) Grammar.constantWord Grammar.constantWord :=
  .orElse (.word rfl) (.orElse (.word rfl) (.word rfl))

theorem starPatternBody :
    F.Agrees P .inside (Pattern.Alike F.lines.same) Grammar.starPatternBody
      Grammar.starPatternBody :=
  .orElse
    (.bind (.sym rfl) fun _ _ _ => .bind .captureTarget fun _ _ hid => .pure (hid ▸ .star))
    (.bind (.sym rfl) fun _ _ _ => .bind .soft fun _ _ _ => .pure .star)

theorem restOfMapping : F.Agrees P .inside Eq Grammar.restOfMapping Grammar.restOfMapping :=
  .rule (.bind (.sym rfl) fun _ _ _ => .captureTarget)

end Agrees

namespace Engines

variable [P.Le .edge] (hg : F.Engines g g')
include hg

theorem nameOrPath :
    F.Agrees P .inside (Expr.Alike F.lines.same) (Grammar.nameOrPath g) (Grammar.nameOrPath g') :=
  .orElse (hg.call .attributePath rfl) .nameExpr

theorem literalExpr :
    F.Agrees P .inside (Expr.Alike F.lines.same) (Grammar.literalExpr g)
      (Grammar.literalExpr g') :=
  .rule (.orElse .signedNumber (.orElse .complexNumber (.orElse (hg.call .strings rfl)
    .constantWord)))

theorem literalPattern :
    F.Agrees P .inside (Pattern.Alike F.lines.same) (Grammar.literalPattern g)
      (Grammar.literalPattern g') := by
  refine .rule (.orElse (.bind .signedNumber fun _ _ ha => .pure (.value ha)) (.orElse
    (.bind .complexNumber fun _ _ ha => .pure (.value ha)) (.orElse
    (.bind (hg.call .strings rfl) fun _ _ ha => .pure (.value ha))
    (.bind .constantWord fun _ _ ha => ?_))))
  have halike := ha
  cases ha with
  | literal _ => exact .pure .singleton
  | _ => exact .pure (.value halike)

theorem orPattern :
    F.Agrees P .inside (Pattern.Alike F.lines.same) (Grammar.orPattern g)
      (Grammar.orPattern g') := by
  refine .rule (.bind (.sepBy1 (hg.call .closedPattern rfl) (.sym rfl)) fun _ _ hps => ?_)
  cases hps with
  | nil => exact .pure (.or .nil)
  | cons h hs =>
    cases hs with
    | nil => exact .pure h
    | cons h' hs => exact .pure (.or (.cons h (.cons h' hs)))

theorem pattern :
    F.Agrees P .inside (Pattern.Alike F.lines.same) (Grammar.pattern g) (Grammar.pattern g') :=
  .rule (.orElse
    (.bind hg.orPattern fun _ _ hp => .bind (.kw rfl) fun _ _ _ =>
      .bind .captureTarget fun _ _ hid =>
      .pure (hid ▸ .as (.some hp)))
    (.orElse .diagnose hg.orPattern))

theorem maybeStarPattern :
    F.Agrees P .inside (Pattern.Alike F.lines.same) (Grammar.maybeStarPattern g)
      (Grammar.maybeStarPattern g') :=
  .orElse (hg.call .starPattern rfl) hg.pattern

theorem maybeSequence :
    F.Agrees P .inside (Forall₂ (Pattern.Alike F.lines.same)) (Grammar.maybeSequence g)
      (Grammar.maybeSequence g') :=
  .rule (.bind (.sepBy1 hg.maybeStarPattern (.sym rfl)) fun _ _ hps =>
    .bind (.opt (.sym rfl)) fun _ _ _ =>
    .pure hps)

theorem openSequence :
    F.Agrees P .inside (Forall₂ (Pattern.Alike F.lines.same)) (Grammar.openSequence g)
      (Grammar.openSequence g') :=
  .rule (.bind hg.maybeStarPattern fun _ _ hp => .bind (.sym rfl) fun _ _ _ =>
    .bind (.opt hg.maybeSequence) fun _ _ hps => .pure (.cons hp (forall₂_getD hps)))

theorem keyValue :
    F.Agrees P .inside (SamePair (Expr.Alike F.lines.same) (Pattern.Alike F.lines.same))
      (Grammar.keyValue g) (Grammar.keyValue g') :=
  .rule (.bind (.orElse hg.literalExpr (hg.call .attributePath rfl)) fun _ _ hk =>
    .bind (.sym rfl) fun _ _ _ => .bind hg.pattern fun _ _ hp => .pure ⟨hk, hp⟩)

theorem keyValues :
    F.Agrees P .inside (Forall₂ (SamePair (Expr.Alike F.lines.same) (Pattern.Alike F.lines.same)))
      (Grammar.keyValues g) (Grammar.keyValues g') :=
  .rule (.sepBy1 hg.keyValue (.sym rfl))

theorem mappingPattern :
    F.Agrees P .inside (Pattern.Alike F.lines.same) (Grammar.mappingPattern g)
      (Grammar.mappingPattern g') :=
  .rule (.orElse
    (.bind (.sym rfl) fun _ _ _ => .bind (.sym rfl) fun _ _ _ =>
      .pure (.mapping .nil .nil)) (.orElse
    (.bind (.sym rfl) fun _ _ _ => .bind .restOfMapping fun _ _ hrest =>
      .bind .closeBrace fun _ _ _ =>
      .pure (hrest ▸ .mapping .nil .nil)) (.orElse
    (.bind (.sym rfl) fun _ _ _ => .bind hg.keyValues fun _ _ hitems =>
      .bind (.sym rfl) fun _ _ _ =>
      .bind .restOfMapping fun _ _ hrest => .bind .closeBrace fun _ _ _ =>
        .pure (hrest ▸ .mapping (forall₂_unzip hitems).1 (forall₂_unzip hitems).2))
    (.bind (.sym rfl) fun _ _ _ => .bind hg.keyValues fun _ _ hitems =>
      .bind .closeBrace fun _ _ _ =>
      .pure (.mapping (forall₂_unzip hitems).1 (forall₂_unzip hitems).2)))))

theorem positionalPatterns :
    F.Agrees P .inside (Forall₂ (Pattern.Alike F.lines.same)) (Grammar.positionalPatterns g)
      (Grammar.positionalPatterns g') :=
  .rule (.sepBy1 hg.pattern (.sym rfl))

theorem keywordPatterns :
    F.Agrees P .inside (Forall₂ (SamePair Eq (Pattern.Alike F.lines.same)))
      (Grammar.keywordPatterns g) (Grammar.keywordPatterns g') :=
  .rule (.sepBy1 (.rule (.bind .ident fun _ _ hid => .bind (.sym rfl) fun _ _ _ =>
    .bind hg.pattern fun _ _ hp => .pure ⟨hid, hp⟩)) (.sym rfl))

omit hg [P.Le .edge] in
theorem alike_classOf {same : Nat → Nat → Prop} {cls cls' : Expr} {ps ps' : List Pattern}
    {ks ks' : List (String × Pattern)} (hcls : Expr.Alike same cls cls')
    (hps : Forall₂ (Pattern.Alike same) ps ps')
    (hks : Forall₂ (SamePair Eq (Pattern.Alike same)) ks ks') :
    Pattern.Alike same (.classOf cls ps (ks.map (·.1)) (ks.map (·.2)))
      (.classOf cls' ps' (ks'.map (·.1)) (ks'.map (·.2))) := by
  obtain ⟨hnames, hpatterns⟩ := forall₂_unzip hks
  rw [List.forall₂_eq_eq_eq] at hnames
  rw [hnames]
  exact .classOf hcls hps hpatterns

theorem classPattern :
    F.Agrees P .inside (Pattern.Alike F.lines.same) (Grammar.classPattern g)
      (Grammar.classPattern g') :=
  .rule (.orElse
    (.bind hg.nameOrPath fun _ _ hcls => .bind (.sym rfl) fun _ _ _ => .bind (.sym rfl) fun _ _ _ =>
      .pure (.classOf hcls .nil .nil)) (.orElse
    (.bind hg.nameOrPath fun _ _ hcls => .bind (.sym rfl) fun _ _ _ => .bind hg.positionalPatterns
      fun _ _ hps => .bind .closePar fun _ _ _ => .pure (.classOf hcls hps .nil)) (.orElse
    (.bind hg.nameOrPath fun _ _ hcls => .bind (.sym rfl) fun _ _ _ => .bind hg.keywordPatterns
      fun _ _ hks => .bind .closePar fun _ _ _ => .pure (alike_classOf hcls .nil hks)) (.orElse
    (.bind hg.nameOrPath fun _ _ hcls => .bind (.sym rfl) fun _ _ _ => .bind hg.positionalPatterns
      fun _ _ hps => .bind (.sym rfl) fun _ _ _ => .bind hg.keywordPatterns fun _ _ hks =>
        .bind .closePar fun _ _ _ => .pure (alike_classOf hcls hps hks))
    .diagnose))))

theorem valuePattern :
    F.Agrees P .inside (Pattern.Alike F.lines.same) (Grammar.valuePattern g)
      (Grammar.valuePattern g') :=
  .rule (.bind (hg.call .attributePath rfl) fun _ _ ha => .bind (.notFollowedBy .pathAhead)
    fun _ _ _ => .pure (.value ha))

theorem closedPatternBody :
    F.Agrees P .inside (Pattern.Alike F.lines.same) (Grammar.closedPatternBody g)
      (Grammar.closedPatternBody g') :=
  .orElse hg.literalPattern (.orElse
    (.bind .captureTarget fun _ _ hid => .pure (hid ▸ .as .none)) (.orElse
    (.bind .soft fun _ _ _ => .pure (.as .none)) (.orElse hg.valuePattern (.orElse
    (.enclosed rfl rfl hg.pattern) (.orElse
    (.bind (.enclosed rfl rfl (.opt hg.maybeSequence)) fun _ _ hps =>
      .pure (.sequence (forall₂_getD hps))) (.orElse
    (.bind (.enclosed rfl rfl (.opt hg.openSequence)) fun _ _ hps =>
      .pure (.sequence (forall₂_getD hps)))
    (.orElse hg.mappingPattern hg.classPattern)))))))

theorem patterns :
    F.Agrees P .inside (Pattern.Alike F.lines.same) (Grammar.patterns g) (Grammar.patterns g') :=
  .rule (.orElse (.bind hg.openSequence fun _ _ hps => .pure (.sequence hps)) hg.pattern)

end Engines

end NotebookSlice.Syntax.Frame
