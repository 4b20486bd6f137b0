import NotebookSlice.Proofs.Syntax.Grammar.Parameter
import NotebookSlice.Proofs.Syntax.Grammar.Target
import NotebookSlice.Syntax.Grammar.Simple

/-! # Simple statements on a frame

A simple statement stays inside its line; the statements of a line end with the
line, which may be the last one of the stretch.
-/

namespace NotebookSlice.Syntax.Frame

open List (Forall₂)

variable {F : Frame} {g g' : Engine} {P : Region}

namespace Agrees

theorem augmentedOp : F.Agrees .inside .inside Eq Grammar.augmentedOp Grammar.augmentedOp := by
  refine .acceptInside (fun t => ?_) fun t t' ht => ?_
  · cases hkind : t.kind <;> simp [Token.Kind.isPlain]
  · rw [ht.kind]
    split <;> first | exact .some rfl | exact .none

theorem asName : F.Agrees .inside .inside Eq Grammar.asName Grammar.asName := by
  refine .rel (.opt (.bind (.kw rfl) fun _ _ _ => .ident)) fun _ _ h => ?_
  cases h with
  | none => rfl
  | some h => rw [h]

theorem importedNames : F.Agrees .inside .inside Eq Grammar.importedNames Grammar.importedNames :=
  .rel (.rule (.sepBy1 (.rule (.bind .ident fun _ _ hid => .bind .asName fun _ _ has =>
    .pure (hid ▸ has ▸ rfl))) (.sym rfl))) fun _ _ h => List.forall₂_eq_eq_eq ▸ h

theorem importTargets : F.Agrees .inside .inside Eq Grammar.importTargets Grammar.importTargets :=
  .rule (.orElse
    (.bind (.sym rfl) fun _ _ _ => .bind .importedNames fun _ _ hnames =>
      .bind (.opt (.sym rfl)) fun _ _ _ =>
      .bind (.sym rfl) fun _ _ _ => .pure hnames) (.orElse
    (.bind .importedNames fun _ _ hnames => .bind (.notFollowedBy (.sym rfl)) fun _ _ _ =>
      .pure hnames) (.orElse
    (.bind (.sym rfl) fun _ _ _ => .pure rfl)
    .diagnose)))

variable [P.Le .edge]

theorem dots : F.Agrees P .inside Eq Grammar.dots Grammar.dots :=
  .orElse (.bind (.sym rfl) fun _ _ _ => .pure rfl) (.bind (.sym rfl) fun _ _ _ => .pure rfl)

theorem dottedNameBody : F.Agrees P .inside Eq Grammar.dottedNameBody Grammar.dottedNameBody := by
  refine .bind .ident fun _ _ hfirst => .bind (.many (.bind (.sym rfl) fun _ _ _ => .ident))
    fun _ _ hmore => ?_
  rw [List.forall₂_eq_eq_eq] at hmore
  exact .pure (hfirst ▸ hmore ▸ rfl)

theorem nameList {k : Keyword} {make : Span → List String → LegalStmt}
    (h : Token.Kind.opens (.keyword k) = true)
    (hmake : ∀ {s s' : Span} {names : List String}, Span.Alike F.lines.same s s' →
      LegalStmt.Alike F.lines.same (make s names) (make s' names)) :
    F.Agrees P .inside (LegalStmt.Alike F.lines.same) (Grammar.nameList k make)
      (Grammar.nameList k make) := by
  refine .rule (.bind .startHere fun _ _ hs => .bind (.kw h) fun _ _ _ =>
    .bind (.sepBy1 .ident (.sym rfl)) fun _ _ hnames => .bind (.spanFrom hs) fun _ _ hspan =>
      .pure ?_)
  rw [List.forall₂_eq_eq_eq] at hnames
  exact hnames ▸ hmake hspan

theorem wordStatement {k : Keyword} {make : Span → LegalStmt}
    (h : Token.Kind.opens (.keyword k) = true)
    (hmake : ∀ {s s' : Span}, Span.Alike F.lines.same s s' →
      LegalStmt.Alike F.lines.same (make s) (make s')) :
    F.Agrees P .inside (LegalStmt.Alike F.lines.same) (Grammar.wordStatement k make)
      (Grammar.wordStatement k make) :=
  .rule (.bind .startHere fun _ _ hs => .bind (.kw h) fun _ _ _ => .bind (.spanFrom hs)
    fun _ _ hspan => .pure (hmake hspan))

end Agrees

namespace Engines

variable [P.Le .edge] (hg : F.Engines g g')
include hg

/-! ## Assignments -/

theorem targetAndEq :
    F.Agrees P .inside (Expr.AlikeTarget F.lines.same) (Grammar.targetAndEq g)
      (Grammar.targetAndEq g') :=
  .closedBy rfl hg.starTargets

omit [P.Le .edge] in
theorem annotationRest {s s' : Parser.Mark} {e e' : Expr} {simple : Bool}
    (hs : Agrees.SameMark F s s') (he : Expr.AlikeTarget F.lines.same e e') :
    F.Agrees .inside .inside (LegalStmt.Alike F.lines.same)
      (Grammar.annotationRest g s e simple) (Grammar.annotationRest g' s' e' simple) :=
  .bind (.sym rfl) fun _ _ _ => .bind (hg.call .expression rfl) fun _ _ hhint =>
    .bind (.opt (.bind (.sym rfl) fun _ _ _ => hg.yieldOrStar)) fun _ _ hvalue =>
      .bind (.spanFrom hs) fun _ _ hspan => .pure (.annAssign hspan he hhint hvalue)

theorem assignment :
    F.Agrees P .inside (LegalStmt.Alike F.lines.same) (Grammar.assignment g)
      (Grammar.assignment g') :=
  .rule (.bind .startHere fun _ _ hs => .orElse
    (.bind (.nameTarget nofun) fun _ _ htarget => hg.annotationRest hs htarget) (.orElse
    (.bind (.orElse (.enclosed rfl rfl (hg.call .singleTarget rfl)) hg.singlePartTarget)
      fun _ _ htarget =>
      hg.annotationRest hs htarget) (.orElse
    (.bind (.many1 hg.targetAndEq) fun _ _ htargets => .bind hg.yieldOrStar fun _ _ hvalue =>
      .bind (.notFollowedBy (.sym rfl)) fun _ _ _ => .bind (.spanFrom hs) fun _ _ hspan =>
        .pure (.assign hspan htargets hvalue)) (.orElse
    (.bind (hg.call .singleTarget rfl) fun _ _ htarget => .bind .augmentedOp fun _ _ hop => .commit
      (.bind hg.yieldOrStar fun _ _ hvalue => .bind (.spanFrom hs) fun _ _ hspan =>
        .pure (hop ▸ .augAssign hspan htarget hvalue)))
    .diagnose))))

/-! ## Imports -/

omit [P.Le .edge] in
theorem importNames :
    F.Agrees .inside .inside Eq (Grammar.importNames g) (Grammar.importNames g') :=
  .rel (.rule (.sepBy1 (.rule (.bind (hg.call .dottedName rfl) fun _ _ hpath => .bind .asName
    fun _ _ has => .pure (by cases hpath; cases has; rfl))) (.sym rfl)))
    fun _ _ h => List.forall₂_eq_eq_eq ▸ h

theorem importStatement :
    F.Agrees P .inside (LegalStmt.Alike F.lines.same) (Grammar.importStatement g)
      (Grammar.importStatement g') := by
  refine .rule (.bind .startHere fun _ _ hs => .orElse
    (.bind (.kw rfl) fun _ _ _ => .bind hg.importNames fun _ _ hnames => .bind (.spanFrom hs)
      fun _ _ hspan => .pure (hnames ▸ .import hspan)) (.orElse
    (.bind (.kw rfl) fun _ _ _ => .bind (.many .dots) fun _ _ hlevels =>
      .bind (hg.call .dottedName rfl) fun _ _ hpath => .bind (.kw rfl) fun _ _ _ =>
        .bind .importTargets fun _ _ hnames => .bind (.spanFrom hs) fun _ _ hspan => .pure ?_)
    (.bind (.kw rfl) fun _ _ _ => .bind (.many1 .dots) fun _ _ hlevels =>
      .bind (.kw rfl) fun _ _ _ =>
      .bind .importTargets fun _ _ hnames => .bind (.spanFrom hs) fun _ _ hspan => .pure ?_)))
  · rw [List.forall₂_eq_eq_eq] at hlevels
    cases hlevels
    cases hpath
    cases hnames
    exact .importFrom hspan
  · rw [List.forall₂_eq_eq_eq] at hlevels
    cases hlevels
    cases hnames
    exact .importFrom hspan

/-! ## Other statements of one line -/

theorem returnStatement :
    F.Agrees P .inside (LegalStmt.Alike F.lines.same) (Grammar.returnStatement g)
      (Grammar.returnStatement g') :=
  .rule (.bind .startHere fun _ _ hs => .bind (.kw rfl) fun _ _ _ => .bind (.opt hg.starExpressions)
    fun _ _ hvalue => .bind (.spanFrom hs) fun _ _ hspan => .pure (.return hspan hvalue))

theorem raiseStatement :
    F.Agrees P .inside (LegalStmt.Alike F.lines.same) (Grammar.raiseStatement g)
      (Grammar.raiseStatement g') :=
  .rule (.bind .startHere fun _ _ hs => .orElse
    (.bind (.kw rfl) fun _ _ _ => .bind (hg.call .expression rfl) fun _ _ hexc =>
      .bind (.opt (.bind (.kw rfl) fun _ _ _ => hg.call .expression rfl)) fun _ _ hcause =>
        .bind (.spanFrom hs) fun _ _ hspan => .pure (.raise hspan (.some hexc) hcause))
    (.bind (.kw rfl) fun _ _ _ => .bind (.spanFrom hs) fun _ _ hspan =>
      .pure (.raise hspan .none .none)))

theorem deleteStatement :
    F.Agrees P .inside (LegalStmt.Alike F.lines.same) (Grammar.deleteStatement g)
      (Grammar.deleteStatement g') :=
  .rule (.bind .startHere fun _ _ hs => .orElse
    (.bind (.kw rfl) fun _ _ _ => .bind hg.deleteTargets fun _ _ htargets =>
      .bind (.followedBy (Q := .upTo) (R := fun _ _ => True) (.orElse
        (.widen (.bind (.sym rfl) fun _ _ _ => .pure trivial))
        (.bind .newline fun _ _ _ => .pure trivial))) fun _ _ _ =>
        .bind (.spanFrom hs) fun _ _ hspan => .pure (.delete hspan htargets))
    .diagnose)

theorem yieldStatement :
    F.Agrees P .inside (LegalStmt.Alike F.lines.same) (Grammar.yieldStatement g)
      (Grammar.yieldStatement g') :=
  .rule (.bind .startHere fun _ _ hs => .bind hg.yieldExpr fun _ _ hvalue => .bind (.spanFrom hs)
    fun _ _ hspan => .pure (.expr hspan hvalue))

theorem assertStatement :
    F.Agrees P .inside (LegalStmt.Alike F.lines.same) (Grammar.assertStatement g)
      (Grammar.assertStatement g') :=
  .rule (.bind .startHere fun _ _ hs => .bind (.kw rfl) fun _ _ _ => .bind (hg.call .expression rfl)
    fun _ _ htest => .bind (.opt (.bind (.sym rfl) fun _ _ _ =>
      hg.call .expression rfl)) fun _ _ hmessage =>
      .bind (.spanFrom hs) fun _ _ hspan => .pure (.assert hspan htest hmessage))

theorem expressionStatement :
    F.Agrees P .inside (LegalStmt.Alike F.lines.same) (Grammar.expressionStatement g)
      (Grammar.expressionStatement g') :=
  .rule (.bind .startHere fun _ _ hs => .bind hg.starExpressions fun _ _ hvalue =>
    .bind (.spanFrom hs) fun _ _ hspan => .pure (.expr hspan hvalue))

theorem simpleStatementBody :
    F.Agrees P .inside (LegalStmt.Alike F.lines.same) (Grammar.simpleStatementBody g)
      (Grammar.simpleStatementBody g') :=
  .orElse hg.assignment (.orElse hg.expressionStatement (.orElse hg.returnStatement
    (.orElse hg.importStatement (.orElse hg.raiseStatement (.orElse (.wordStatement rfl .pass)
    (.orElse hg.deleteStatement (.orElse hg.yieldStatement (.orElse hg.assertStatement
    (.orElse (.wordStatement rfl .break) (.orElse (.wordStatement rfl .continue)
    (.orElse (.nameList rfl .global) (.nameList rfl .nonlocal))))))))))))

theorem simpleStatements :
    F.Agrees P .upTo (Suite.Alike F.lines.same) (Grammar.simpleStatements g)
      (Grammar.simpleStatements g') :=
  .rule (.orElse
    (.bind (hg.call .simpleStatement rfl) fun _ _ hs =>
      .bind (.notFollowedBy (.sym rfl)) fun _ _ _ =>
      .bind .newline fun _ _ _ => .pure (Suite.alike_ofStmts hs .nil))
    (.bind (hg.call .simpleStatement rfl) fun _ _ hfirst =>
      .bind (.many (.bind (.sym rfl) fun _ _ _ => hg.call .simpleStatement rfl)) fun _ _ hmore =>
        .bind (.opt (.sym rfl)) fun _ _ _ => .bind .newline fun _ _ _ =>
          .pure (Suite.alike_ofStmts hfirst hmore)))

end Engines

end NotebookSlice.Syntax.Frame
