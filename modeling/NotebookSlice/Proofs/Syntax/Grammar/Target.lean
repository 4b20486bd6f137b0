import NotebookSlice.Proofs.Syntax.Grammar.Expression
import NotebookSlice.Syntax.Grammar.Target

/-! # Targets on a frame -/

namespace NotebookSlice.Syntax.Frame

open List (Forall₂)

variable {F : Frame} {g g' : Engine} {P : Region} {ctx : Context}

theorem Agrees.extensionAhead :
    F.Agrees .inside .inside (fun _ _ => True) Grammar.extensionAhead Grammar.extensionAhead :=
  .bind (.orElse (.sym rfl) (.orElse (.sym rfl) (.sym rfl))) fun _ _ _ => .pure trivial

namespace Engines

variable [P.Le .edge] (hg : F.Engines g g')
include hg

theorem targetPrimaryBody :
    F.Agrees P .inside (Expr.Alike F.lines.same) (Grammar.targetPrimaryBody g)
      (Grammar.targetPrimaryBody g') := by
  have ahead := Agrees.followedBy (Agrees.extensionAhead (F := F))
  refine .bind .lineHere fun _ _ hl => .grow
    (.bind hg.atom fun _ _ ha => .bind ahead fun _ _ _ => .pure ha) fun _ _ hsubject =>
    .orElse (.bind (.sym rfl) fun _ _ _ => .bind .ident fun _ _ hid => .bind ahead fun _ _ _ =>
      .pure (hid ▸ .attribute hl hsubject)) (.orElse
    (.bind (.sym rfl) fun _ _ _ => .bind (.closedBy rfl hg.slices) fun _ _ hindex =>
      .bind ahead fun _ _ _ => .pure (.subscript hl hsubject hindex)) (.orElse
    (.bind hg.genExp fun _ _ harg => .bind ahead fun _ _ _ =>
      .pure (.call hl hsubject (.cons harg .nil) .nil))
    (.bind (.sym rfl) fun _ _ _ => .bind (.opt (hg.call .arguments rfl)) fun _ _ harguments =>
      .bind (.sym rfl) fun _ _ _ => .bind ahead fun _ _ _ => ?_)))
  cases harguments with
  | none => exact .pure (.call hl hsubject .nil .nil)
  | some h => exact .pure (.call hl hsubject h.positional h.keywords)

theorem partTarget (hctx : ctx ≠ .load) :
    F.Agrees P .inside (Expr.AlikeTarget F.lines.same) (Grammar.partTarget g ctx)
      (Grammar.partTarget g' ctx) :=
  have ahead := Agrees.notFollowedBy (Agrees.extensionAhead (F := F))
  .bind .lineHere fun _ _ hl => .orElse
    (.bind (hg.call .targetPrimary rfl) fun _ _ hsubject => .bind (.sym rfl) fun _ _ _ =>
      .bind .ident fun _ _ hid => .bind ahead fun _ _ _ => .pure (hid ▸ .attribute hctx hl hsubject))
    (.bind (hg.call .targetPrimary rfl) fun _ _ hsubject => .bind (.sym rfl) fun _ _ _ =>
      .bind (.closedBy rfl hg.slices) fun _ _ hindex => .bind ahead fun _ _ _ =>
        .pure (.subscript hctx hl hsubject hindex))

theorem targetTuple :
    F.Agrees P .inside (Forall₂ (Expr.AlikeTarget F.lines.same)) (Grammar.targetTuple g)
      (Grammar.targetTuple g') := by
  refine .rule (.bind (hg.call .starTarget rfl) fun _ _ hfirst =>
    .bind (.many (.bind (.sym rfl) fun _ _ _ => hg.call .starTarget rfl)) fun _ _ hmore =>
      .bind (.opt (.sym rfl)) fun _ _ hcomma => ?_)
  cases hcomma with
  | none =>
    cases hmore with
    | nil => exact .fail
    | cons ha has => exact .pure (.cons hfirst (.cons ha has))
  | some _ => exact .pure (.cons hfirst hmore)

theorem targetList :
    F.Agrees P .inside (Forall₂ (Expr.AlikeTarget F.lines.same)) (Grammar.targetList g)
      (Grammar.targetList g') :=
  .rule (.bind (.sepBy1 (hg.call .starTarget rfl) (.sym rfl)) fun _ _ hts =>
    .bind (.opt (.sym rfl)) fun _ _ _ =>
    .pure hts)

theorem starAtom :
    F.Agrees P .inside (Expr.AlikeTarget F.lines.same) (Grammar.starAtom g) (Grammar.starAtom g') :=
  .rule (.bind .lineHere fun _ _ hl => .orElse (.nameTarget nofun) (.orElse
    (.enclosed rfl rfl (hg.call .unparenthesizedTarget rfl)) (.orElse
      (.bind (.enclosed rfl rfl (.opt hg.targetTuple)) fun _ _ hts =>
        .pure (.tuple hl (forall₂_getD hts)))
      (.bind (.enclosed rfl rfl (.opt hg.targetList)) fun _ _ hts =>
        .pure (.list hl (forall₂_getD hts))))))

theorem unparenthesizedTargetBody :
    F.Agrees P .inside (Expr.AlikeTarget F.lines.same) (Grammar.unparenthesizedTargetBody g)
      (Grammar.unparenthesizedTargetBody g') :=
  .orElse (hg.partTarget nofun) hg.starAtom

theorem starTargetBody :
    F.Agrees P .inside (Expr.AlikeTarget F.lines.same) (Grammar.starTargetBody g)
      (Grammar.starTargetBody g') :=
  .orElse (.bind (.sym rfl) fun _ _ hl => .bind (.notFollowedBy (.sym rfl)) fun _ _ _ =>
    .bind (hg.call .starTarget rfl) fun _ _ ha => .pure (.starred hl ha))
    (hg.call .unparenthesizedTarget rfl)

theorem singlePartTarget :
    F.Agrees P .inside (Expr.AlikeTarget F.lines.same) (Grammar.singlePartTarget g)
      (Grammar.singlePartTarget g') :=
  .rule (hg.partTarget nofun)

theorem singleTargetBody :
    F.Agrees P .inside (Expr.AlikeTarget F.lines.same) (Grammar.singleTargetBody g)
      (Grammar.singleTargetBody g') :=
  .orElse hg.singlePartTarget
    (.orElse (.nameTarget nofun) (.enclosed rfl rfl (hg.call .singleTarget rfl)))

theorem deleteTargets :
    F.Agrees P .inside (Forall₂ (Expr.AlikeTarget F.lines.same)) (Grammar.deleteTargets g)
      (Grammar.deleteTargets g') :=
  .rule (.bind (.sepBy1 (hg.call .deleteTarget rfl) (.sym rfl)) fun _ _ hts =>
    .bind (.opt (.sym rfl))
    fun _ _ _ => .pure hts)

theorem deleteAtom :
    F.Agrees P .inside (Expr.AlikeTarget F.lines.same) (Grammar.deleteAtom g)
      (Grammar.deleteAtom g') :=
  .rule (.bind .lineHere fun _ _ hl => .orElse (.nameTarget nofun) (.orElse
    (.enclosed rfl rfl (hg.call .deleteTarget rfl)) (.orElse
      (.bind (.enclosed rfl rfl (.opt hg.deleteTargets)) fun _ _ hts =>
        .pure (.tuple hl (forall₂_getD hts)))
      (.bind (.enclosed rfl rfl (.opt hg.deleteTargets)) fun _ _ hts =>
        .pure (.list hl (forall₂_getD hts))))))

theorem deleteTargetBody :
    F.Agrees P .inside (Expr.AlikeTarget F.lines.same) (Grammar.deleteTargetBody g)
      (Grammar.deleteTargetBody g') :=
  .orElse (hg.partTarget nofun) hg.deleteAtom

end Engines

end NotebookSlice.Syntax.Frame
