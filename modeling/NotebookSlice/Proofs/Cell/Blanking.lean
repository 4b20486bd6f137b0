import NotebookSlice.Proofs.Cell.Recovery

/-! # Blanking the notebook's lines

The notebook's own lines are told by their first character. Code that has no line like
them is parsed as it is. Other code is what is left of it without these lines.
-/

namespace NotebookSlice

open Text Syntax

namespace Code

variable {source : String} {ss : List Stmt}

theorem ofText_of_parse (hparse : parse 1 source.toList = .ok ss) (hnull : '\x00' ∉ source.toList)
    (hmagic : ∀ l ∈ lines source, isMagic l = false) : ofText source = .ok ⟨ss, []⟩ := by
  rw [ofText_eq_ofPlain hnull, blankMagic_eq_self hmagic, ofPlain_of_ok hparse]

/-- Code is read as it stands, without diagnostics, if blanking keeps it as it is to the parser, and
only then. Blanking does so where no line begins like one of the notebook's own. -/
theorem ofText_eq_iff (hparse : parse 1 source.toList = .ok ss) (hnull : '\x00' ∉ source.toList) :
    (ofText source = .ok ⟨ss, []⟩ ↔
      parse 1 (blankMagic source).toList = parse 1 source.toList) ∧
    ((∀ l ∈ lines source, isMagic l = false) → ofText source = .ok ⟨ss, []⟩) := by
  refine ⟨?_, ofText_of_parse hparse hnull⟩
  rw [ofText_eq_ofPlain hnull, Except.ok.injEq, ofPlain_eq_iff, hparse]

/-- A line that ends in an operator is not blanked. -/
theorem ofText_eq_iff_modulo : ∃ ss, parse 1 "x = (7 %\n3)".toList = .ok ss ∧
    ofText "x = (7 %\n3)" = .ok ⟨ss, []⟩ := by
  obtain ⟨ss, hparse⟩ := exists_of_toOption (r := parse 1 "x = (7 %\n3)".toList)
    (by decide +kernel)
  exact ⟨ss, hparse, (ofText_eq_iff hparse (by decide)).2 (by decide)⟩

end Code

/-- Blanking changes code: a line that goes on with an expression in brackets may begin with `%`. -/
theorem not_ofText_of_parse : ¬ ∀ (source : String) (ss : List Stmt),
    parse 1 source.toList = .ok ss → '\x00' ∉ source.toList → Code.ofText source = .ok ⟨ss, []⟩ := by
  intro hall
  obtain ⟨ss, hparse⟩ := exists_of_toOption (r := parse 1 "x = (7\n% 3)".toList)
    (by decide +kernel)
  have hcode := hall _ ss hparse (by decide)
  have hfaulty : (Code.ofText "x = (7\n% 3)").toOption.any (fun c => !c.diagnostics.isEmpty) =
      true := by decide +kernel
  rw [hcode] at hfaulty
  exact Bool.noConfusion hfaulty

end NotebookSlice
