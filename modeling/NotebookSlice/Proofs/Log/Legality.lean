import NotebookSlice.Proofs.Cell.Chunks
import NotebookSlice.Proofs.Flow.LastWriter
import NotebookSlice.Proofs.Log.Emitted
import NotebookSlice.Proofs.Slice.Kept

/-! # Are slices programs?

The closure keeps guards and completes blocks, so that what it keeps of a cell is
again a tree of statements. It does not look at the parts of a `try`, and so the
tree is legal exactly if each `try` in it still has its handlers.
-/

namespace NotebookSlice

open NotebookSlice.Flow NotebookSlice.Syntax

namespace Code

/-- The statements of code are legal, be it parsed as a whole or chunk by chunk. -/
theorem legal_of_ofText {text : String} {code : Code} (h : ofText text = .ok code) :
    ∀ s ∈ code.statements, s.Legal :=
  forall_of_ofText (fun hparse => legal_of_parse hparse) h

end Code

theorem Flow.statements_of_analyzeCell {c : Configuration} {text : String} {a : Analysis}
    {code : Code} (h : analyzeCell c text = .ok a) (hcode : Code.ofText text = .ok code) :
    a.statements = analyze c code.statements (some text) := by
  obtain ⟨code', hcode', rfl⟩ := analyzeCell_eq_ok.mp h
  rw [Except.ok.inj (hcode.symm.trans hcode')]

namespace Log.Sound

variable {log : Log} (h : log.Sound) {e f : Entry}
include h

theorem needs_parent (hf : f ∈ log.entries) {w : Statement} (hw : w ∈ f.statements)
    (hneeds : log.Needs e f w) {p : ℕ} (hp : w.parent = some p) :
    (f.position, p) ∈ log.closure e := by
  refine h.sourceClosed_closure _ _ (.of_hasReason (r := .governed) ?_) hneeds
  rw [h.graph_eq, hasReason_governed_iff]
  exact ⟨f.execution, List.mem_map_of_mem hf, w, hw, rfl, p, hp, rfl⟩

theorem exists_body_needed (hf : f ∈ log.entries) {w : Statement} (hw : w ∈ f.statements)
    (hneeds : log.Needs e f w) (hbody : w.body ≠ []) :
    ∃ i ∈ w.body, (f.position, i) ∈ log.closure e :=
  h.exists_body_mem_closure hneeds (h.statement?_eq_some_iff.mpr ⟨f, hf, hw, rfl⟩) hbody

end Log.Sound

/-- What the closure of `e` keeps of the code of `f`. -/
def Log.remainder (log : Log) (e f : Entry) (code : Code) : List Stmt :=
  keptProgram (fun i => (log.closure e).contains (f.position, i)) (some f.cell.text) code.statements

/-- What the slice of `e` keeps of the cell of `f`. Its lines are those of the needed statements.
With a statement its guard is needed, and with a header or clause something of its block. The
program that remains is legal exactly if each `try` in it still has a handler, or a `finally` part
and no `else` part; otherwise it is not what any text is parsed to. -/
theorem Session.legal_remainder_iff {session : Session} (h : session.Reachable) (e : Entry)
    {f : Entry} (hf : f ∈ session.log.entries) {code : Code}
    (hcode : Code.ofText f.cell.text = .ok code) :
    (∀ n, session.log.Emits e f n ↔ ∃ w ∈ f.statements, session.log.Needs e f w ∧ w.Covers n) ∧
    (∀ w ∈ f.statements, session.log.Needs e f w →
      (∀ p, w.parent = some p → (f.position, p) ∈ session.log.closure e) ∧
      (w.body ≠ [] → ∃ i ∈ w.body, (f.position, i) ∈ session.log.closure e)) ∧
    ((∀ t ∈ session.log.remainder e f code, t.Legal) ↔
      ∀ t ∈ session.log.remainder e f code, Handled t) ∧
    (∀ line text, parse line text = .ok (session.log.remainder e f code) →
      ∀ t ∈ session.log.remainder e f code, Handled t) := by
  have hsound := h.log.sound
  refine ⟨fun n => hsound.emits_iff hf, fun w hw hneeds => ⟨fun p hp => ?_, fun hbody => ?_⟩, ?_,
    fun line text hparse t ht => handled_of_legal (legal_of_parse hparse t ht)⟩
  · exact hsound.needs_parent hf hw hneeds hp
  · exact hsound.exists_body_needed hf hw hneeds hbody
  · refine legal_keptProgram_iff (c := f.configuration) (Code.legal_of_ofText hcode) ?_
    rw [← statements_of_analyzeCell (hsound.analysed f hf) hcode]
    intro u hu hneeds hbody
    simp only [List.contains_iff_mem] at hneeds ⊢
    exact hsound.exists_body_needed hf hu hneeds hbody

/-! ## A lost handler -/

/-- The second cell needs the body of the `try` only. -/
def lostHandler : List Cell :=
  [.counted 1 "try:\n    ok = True\nexcept ImportError:\n    bad = 1", .counted 2 "print(ok)"]

theorem exists_lostHandler : ∃ session : Session, session.Reachable ∧
    ∃ d e : Entry, session.log.entries = [d, e] ∧
      d.cell.text = "try:\n    ok = True\nexcept ImportError:\n    bad = 1" ∧
      e.cell.text = "print(ok)" ∧
      d.statements = [⟨0, .header, 1, 1, none, [], [], [1]⟩,
        ⟨1, .statement, 2, 2, some 0, [], ["ok"], []⟩,
        ⟨2, .header, 3, 3, some 0, ["ImportError"], [], [3]⟩,
        ⟨3, .statement, 4, 4, some 2, [], ["bad"], []⟩] ∧
      session.log.closure e = [(1, 0), (0, 1), (0, 0)] ∧
      session.log.rangesIn (session.log.closure e) d = [⟨2, 2⟩, ⟨1, 1⟩] := by
  obtain ⟨session, h, htexts, hstatements, hclosures, hranges⟩ :=
    Session.exists_of_postAll lostHandler (p := fun log =>
      log.entries.map (·.cell.text) =
        ["try:\n    ok = True\nexcept ImportError:\n    bad = 1", "print(ok)"] ∧
      (log.entries.map Entry.statements).head? =
        some [⟨0, .header, 1, 1, none, [], [], [1]⟩,
          ⟨1, .statement, 2, 2, some 0, [], ["ok"], []⟩,
          ⟨2, .header, 3, 3, some 0, ["ImportError"], [], [3]⟩,
          ⟨3, .statement, 4, 4, some 2, [], ["bad"], []⟩] ∧
      (log.entries.map log.closure).getLast? = some [(1, 0), (0, 1), (0, 0)] ∧
      log.entries.map (log.rangesIn [(1, 0), (0, 1), (0, 0)]) = [[⟨2, 2⟩, ⟨1, 1⟩], [⟨1, 1⟩]])
      (by decide +kernel)
  obtain ⟨d, e, hentries⟩ : ∃ d e, session.log.entries = [d, e] := by
    rw [← List.length_eq_two, ← List.length_map, htexts]
    rfl
  simp only [hentries, List.map_cons, List.map_nil, List.cons.injEq, and_true, List.head?_cons,
    List.getLast?_cons_cons, List.getLast?_singleton, Option.some.injEq]
    at htexts hstatements hclosures hranges
  exact ⟨session, h, d, e, hentries, htexts.1, htexts.2, hstatements, hclosures,
    hclosures ▸ hranges.1⟩

/-- The `try` that remains of the first cell has lost its handler. -/
theorem not_legal_remainder_lostHandler : ∃ session : Session, session.Reachable ∧
    ∃ e f : Entry, f ∈ session.log.entries ∧ ∃ code, Code.ofText f.cell.text = .ok code ∧
      ¬ ∀ t ∈ session.log.remainder e f code, t.Legal := by
  obtain ⟨session, h, d, e, hentries, htext, -, -, hclosure, -⟩ := exists_lostHandler
  have hd : d ∈ session.log.entries := by simp [hentries]
  have hposition : d.position = 0 := h.log.sound.position 0 d (by rw [hentries]; rfl)
  obtain ⟨code, hcode, hkept⟩ : ∃ code, Code.ofText d.cell.text = .ok code ∧
      (keptProgram (fun i => [(1, 0), (0, 1), (0, 0)].contains (0, i)) (some d.cell.text)
        code.statements).all isHandled = false := by
    have hrun : (Code.ofText d.cell.text).toOption.any (fun code =>
        !(keptProgram (fun i => [(1, 0), (0, 1), (0, 0)].contains (0, i)) (some d.cell.text)
          code.statements).all isHandled) := by
      rw [htext]
      decide +kernel
    cases hcode : Code.ofText d.cell.text with
    | error r => simp [hcode, Except.toOption] at hrun
    | ok code => exact ⟨code, rfl, by simpa [hcode, Except.toOption] using hrun⟩
  refine ⟨session, h, e, d, hd, code, hcode, fun hlegal => ?_⟩
  have hhandled := (Session.legal_remainder_iff h e hd hcode).2.2.1.mp hlegal
  rw [Log.remainder, hclosure, hposition] at hhandled
  obtain ⟨t, ht, hlost⟩ := List.all_eq_false.mp hkept
  exact hlost (hhandled t ht t (.refl t))

/-- The slice of the second cell has the first two lines of the first cell, and these do not parse
without the handler. -/
theorem not_slices_parse : ¬ ∀ session : Session, session.Reachable →
    (∀ f ∈ session.log.entries, (∀ l ∈ Text.lines f.cell.text, isMagic l = false) ∧
      ∃ ss, parse 1 f.cell.text.toList = .ok ss) →
    ∀ e ∈ session.log.entries, ∀ s ∈ (session.log.sliceEntry e).slices,
      ∀ text, s.text? = some text → ∃ code, Code.ofText text = .ok code ∧ code.diagnostics = [] := by
  intro hall
  obtain ⟨session, h, d, e, hentries, hd, he, -, hclosure, hranges⟩ := exists_lostHandler
  have hparses : ∀ f ∈ session.log.entries, (∀ l ∈ Text.lines f.cell.text, isMagic l = false) ∧
      ∃ ss, parse 1 f.cell.text.toList = .ok ss := by
    have hisSome (text : String) (hrun : (parse 1 text.toList).toOption.isSome) :
        ∃ ss, parse 1 text.toList = .ok ss := by
      cases hparse : parse 1 text.toList with
      | error line => simp [hparse, Except.toOption] at hrun
      | ok ss => exact ⟨ss, rfl⟩
    intro f hf
    simp only [hentries, List.mem_cons, List.not_mem_nil, or_false] at hf
    rcases hf with rfl | rfl
    · rw [hd]
      exact ⟨by decide +kernel, hisSome _ (by decide +kernel)⟩
    · rw [he]
      exact ⟨by decide +kernel, hisSome _ (by decide +kernel)⟩
  have hslice : session.log.cellSlice? (session.log.closure e) d =
      some (CellSlice.ofRanges d.cell [⟨2, 2⟩, ⟨1, 1⟩] d.time) :=
    Log.cellSlice?_eq_some_iff.mpr ⟨by simp [hranges], by rw [hranges]⟩
  have hmem := Log.mem_slices.mpr ⟨d, by simp [hentries], hslice⟩
  have hnormal : LineRange.normalize [⟨2, 2⟩, ⟨1, 1⟩] = [⟨1, 2⟩] := by
    simp [LineRange.normalize, LineRange.le, LineRange.fuse, List.mergeSort,
      List.MergeSort.Internal.splitInTwo]
  have htext : (CellSlice.ofRanges d.cell [⟨2, 2⟩, ⟨1, 1⟩] d.time).text? =
      some "try:\n    ok = True" := by
    rw [CellSlice.ofRanges, hnormal]
    change (([1, 2].filter fun n : ℤ => n ≤ (Text.lines d.cell.text).length).mapM
      (CellSlice.line? (Text.lines d.cell.text))).map Text.unlines = _
    rw [hd]
    decide +kernel
  obtain ⟨code, hcode, hnone⟩ := hall session h hparses e (by simp [hentries]) _ hmem _ htext
  have hfaulty : (Code.ofText "try:\n    ok = True").toOption.all (fun code =>
      decide (code.diagnostics ≠ [])) := by decide +kernel
  rw [hcode] at hfaulty
  exact of_decide_eq_true hfaulty hnone

end NotebookSlice
