import Mathlib.Data.List.Chain
import NotebookSlice.Cell.Chunk
import NotebookSlice.Proofs.Text.Lines

/-! # Chunks as parts of a cell

The chunks of a text hold its lines one after the other, and each knows the number of
its first line. Blanking the notebook's own lines moves no line. So a line of a chunk is
the line of the cell that the chunk's number says.
-/

namespace NotebookSlice

open Text

theorem lines_blankMagic (source : String) :
    lines (blankMagic source) = (lines source).map fun l => if isMagic l then "" else l := by
  refine lines_unlines (by simp [lines_ne_nil]) (List.forall_mem_map.mpr fun l hl => ?_)
  split
  · exact List.not_mem_nil
  · exact not_mem_of_mem_lines hl

namespace Chunk

variable {n m : Nat} {previous : Option String} {l source : String} {ls above : List String}
  {c : Chunk} {cs : List Chunk}

/-- The chunks hold the lines one after the other, and none is empty. The number of the first line
is `n`. -/
inductive Tiles : (n : Nat) → List Chunk → List String → Prop where
  | nil (n : Nat) : Tiles n [] []
  | cons {n : Nat} {c : Chunk} {cs : List Chunk} {ls : List String} (line : c.line = n)
      (ne_nil : c.lines ≠ []) (rest : Tiles (n + c.lines.length) cs ls) :
      Tiles n (c :: cs) (c.lines ++ ls)

namespace Tiles

theorem flatMap_lines (h : Tiles n cs ls) : cs.flatMap Chunk.lines = ls := by
  induction h with
  | nil => rfl
  | cons _ _ _ ih => rw [List.flatMap_cons, ih]

theorem ne_nil (h : Tiles n cs ls) (hc : c ∈ cs) : c.lines ≠ [] := by
  induction h with
  | nil => exact absurd hc List.not_mem_nil
  | cons _ hne _ ih =>
    rcases List.mem_cons.mp hc with rfl | hc
    · exact hne
    · exact ih hc

theorem line_head (h : Tiles n (c :: cs) ls) : c.line = n := by
  cases h with
  | cons hline _ _ => exact hline

theorem isChain (h : Tiles n cs ls) :
    cs.IsChain fun c d => d.line = c.line + c.lines.length := by
  induction h with
  | nil => exact List.isChain_nil
  | @cons n c cs ls hline _ hrest ih =>
    cases cs with
    | nil => exact List.isChain_singleton c
    | cons d ds => exact List.isChain_cons_cons.mpr ⟨by rw [hrest.line_head, hline], ih⟩

theorem exists_above (h : Tiles n cs ls) (hc : c ∈ cs) :
    ∃ above below, ls = above ++ c.lines ++ below ∧ c.line = n + above.length := by
  induction h with
  | nil => exact absurd hc List.not_mem_nil
  | @cons n d ds ls hline _ _ ih =>
    rcases List.mem_cons.mp hc with rfl | hc
    · exact ⟨[], ls, rfl, hline⟩
    · obtain ⟨above, below, rfl, hc⟩ := ih hc
      refine ⟨d.lines ++ above, below, by simp, ?_⟩
      rw [hc, List.length_append, Nat.add_assoc]

end Tiles

/-! ## Cutting -/

theorem cut_of_starts (h : starts l previous = true) : cut n previous (l :: ls) =
    ([], ⟨n, l :: (cut (n + 1) (if isCode l then some l else previous) ls).1⟩ ::
      (cut (n + 1) (if isCode l then some l else previous) ls).2) := by
  simp [cut, h]

theorem cut_of_not_starts (h : starts l previous = false) : cut n previous (l :: ls) =
    (l :: (cut (n + 1) (if isCode l then some l else previous) ls).1,
      (cut (n + 1) (if isCode l then some l else previous) ls).2) := by
  simp [cut, h]

theorem tiles_cut (hne : above ≠ []) (hm : n + above.length = m) :
    Tiles n (⟨n, above ++ (cut m previous ls).1⟩ :: (cut m previous ls).2) (above ++ ls) := by
  induction ls generalizing n m previous above with
  | nil => simpa [cut] using Tiles.cons (c := ⟨n, above⟩) rfl hne (Tiles.nil _)
  | cons l ls ih =>
    cases hstarts : starts l previous with
    | true =>
      rw [cut_of_starts hstarts, List.append_nil]
      refine Tiles.cons (c := ⟨n, above⟩) rfl hne ?_
      rw [hm]
      exact ih (List.cons_ne_nil l []) rfl
    | false =>
      rw [cut_of_not_starts hstarts, List.append_cons, List.append_cons above l ls]
      exact ih (by simp) (by simp [← hm, Nat.add_assoc])

/-- The line is not blank, and its first character is neither a space nor a tab nor the mark of a
comment. -/
structure AtMargin (line : String) : Prop where
  notBlank : allBlank line.toList = false
  first : ∀ c ∈ line.toList.head?, c ≠ ' ' ∧ c ≠ '\t' ∧ c ≠ '#'

theorem atMargin_of_starts (h : starts l previous = true) : AtMargin l := by
  unfold starts at h
  cases hl : l.toList with
  | nil => simp [hl] at h
  | cons c cs =>
    simp only [hl] at h
    split at h
    · cases h
    · rename_i hmargin
      simp only [Bool.or_eq_true, beq_iff_eq, not_or, Bool.not_eq_true] at hmargin
      obtain ⟨⟨⟨hblank, hspace⟩, htab⟩, hcomment⟩ := hmargin
      exact ⟨by rw [hl, hblank], by simp [hl, hspace, htab, hcomment]⟩

theorem atMargin_of_mem_cut (hc : c ∈ (cut n previous ls).2) :
    ∃ l, c.lines.head? = some l ∧ AtMargin l := by
  induction ls generalizing n previous with
  | nil => exact absurd hc List.not_mem_nil
  | cons l ls ih =>
    cases hstarts : starts l previous with
    | true =>
      rw [cut_of_starts hstarts] at hc
      rcases List.mem_cons.mp hc with rfl | hc
      · exact ⟨l, rfl, atMargin_of_starts hstarts⟩
      · exact ih hc
    | false =>
      rw [cut_of_not_starts hstarts] at hc
      exact ih hc

/-! ## The chunks of a text -/

/-- The first chunk begins with the first line, and the others are cut from the lines after it. -/
theorem exists_ofText (source : String) : ∃ l ls previous, Text.lines source = l :: ls ∧
    ofText source = ⟨1, l :: (cut 2 previous ls).1⟩ :: (cut 2 previous ls).2 := by
  obtain ⟨l, ls, hlines⟩ := List.exists_cons_of_ne_nil (lines_ne_nil source)
  exact ⟨l, ls, _, hlines, by rw [ofText, hlines]⟩

theorem tiles_ofText (source : String) : Tiles 1 (ofText source) (Text.lines source) := by
  obtain ⟨l, ls, previous, hlines, htext⟩ := exists_ofText source
  rw [hlines, htext]
  exact tiles_cut (List.cons_ne_nil l []) rfl

theorem lines_text (hc : c ∈ ofText source) : Text.lines c.text = c.lines := by
  refine lines_unlines ((tiles_ofText source).ne_nil hc) fun l hl => ?_
  refine not_mem_of_mem_lines (s := source) ?_
  rw [← (tiles_ofText source).flatMap_lines]
  exact List.mem_flatMap.mpr ⟨c, hc, hl⟩

theorem ofText_ne_nil (source : String) : ofText source ≠ [] := by
  obtain ⟨l, ls, previous, -, htext⟩ := exists_ofText source
  simp [htext]

theorem unlines_map_text (source : String) : unlines ((ofText source).map text) = source := by
  have hlines : Text.lines (unlines ((ofText source).map text)) = Text.lines source := by
    rw [lines_unlines_flatMap (by simpa using ofText_ne_nil source), List.flatMap_map,
      List.flatMap_congr fun c hc => lines_text hc, (tiles_ofText source).flatMap_lines]
  rw [← unlines_lines (unlines _), hlines, unlines_lines]

/-- A line of a chunk is the line of the cell that the chunk's number says, if this one is not
blanked. -/
theorem exists_getElem?_lines {k : Nat} (hc : c ∈ ofText (blankMagic source))
    (hl : (Text.lines c.text)[k]? = some l) :
    ∃ m, (Text.lines source)[c.line + k - 1]? = some m ∧ l = if isMagic m then "" else m := by
  rw [lines_text hc] at hl
  obtain ⟨above, below, hlines, hline⟩ := (tiles_ofText _).exists_above hc
  obtain ⟨hk, -⟩ := List.getElem?_eq_some_iff.mp hl
  have hindex : c.line + k - 1 = above.length + k := by omega
  have hplace : (Text.lines (blankMagic source))[above.length + k]? = some l := by
    rw [hlines, List.append_assoc, List.getElem?_append_right (Nat.le_add_right _ _),
      Nat.add_sub_cancel_left, List.getElem?_append_left hk, hl]
  rw [lines_blankMagic, List.getElem?_map, Option.map_eq_some_iff] at hplace
  obtain ⟨m, hm, rfl⟩ := hplace
  exact ⟨m, hindex ▸ hm, rfl⟩

/-- The chunks of a text are its lines in order, numbered from one on, and all but the first begin
at the margin. If the notebook's own lines are blanked beforehand, all lines keep their numbers, so
the lines of a chunk are found in the cell from the chunk's number on. -/
theorem ofText_partition (source : String) :
    unlines ((ofText source).map text) = source ∧
    (∃ first rest, ofText source = first :: rest ∧ first.line = 1 ∧
      ∀ c ∈ rest, ∃ l, (Text.lines c.text).head? = some l ∧ AtMargin l) ∧
    ((ofText source).IsChain fun c d => d.line = c.line + (Text.lines c.text).length) ∧
    (Text.lines (blankMagic source)).length = (Text.lines source).length ∧
    (∀ k : Nat, (Text.lines (blankMagic source))[k]? =
      (Text.lines source)[k]?.map fun l => if isMagic l then "" else l) ∧
    ∀ c ∈ ofText (blankMagic source), 1 ≤ c.line ∧
      ∀ (k : Nat) (l : String), (Text.lines c.text)[k]? = some l →
        ∃ m, (Text.lines source)[c.line + k - 1]? = some m ∧ l = if isMagic m then "" else m := by
  refine ⟨unlines_map_text source, ?_, ?_, by rw [lines_blankMagic, List.length_map],
    fun k => by rw [lines_blankMagic, List.getElem?_map], ?_⟩
  · obtain ⟨l, ls, previous, -, htext⟩ := exists_ofText source
    refine ⟨_, _, htext, rfl, fun c hc => ?_⟩
    have hmem : c ∈ ofText source := by
      rw [htext]
      exact List.mem_cons_of_mem _ hc
    rw [lines_text hmem]
    exact atMargin_of_mem_cut hc
  · refine (tiles_ofText source).isChain.imp_of_mem_tail_imp fun c d hc _ hline => ?_
    rw [hline, lines_text hc]
  · intro c hc
    obtain ⟨above, below, -, hline⟩ := (tiles_ofText _).exists_above hc
    exact ⟨by omega, fun k l hl => exists_getElem?_lines hc hl⟩

/-- A function under a decorator, with lines for the notebook above it and in its body, and a call
that goes on in the next line. -/
def magicLines : String :=
  "%load data\n\n@wraps\ndef f():\n    !ls\n    return 1\n# last\ny = f(\n2)"

theorem ofText_partition_magicLines :
    unlines ((ofText (blankMagic magicLines)).map text) = blankMagic magicLines ∧
    (∃ m, (Text.lines magicLines)[3 + 2 - 1]? = some m ∧ "" = if isMagic m then "" else m) ∧
    ∃ m, (Text.lines magicLines)[8 + 1 - 1]? = some m ∧ "2)" = if isMagic m then "" else m := by
  have hplace := (ofText_partition magicLines).2.2.2.2.2
  exact ⟨(ofText_partition (blankMagic magicLines)).1,
    (hplace ⟨3, ["@wraps", "def f():", "", "    return 1", "# last"]⟩ (by decide)).2 2 ""
      (by decide),
    (hplace ⟨8, ["y = f(", "2)"]⟩ (by decide)).2 1 "2)" (by decide)⟩

end Chunk

end NotebookSlice
