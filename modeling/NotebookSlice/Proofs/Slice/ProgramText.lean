import NotebookSlice.Proofs.Text.Lines
import NotebookSlice.Slice.Program

/-! # Cells in a program text

Above each cell of a program stands the marker on a line of its own, and below it an
empty line. So the program, cut at its marker lines, gives back the text of each cell,
as long as no cell has the marker among its own lines.
-/

namespace NotebookSlice

open Text

theorem mapM_eq_some_iff {α β : Type} {f : α → Option β} {as : List α} {bs : List β} :
    as.mapM f = some bs ↔ as.map f = bs.map some := by
  induction as generalizing bs with
  | nil => cases bs <;> simp
  | cons a as ih =>
    rw [List.mapM_cons, List.map_cons]
    cases f a with
    | none => cases bs <;> simp
    | some b =>
      cases bs with
      | nil => simp [Option.bind_eq_some_iff]
      | cons c cs =>
        rw [List.map_cons, List.cons.injEq, ← ih]
        cases as.mapM f <;> simp

theorem isSome_mapM {α β : Type} {f : α → Option β} {as : List α} :
    (as.mapM f).isSome = true ↔ ∀ a ∈ as, (f a).isSome = true := by
  induction as with
  | nil => simp
  | cons a as ih =>
    rw [List.mapM_cons, List.forall_mem_cons, ← ih]
    cases f a <;> cases as.mapM f <;> simp

/-- A list is cut at a separator into what stands before it and what stands after each one. -/
theorem splitOn_append_flatMap {α : Type} [DecidableEq α] {sep : α} {above : List α}
    {ps : List (List α)} (habove : sep ∉ above) (hps : ∀ p ∈ ps, sep ∉ p) :
    (above ++ ps.flatMap (sep :: ·)).splitOn sep = above :: ps := by
  induction ps generalizing above with
  | nil => simpa using List.splitOn_eq_singleton habove
  | cons p ps ih =>
    obtain ⟨hp, hps⟩ := List.forall_mem_cons.mp hps
    rw [List.flatMap_cons, List.cons_append, List.splitOn_append_cons_self_of_not_mem habove,
      ih hp hps]

/-! ## Slices with a text -/

namespace CellSlice

/-- Among the numbers that are not passed over, those have a line that do not count back beyond
the first one. -/
theorem isSome_line? {ls : List String} {n : Int} (h : n ≤ ls.length) :
    (line? ls n).isSome = true ↔ 1 ≤ n + ls.length := by
  unfold line?
  split
  · rw [isSome_getElem?]
    omega
  · split
    · rw [isSome_getElem?]
      omega
    · simp only [Option.isSome_none, Bool.false_eq_true, false_iff]
      omega

/-- A slice has a text unless one of its line numbers counts back beyond the first line. -/
theorem isSome_text? (s : CellSlice) :
    s.text?.isSome = true ↔ ∀ n ∈ s.lineNumbers, 1 ≤ n + s.cell.lines.length := by
  rw [text?, Option.isSome_map, lines?, isSome_mapM]
  constructor
  · intro h n hn
    by_cases hle : n ≤ s.cell.lines.length
    · exact (isSome_line? hle).mp (h n (List.mem_filter.mpr ⟨hn, decide_eq_true hle⟩))
    · omega
  · intro h n hn
    obtain ⟨hn, hle⟩ := List.mem_filter.mp hn
    exact (isSome_line? (of_decide_eq_true hle)).mpr (h n hn)

end CellSlice

namespace Program

variable {marker header text : String} {texts : List String} {s : SlicedExecution}

/-- The lines of a program between its marker lines. -/
def pieces (marker program : String) : List (List String) := (lines program).splitOn marker

/-- What stands below each marker line, without the empty line at its end. -/
def textsOf (marker program : String) : List String :=
  (pieces marker program).tail.map fun piece => unlines piece.dropLast

/-- The lines above the first marker: a header and an empty line. A program without a header and
without cells is one empty line. -/
def front (header : String) (texts : List String) : List String :=
  if header ≠ "" then [header, ""] else if texts = [] then [""] else []

theorem not_mem_front (hmarker : marker ≠ "") (hne : header ≠ marker) :
    marker ∉ front header texts := by
  unfold front
  split
  · simp [hmarker, hne.symm]
  · split <;> simp [hmarker]

/-! ## The lines of a program -/

theorem lines_append_newline (t : String) : lines (t ++ "\n") = lines t ++ [""] := by
  have happend := lines_append t ""
  rwa [String.append_empty, lines_eq_singleton (s := "") List.not_mem_nil] at happend

theorem lines_cellPart (hline : '\n' ∉ marker.toList) :
    lines (cellPart marker text) = marker :: (lines text ++ [""]) := by
  rw [cellPart, lines_append_newline, lines_append, lines_eq_singleton hline]
  rfl

/-- Each cell has its marker above it and an empty line below it, also the last one. -/
theorem lines_ofTexts (hline : '\n' ∉ marker.toList) (hheader : '\n' ∉ header.toList) :
    lines (ofTexts marker header texts) =
      front header texts ++ texts.flatMap fun text => marker :: (lines text ++ [""]) := by
  have hcells : (texts.map (cellPart marker)).flatMap lines =
      texts.flatMap fun text => marker :: (lines text ++ [""]) := by
    simp only [List.flatMap_map, lines_cellPart hline]
  rw [ofTexts, headerPart, front]
  by_cases hempty : header = ""
  · rw [if_pos (by simp [hempty]), if_neg (by simp [hempty]), List.nil_append]
    by_cases htexts : texts = []
    · rw [htexts]
      rfl
    · rw [lines_unlines_flatMap (by simpa using htexts), hcells, if_neg htexts, List.nil_append]
  · rw [if_neg (by simpa using hempty), if_pos hempty, lines_unlines_flatMap (by simp),
      List.flatMap_append, hcells, List.flatMap_singleton, lines_append_newline,
      lines_eq_singleton hheader]
    rfl

theorem pieces_ofTexts (hmarker : marker ≠ "") (hline : '\n' ∉ marker.toList)
    (hheader : '\n' ∉ header.toList) (hne : header ≠ marker)
    (htexts : ∀ text ∈ texts, marker ∉ lines text) :
    pieces marker (ofTexts marker header texts) =
      front header texts :: texts.map fun text => lines text ++ [""] := by
  have hpieces : ∀ p ∈ texts.map fun text => lines text ++ [""], marker ∉ p := by
    simpa [hmarker] using htexts
  rw [pieces, lines_ofTexts hline hheader,
    ← splitOn_append_flatMap (not_mem_front hmarker hne) hpieces, List.flatMap_map]

/-! ## Reading the texts back -/

theorem exists_ofSlices_iff : (∃ program, ofSlices marker header s = .ok program) ↔
    ∀ c ∈ s.slices, ∀ n ∈ c.lineNumbers, 1 ≤ n + c.cell.lines.length := by
  have hsome : (texts? s).isSome = true ↔
      ∀ c ∈ s.slices, ∀ n ∈ c.lineNumbers, 1 ≤ n + c.cell.lines.length := by
    simp only [texts?, isSome_mapM, CellSlice.isSome_text?]
  rw [← hsome, ofSlices]
  cases texts? s <;> simp

theorem exists_texts_of_ofSlices {program : String} (h : ofSlices marker header s = .ok program) :
    ∃ texts, s.slices.map CellSlice.text? = texts.map some ∧
      ofTexts marker header texts = program := by
  rw [ofSlices] at h
  cases hsome : texts? s with
  | none => simp [hsome] at h
  | some texts => exact ⟨texts, mapM_eq_some_iff.mp hsome, by simpa [hsome] using h⟩

/-- There is a program unless a line number counts back beyond the first line of its cell. Cut at
the marker lines, it consists of the header's part and one piece for each cell in order, which has
the lines of the cell's text and one empty line more. So the texts are read back from it. -/
theorem pieces_ofSlices (hmarker : marker ≠ "") (hline : '\n' ∉ marker.toList)
    (hheader : '\n' ∉ header.toList) (hne : header ≠ marker)
    (hlines : ∀ c ∈ s.slices, ∀ text, c.text? = some text → marker ∉ lines text) :
    ((∃ program, ofSlices marker header s = .ok program) ↔
      ∀ c ∈ s.slices, ∀ n ∈ c.lineNumbers, 1 ≤ n + c.cell.lines.length) ∧
    ∀ program, ofSlices marker header s = .ok program →
      ∃ texts, s.slices.map CellSlice.text? = texts.map some ∧
        pieces marker program = front header texts :: texts.map (fun text => lines text ++ [""]) ∧
        textsOf marker program = texts := by
  refine ⟨exists_ofSlices_iff, fun program hprogram => ?_⟩
  obtain ⟨texts, hmap, rfl⟩ := exists_texts_of_ofSlices hprogram
  have htexts : ∀ text ∈ texts, marker ∉ lines text := by
    intro text htext
    have hmem : some text ∈ s.slices.map CellSlice.text? := by
      rw [hmap]
      exact List.mem_map_of_mem htext
    obtain ⟨c, hc, hctext⟩ := List.mem_map.mp hmem
    exact hlines c hc text hctext
  have hpieces := pieces_ofTexts hmarker hline hheader hne htexts
  refine ⟨texts, hmap, hpieces, ?_⟩
  rw [textsOf, hpieces]
  simp [Function.comp_def]

/-- Slices of three cells: one that ends in empty lines, one without lines, and one that has the
lines around a marker. -/
def blankLines : SlicedExecution where
  time := .null
  slices :=
    [⟨⟨.null, "a = 1\n\n", .int 1, .null, .null, .null, .null⟩, [⟨1, 3⟩], .null⟩,
      ⟨⟨.null, "b = 2", .int 2, .null, .null, .null, .null⟩, [], .null⟩,
      ⟨⟨.null, "\nprint(a)\n# %%\n", .int 3, .null, .null, .null, .null⟩, [⟨1, 2⟩, ⟨4, 9⟩], .null⟩]

theorem pieces_ofSlices_blankLines :
    ∃ program, ofSlices defaultMarker defaultHeader blankLines = .ok program ∧
      textsOf defaultMarker program = ["a = 1\n\n", "", "\nprint(a)\n"] := by
  have hall := @pieces_ofSlices defaultMarker defaultHeader blankLines (by decide) (by decide)
    (by decide) (by decide) (by decide)
  obtain ⟨program, hprogram⟩ := hall.1.mpr (by decide)
  obtain ⟨texts, hmap, -, hread⟩ := hall.2 program hprogram
  have hshown : blankLines.slices.map CellSlice.text? =
      ["a = 1\n\n", "", "\nprint(a)\n"].map some := by decide
  rw [hmap, List.map_inj_right fun _ _ => Option.some.inj] at hshown
  exact ⟨program, hprogram, hread.trans hshown⟩

end Program

end NotebookSlice
