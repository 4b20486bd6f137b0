import NotebookSlice.Proofs.Cell.Chunks
import NotebookSlice.Proofs.Cell.Partition
import NotebookSlice.Proofs.Syntax.Sequence

/-! # Chunks that are all parsed

A cell is parsed chunk by chunk only if it cannot be parsed as a whole. Chunks that are
programs one by one make a program as a whole, with the same statements on the same lines.
So a diagnostic comes from every cell that cannot be parsed as a whole, and from no other.
-/

namespace NotebookSlice

open Text Syntax

variable {n : ℕ} {c : Chunk} {cs : List Chunk} {ls : List String} {ss : List Stmt}
  {source : String}

def Chunk.Parses (c : Chunk) : Prop := ∃ ss, parse c.line c.text.toList = .ok ss

instance : DecidablePred Chunk.Parses := fun c =>
  decidable_of_iff ((parse c.line c.text.toList).toOption.isSome = true) <| by
    rw [Chunk.Parses]
    cases parse c.line c.text.toList <;> simp [Except.toOption]

namespace Code

theorem ofChunks_cons (c : Chunk) (cs : List Chunk) :
    ofChunks (c :: cs) = append (ofChunk c) (ofChunks cs) := rfl

theorem diagnostics_ofChunk : (ofChunk c).diagnostics = [] ↔ c.Parses := by
  cases hparse : parse c.line c.text.toList with
  | ok ss => simp [ofChunk_of_ok hparse, Chunk.Parses, hparse]
  | error k => simp [ofChunk_of_error hparse, Chunk.Parses, hparse]

theorem diagnostics_ofChunks : (ofChunks cs).diagnostics = [] ↔ ∀ c ∈ cs, c.Parses := by
  induction cs with
  | nil => simp [ofChunks]
  | cons c cs ih => simp [ofChunks_cons, append, ih, diagnostics_ofChunk]

end Code

namespace Text

theorem count_unlines (hne : ls ≠ []) (h : ∀ l ∈ ls, '\n' ∉ l.toList) :
    (unlines ls).toList.count '\n' + 1 = ls.length := by
  rw [← count_ended h, ended_eq hne, List.count_append]
  rfl

theorem returnsEndLines_unlines (h : ∀ l ∈ ls, ReturnsEndLines l.toList) :
    ReturnsEndLines (unlines ls).toList := by
  rcases eq_or_ne ls [] with rfl | hne
  · exact .nil
  · have hended := returnsEndLines_ended.mpr h
    rw [ended_eq hne] at hended
    exact hended.left_of_append

theorem unlines_append {ms : List String} (hls : ls ≠ []) (hms : ms ≠ []) :
    (unlines (ls ++ ms)).toList = (unlines ls).toList ++ '\n' :: (unlines ms).toList := by
  have hne : ls ++ ms ≠ [] := List.append_ne_nil_of_left_ne_nil hls ms
  refine (List.append_left_inj ['\n']).mp ?_
  rw [← ended_eq hne, ended_append, ended_eq hls, ended_eq hms]
  simp

end Text

namespace Chunk

theorem Tiles.unlines_ne_nil (h : Tiles n (c :: cs) ls) (hc : c.text.toList ≠ []) :
    (unlines ls).toList ≠ [] := by
  cases h with
  | @cons _ _ _ ls _ hlines _ =>
    rcases eq_or_ne ls [] with rfl | hls
    · rwa [List.append_nil]
    · rw [unlines_append hlines hls]
      exact List.append_ne_nil_of_right_ne_nil _ (List.cons_ne_nil _ _)

theorem Tiles.lines_ne_nil (h : Tiles n (c :: cs) ls) : ls ≠ [] := by
  cases h with
  | cons _ hlines _ => exact List.append_ne_nil_of_left_ne_nil hlines _

theorem Tiles.exists_parse (h : Tiles n cs ls) (hn : 1 ≤ n) (hne : cs ≠ [])
    (hlines : ∀ l ∈ ls, '\n' ∉ l.toList) (htail : ∀ c ∈ cs.tail, c.text.toList ≠ [])
    (hparse : ∀ c ∈ cs, c.Parses) : ∃ ss, parse n (unlines ls).toList = .ok ss ∧
      ((∀ l ∈ ls, ReturnsEndLines l.toList) → ss = (Code.ofChunks cs).statements) := by
  induction h with
  | nil => exact absurd rfl hne
  | @cons n c cs ls hline hc hrest ih =>
    obtain ⟨⟨ss, hss⟩, hcs⟩ := List.forall_mem_cons.mp hparse
    obtain ⟨hfirst, hlater⟩ := List.forall_mem_append.mp hlines
    rw [Code.ofChunks_cons, Code.ofChunk_of_ok hss]
    rw [hline] at hss
    cases cs with
    | nil =>
      obtain rfl : ls = [] := hrest.flatMap_lines.symm
      rw [List.append_nil]
      exact ⟨ss, hss, fun _ => (List.append_nil ss).symm⟩
    | cons d ds =>
      obtain ⟨ts, hts, heq⟩ := ih (by omega) (List.cons_ne_nil d ds) hlater
        (fun e he => htail e (List.mem_cons_of_mem d he)) hcs
      obtain ⟨k, hk, hwhole⟩ := exists_parse_append hn
        (hrest.unlines_ne_nil (htail d List.mem_cons_self)) hss
      obtain ⟨ts', hts'⟩ := exists_parse_line hts (n + k)
      refine ⟨ss ++ ts', ?_, fun hreturns => ?_⟩
      · rw [unlines_append hc hrest.lines_ne_nil]
        exact hwhole ts' hts'
      · obtain ⟨hreturn, hreturns⟩ := List.forall_mem_append.mp hreturns
        rw [hk (returnsEndLines_unlines hreturn), show c.text = unlines c.lines from rfl,
          count_unlines hc hfirst, hts] at hts'
        rw [← Except.ok.inj hts', heq hreturns]
        rfl

theorem text_ne_nil (hc : c ∈ (ofText source).tail) : c.text.toList ≠ [] := by
  obtain ⟨l, ls, previous, -, htext⟩ := exists_ofText source
  have hmem : c ∈ ofText source := List.mem_of_mem_tail hc
  rw [htext, List.tail_cons] at hc
  obtain ⟨l', hl', hmargin⟩ := atMargin_of_mem_cut hc
  rw [← lines_text hmem] at hl'
  intro hnil
  rw [Text.lines, hnil] at hl'
  obtain rfl : "" = l' := Option.some.inj hl'
  cases hmargin.notBlank

theorem exists_parse_ofText (hparse : ∀ c ∈ ofText source, c.Parses) :
    ∃ ss, parse 1 source.toList = .ok ss ∧
      (ReturnsEndLines source.toList → ss = (Code.ofChunks (ofText source)).statements) := by
  obtain ⟨ss, hss, heq⟩ := (tiles_ofText source).exists_parse (Nat.le_refl 1)
    (ofText_ne_nil source) (fun l hl => not_mem_of_mem_lines hl) (fun c hc => text_ne_nil hc) hparse
  rw [unlines_lines] at hss
  exact ⟨ss, hss, fun hreturn => heq fun l hl => returnsEndLines_of_mem_lines hreturn hl⟩

end Chunk

namespace Code

variable {cleaned : String}

/-- Code has no diagnostics if it is parsed as a whole, and only then. -/
theorem ofPlain_eq_iff : ofPlain cleaned = ⟨ss, []⟩ ↔ parse 1 cleaned.toList = .ok ss := by
  refine ⟨fun h => ?_, ofPlain_of_ok⟩
  cases hparse : parse 1 cleaned.toList with
  | ok ts =>
    rw [ofPlain_of_ok hparse, Code.mk.injEq] at h
    rw [h.1]
  | error k =>
    rw [ofPlain_of_error hparse] at h
    obtain ⟨ts, hts, -⟩ :=
      Chunk.exists_parse_ofText (diagnostics_ofChunks.mp (congrArg diagnostics h))
    rw [hparse] at hts
    cases hts

end Code

end NotebookSlice
