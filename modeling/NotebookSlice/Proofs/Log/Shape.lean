import NotebookSlice.Proofs.Log.Slices
import NotebookSlice.Proofs.Pairs
import NotebookSlice.Proofs.Slice.SliceText

/-! # The shape of a slice

The slices of an entry belong to the entries with a needed statement, one to each
and in their order. The lines of one are those of the needed statements.
-/

namespace NotebookSlice

open List (Forall₂)
open NotebookSlice.Flow

/-- Slices whose entries are before each other have greater and greater counts. -/
theorem pairwise_countedBefore {R : Entry → CellSlice → Prop}
    (hcell : ∀ f s, R f s → s.cell = f.cell) {fs : List Entry} {slices : List CellSlice}
    (h : Forall₂ R fs slices) (hfs : fs.Pairwise Log.CountedBefore) :
    slices.Pairwise fun a b => a.cell.CountedBefore b.cell := by
  have hmap : slices.map CellSlice.cell = fs.map Entry.cell := by
    induction h with
    | nil => rfl
    | cons hr _ ih => rw [List.map_cons, List.map_cons, hcell _ _ hr, ih hfs.tail]
  refine List.pairwise_map.mp (?_ : (slices.map CellSlice.cell).Pairwise Cell.CountedBefore)
  rw [hmap]
  exact List.pairwise_map.mpr hfs

namespace Log

/-- A slice with the lines of an entry's included statements, each line once and in order. -/
structure IsSliceOf (log : Log) (included : List Ref) (f : Entry) (s : CellSlice) : Prop where
  cell : s.cell = f.cell
  time : s.time = f.time
  increasing : s.lineNumbers.Pairwise (· < ·)
  mem_lineNumbers : ∀ n, n ∈ s.lineNumbers ↔
    ∃ w ∈ f.statements, (f.position, w.index) ∈ included ∧ w.first ≤ n ∧ n ≤ w.last

namespace Sound

variable {log : Log} (h : log.Sound) {included : List Ref} {e f : Entry} {s : CellSlice}
include h

theorem isSliceOf_of_cellSlice? (hf : f ∈ log.entries) (hs : log.cellSlice? included f = some s) :
    log.IsSliceOf included f s := by
  obtain ⟨-, rfl⟩ := cellSlice?_eq_some_iff.mp hs
  refine ⟨rfl, rfl, ?_, fun n => ?_⟩
  · exact (LineRange.isNormal_normalize (h.first_le_last_of_mem_rangesIn hf)).pairwise_lines
  · rw [CellSlice.mem_lineNumbers_ofRanges]
    constructor
    · rintro ⟨r, hr, hn⟩
      obtain ⟨w, hw, hmem, rfl⟩ := (h.mem_rangesIn hf).mp hr
      exact ⟨w, hw, hmem, LineRange.mem_lines.mp hn⟩
    · rintro ⟨w, hw, hmem, hn⟩
      exact ⟨_, (h.mem_rangesIn hf).mpr ⟨w, hw, hmem, rfl⟩, LineRange.mem_lines.mpr hn⟩

theorem forall₂_isSliceOf : Forall₂ (log.IsSliceOf (log.closure e)) (log.contributors e)
    (log.sliceEntry e).slices := by
  rw [h.slices_eq_contributors]
  refine forall₂_filterMap fun f hf => ?_
  obtain ⟨hmem, hsome⟩ := List.mem_filter.mp hf
  obtain ⟨s, hs⟩ := Option.isSome_iff_exists.mp hsome
  exact ⟨s, hs, h.isSliceOf_of_cellSlice? hmem hs⟩

theorem exists_getLast?_slices (he : e ∈ log.entries) (hsome : e.statements ≠ []) :
    ∃ s, (log.sliceEntry e).slices.getLast? = some s ∧ log.IsSliceOf (log.closure e) e s :=
  exists_getLast?_left h.forall₂_isSliceOf.flip (h.getLast?_contributors he hsome)

theorem exists_contributor_iff {k : ℕ} :
    (∃ f ∈ log.contributors e, f.position = k) ↔ ∃ r ∈ log.closure e, r.1 = k := by
  constructor
  · rintro ⟨f, hf, rfl⟩
    obtain ⟨-, w, -, hneeds⟩ := h.mem_contributors_iff.mp hf
    exact ⟨_, hneeds, rfl⟩
  · rintro ⟨r, hr, rfl⟩
    exact h.exists_contributor hr

theorem position_le_of_mem_contributors (hf : f ∈ log.contributors e) :
    f.position ≤ e.position := by
  obtain ⟨-, w, -, hneeds⟩ := h.mem_contributors_iff.mp hf
  exact h.position_le_of_mem_closure _ hneeds

end Sound

end Log

/-- The slices of an entry are those of the entries whose positions have a statement in the closure,
with their needed lines. Counts and positions increase, none is later than the entry, and the last
slice is the one of the entry itself unless it has no statements. -/
theorem Session.shape_sliceEntry {session : Session} (h : session.Reachable) {e : Entry}
    (he : e ∈ session.log.entries) :
    ∃ contributors : List Entry, contributors.Sublist session.log.entries ∧
      Forall₂ (session.log.IsSliceOf (session.log.closure e)) contributors
        (session.log.sliceEntry e).slices ∧
      (∀ k, (∃ f ∈ contributors, f.position = k) ↔ ∃ r ∈ session.log.closure e, r.1 = k) ∧
      contributors.Pairwise (fun f g => f.position < g.position) ∧
      (session.log.sliceEntry e).slices.Pairwise (fun a b => a.cell.CountedBefore b.cell) ∧
      (∀ f ∈ contributors, f.position ≤ e.position) ∧
      (e.statements ≠ [] → contributors.getLast? = some e ∧
        ∃ s, (session.log.sliceEntry e).slices.getLast? = some s ∧ s.cell = e.cell) := by
  have hsound := h.log.sound
  have hsublist : (session.log.contributors e).Sublist session.log.entries := List.filter_sublist
  have hslices := hsound.forall₂_isSliceOf (e := e)
  refine ⟨session.log.contributors e, hsublist, hslices, fun k => hsound.exists_contributor_iff,
    hsound.position_lt.sublist hsublist, ?_, fun f => hsound.position_le_of_mem_contributors,
    fun hsome => ?_⟩
  · exact pairwise_countedBefore (fun f s hs => hs.cell) hslices
      (hsound.increasing.sublist hsublist)
  · obtain ⟨s, hs, hr⟩ := hsound.exists_getLast?_slices he hsome
    exact ⟨hsound.getLast?_contributors he hsome, s, hs, hr.cell⟩

/-- Of the first cell the second line is needed for the last cell, and nothing of the middle one. -/
theorem shape_sliceEntry_skippedCell : ∃ session : Session, session.Reachable ∧
    ∃ e ∈ session.log.entries, session.log.closure e = [(2, 0), (0, 1)] ∧
      ∃ contributors : List Entry,
        Forall₂ (session.log.IsSliceOf (session.log.closure e)) contributors
          (session.log.sliceEntry e).slices ∧
        (∀ k, (∃ f ∈ contributors, f.position = k) ↔ k = 2 ∨ k = 0) ∧
        contributors.getLast? = some e := by
  obtain ⟨session, h, hlast⟩ := Session.exists_of_postAll
    [.counted 1 "a = 1\nb = 2", .counted 2 "c = 3", .counted 3 "print(b)"]
    (p := fun log => (log.entries.map fun e => (e.statements.length, log.closure e)).getLast? =
      some (1, [(2, 0), (0, 1)]))
    (by decide +kernel)
  obtain ⟨e, he, heq⟩ := List.mem_map.mp (List.mem_of_getLast? hlast)
  obtain ⟨hlength, hclosure⟩ := Prod.mk.inj heq
  have hsome : e.statements ≠ [] := List.ne_nil_of_length_pos (by omega)
  obtain ⟨contributors, -, hslices, hpositions, -, -, -, hcontributors⟩ :=
    Session.shape_sliceEntry h he
  refine ⟨session, h, e, he, hclosure, contributors, hslices, fun k => ?_, (hcontributors hsome).1⟩
  rw [hpositions, hclosure]
  simp [eq_comm]

end NotebookSlice
