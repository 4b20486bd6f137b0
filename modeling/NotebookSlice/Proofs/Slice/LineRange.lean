import Mathlib.Data.List.Sort
import NotebookSlice.Slice.CellSlice

/-! # Normal ranges cover the same lines

Joining sorted ranges neither loses a line nor adds one.
-/

namespace NotebookSlice.LineRange

@[simp] theorem mem_lines {r : LineRange} {n : ℤ} : n ∈ r.lines ↔ r.first ≤ n ∧ n ≤ r.last := by
  simp only [lines, List.mem_map, List.mem_range]
  constructor
  · rintro ⟨k, hk, rfl⟩
    omega
  · rintro ⟨hf, hl⟩
    exact ⟨(n - r.first).toNat, by omega, by omega⟩

theorem le_iff {a b : LineRange} :
    le a b = true ↔ a.first < b.first ∨ a.first = b.first ∧ a.last ≤ b.last := by
  simp [le]

theorem le_trans (a b c : LineRange) (h : le a b = true) (h' : le b c = true) : le a c = true := by
  rw [le_iff] at *; omega

theorem le_total (a b : LineRange) : (le a b || le b a) = true := by
  rw [Bool.or_eq_true, le_iff, le_iff]; omega

theorem first_le_of_le {a b : LineRange} (h : le a b = true) : a.first ≤ b.first := by
  rw [le_iff] at h; omega

/-- The ranges that are still to come start no earlier than the one at hand. -/
theorem mem_fuse {current : LineRange} {rs : List LineRange} {n : ℤ}
    (hfirst : ∀ r ∈ rs, current.first ≤ r.first)
    (hsorted : rs.Pairwise fun a b => a.first ≤ b.first) :
    (∃ r ∈ fuse current rs, n ∈ r.lines) ↔ n ∈ current.lines ∨ ∃ r ∈ rs, n ∈ r.lines := by
  induction rs generalizing current with
  | nil => simp [fuse]
  | cons r rs ih =>
    obtain ⟨hr, hrs⟩ := List.pairwise_cons.mp hsorted
    have hle : current.first ≤ r.first := hfirst r List.mem_cons_self
    rw [fuse]
    split
    · rename_i htouch
      have hjoined : ∀ q ∈ rs, current.first ≤ q.first := fun q hq => Int.le_trans hle (hr q hq)
      rw [@ih ⟨current.first, max current.last r.last⟩ hjoined hrs]
      simp only [List.exists_mem_cons_iff, ← or_assoc, mem_lines]
      refine or_congr_left ?_
      omega
    · rw [List.exists_mem_cons_iff, List.exists_mem_cons_iff, ih hr hrs]

theorem mem_normalize {rs : List LineRange} {n : ℤ} :
    (∃ r ∈ normalize rs, n ∈ r.lines) ↔ ∃ r ∈ rs, n ∈ r.lines := by
  have hsorted := List.pairwise_mergeSort le_trans le_total rs
  have hmem (r : LineRange) : r ∈ rs.mergeSort le ↔ r ∈ rs := List.mem_mergeSort
  simp only [← hmem]
  unfold normalize
  generalize rs.mergeSort le = sorted at hsorted
  cases sorted with
  | nil => simp
  | cons r rest =>
    obtain ⟨hr, hrest⟩ := List.pairwise_cons.mp hsorted
    rw [List.exists_mem_cons_iff]
    exact mem_fuse (fun q hq => first_le_of_le (hr q hq)) (hrest.imp first_le_of_le)

end LineRange

namespace CellSlice

def extent (s : CellSlice) : Cell × List LineRange := (s.cell, s.ranges)

theorem mem_lineNumbers_ofRanges {cell : Cell} {ranges : List LineRange} {time : Value} {n : ℤ} :
    n ∈ (ofRanges cell ranges time).lineNumbers ↔ ∃ r ∈ ranges, n ∈ r.lines := by
  rw [lineNumbers, List.mem_flatMap]
  exact LineRange.mem_normalize

end NotebookSlice.CellSlice
