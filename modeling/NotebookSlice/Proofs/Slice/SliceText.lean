import NotebookSlice.Proofs.Slice.NormalRanges
import NotebookSlice.Proofs.Text.Lines

/-! # The text of a slice

A slice has the lines of its cell that its ranges cover, in their order.
-/

namespace NotebookSlice

open Text

namespace LineRange

theorem pairwise_lines (r : LineRange) : r.lines.Pairwise (· < ·) := by
  refine List.pairwise_map.mpr (List.pairwise_lt_range.imp fun h => ?_)
  omega

theorem IsNormal.pairwise_lines {rs : List LineRange} (h : IsNormal rs) :
    (rs.flatMap LineRange.lines).Pairwise (· < ·) := by
  refine List.pairwise_flatMap.mpr ⟨fun r _ => r.pairwise_lines, h.apart.imp fun hab m hm n hn => ?_⟩
  have := (mem_lines.mp hm).2
  have := (mem_lines.mp hn).1
  omega

end LineRange

namespace CellSlice

theorem mapM_line? {all ls : List String} {ns : List ℤ} {k : ℕ}
    (hls : all.drop k = ls) (hsorted : ns.Pairwise (· < ·))
    (hns : ∀ n ∈ ns, k < n ∧ n ≤ k + ls.length) :
    ns.mapM (line? all) = some (kept (fun n => decide ((n : ℤ) ∈ ns)) (k + 1) ls) := by
  induction ls generalizing k ns with
  | nil =>
    cases ns with
    | nil => rfl
    | cons n ns =>
      have := hns n List.mem_cons_self
      simp at this
      omega
  | cons l ls ih =>
    have hdrop : all.drop (k + 1) = ls := by rw [← List.tail_drop, hls, List.tail_cons]
    have hlater {ms : List ℤ} (hms : ms ⊆ ns) (hne : ((k + 1 : ℕ) : ℤ) ∉ ms) :
        ∀ n ∈ ms, ((k + 1 : ℕ) : ℤ) < n ∧ n ≤ (k + 1 : ℕ) + ls.length := by
      intro n hn
      have := hns n (hms hn)
      have : n ≠ ((k + 1 : ℕ) : ℤ) := fun h => hne (h ▸ hn)
      simp only [List.length_cons] at *
      omega
    by_cases hmem : ((k + 1 : ℕ) : ℤ) ∈ ns
    · obtain ⟨n, ms, rfl⟩ := List.exists_cons_of_ne_nil (List.ne_nil_of_mem hmem)
      obtain ⟨hn, hms⟩ := List.pairwise_cons.mp hsorted
      obtain rfl : ((k + 1 : ℕ) : ℤ) = n := by
        refine (List.mem_cons.mp hmem).resolve_right fun hin => ?_
        have := hn _ hin
        have := (hns n List.mem_cons_self).1
        omega
      have hnot : ((k + 1 : ℕ) : ℤ) ∉ ms := fun hin => lt_irrefl _ (hn _ hin)
      have hline : line? all ((k + 1 : ℕ) : ℤ) = some l := by
        have : all[k]? = some l := by
          rw [← List.head?_drop, hls, List.head?_cons]
        rw [line?, if_pos (by omega)]
        simpa using this
      have hkept : kept (fun n => decide ((n : ℤ) ∈ ((k + 1 : ℕ) : ℤ) :: ms)) (k + 1 + 1) ls =
          kept (fun n => decide ((n : ℤ) ∈ ms)) (k + 1 + 1) ls :=
        kept_congr fun m hm _ => by
          have : ((m : ℕ) : ℤ) ≠ ((k + 1 : ℕ) : ℤ) := by omega
          rw [decide_eq_decide, List.mem_cons, or_iff_right this]
      rw [List.mapM_cons, hline, ih hdrop hms (hlater (List.subset_cons_self _ _) hnot), kept,
        if_pos (by simp), hkept]
      rfl
    · rw [kept, if_neg (by simpa using hmem)]
      exact ih hdrop hsorted (hlater (List.Subset.refl ns) hmem)

/-- The text of a slice is made of its lines, if they are in order. Numbers beyond the cell do not
count. -/
theorem text?_of_increasing {s : CellSlice} (hsorted : s.lineNumbers.Pairwise (· < ·))
    (hfirst : ∀ n ∈ s.lineNumbers, 1 ≤ n) :
    s.text? =
      some (unlines (kept (fun n => decide ((n : ℤ) ∈ s.lineNumbers)) 1 s.cell.lines)) := by
  have hlines := mapM_line? (List.drop_zero : s.cell.lines.drop 0 = s.cell.lines)
    (hsorted.filter fun (n : ℤ) => n ≤ s.cell.lines.length) fun n hn => by
      obtain ⟨hn, hle⟩ := List.mem_filter.mp hn
      have := hfirst n hn
      have := of_decide_eq_true hle
      omega
  have hkept : kept (fun n => decide ((n : ℤ) ∈ (s.lineNumbers.filter
        fun (n : ℤ) => n ≤ s.cell.lines.length))) 1 s.cell.lines =
      kept (fun n => decide ((n : ℤ) ∈ s.lineNumbers)) 1 s.cell.lines :=
    kept_congr fun k _ hk => by
      have hle : (k : ℤ) ≤ s.cell.lines.length := by omega
      simp [List.mem_filter, hle]
  rw [text?, lines?, ← hkept]
  exact congrArg (Option.map unlines) hlines

end CellSlice

end NotebookSlice
