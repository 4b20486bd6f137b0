import NotebookSlice.Text.Lines

/-! # Lines and texts

Cutting a text at its line feeds and joining lines undo each other.
-/

namespace NotebookSlice.Text

variable {s t : String} {ls ms : List String}

theorem splitAt_eq_splitOn (sep : Char) (cs : List Char) : splitAt sep cs = cs.splitOn sep := by
  induction cs with
  | nil => simp [splitAt]
  | cons c cs ih =>
    rw [splitAt, ih, List.splitOn_cons_eq_if_modifyHead]
    simp only [beq_iff_eq]
    split
    · rfl
    · obtain ⟨piece, pieces, hpieces⟩ := List.exists_cons_of_ne_nil (List.splitOn_ne_nil sep cs)
      simp [hpieces]

theorem not_mem_of_mem_splitAt {sep : Char} {cs piece : List Char} (h : piece ∈ splitAt sep cs) :
    sep ∉ piece := by
  induction cs generalizing piece with
  | nil => simp_all [splitAt]
  | cons c cs ih =>
    obtain ⟨first, rest, hpieces⟩ := List.exists_cons_of_ne_nil (splitAt_ne_nil sep cs)
    rw [splitAt, hpieces] at h
    rw [hpieces] at ih
    split at h
    · rcases List.mem_cons.mp h with rfl | h
      · exact List.not_mem_nil
      · exact ih h
    · rename_i hne
      rcases List.mem_cons.mp h with rfl | h
      · exact List.not_mem_cons_of_ne_of_not_mem (Ne.symm hne) (ih List.mem_cons_self)
      · exact ih (List.mem_cons_of_mem _ h)

theorem lines_eq (s : String) : lines s = (s.toList.splitOn '\n').map String.ofList := by
  rw [lines, splitLines, splitAt_eq_splitOn]

theorem toList_unlines (ls : List String) :
    (unlines ls).toList = ['\n'].intercalate (ls.map String.toList) := String.toList_intercalate

theorem not_mem_of_mem_lines {l : String} (h : l ∈ lines s) : '\n' ∉ l.toList := by
  obtain ⟨cs, hcs, rfl⟩ := List.mem_map.mp h
  rw [String.toList_ofList]
  exact not_mem_of_mem_splitAt hcs

@[simp] theorem unlines_lines (s : String) : unlines (lines s) = s := by
  rw [← String.toList_inj, toList_unlines, lines_eq, List.map_map]
  simp [Function.comp_def, List.intercalate_splitOn]

theorem lines_unlines (hne : ls ≠ []) (h : ∀ l ∈ ls, '\n' ∉ l.toList) : lines (unlines ls) = ls := by
  rw [lines_eq, toList_unlines, List.splitOn_intercalate]
  · simp [Function.comp_def]
  · simpa using h
  · simpa using hne

theorem subset_of_mem_splitAt {sep : Char} {cs piece : List Char} (h : piece ∈ splitAt sep cs) :
    piece ⊆ cs := by
  induction cs generalizing piece with
  | nil => simp_all [splitAt]
  | cons c cs ih =>
    obtain ⟨first, rest, hpieces⟩ := List.exists_cons_of_ne_nil (splitAt_ne_nil sep cs)
    rw [splitAt, hpieces] at h
    rw [hpieces] at ih
    split at h
    · rcases List.mem_cons.mp h with rfl | h
      · exact List.nil_subset _
      · exact List.subset_cons_of_subset c (ih h)
    · rcases List.mem_cons.mp h with rfl | h
      · exact List.cons_subset_cons c (ih List.mem_cons_self)
      · exact List.subset_cons_of_subset c (ih (List.mem_cons_of_mem _ h))

theorem subset_of_mem_lines {l : String} (h : l ∈ lines s) : l.toList ⊆ s.toList := by
  obtain ⟨cs, hcs, rfl⟩ := List.mem_map.mp h
  rw [String.toList_ofList]
  exact subset_of_mem_splitAt hcs

theorem not_mem_unlines {c : Char} (hc : c ≠ '\n') (h : ∀ l ∈ ls, c ∉ l.toList) :
    c ∉ (unlines ls).toList := by
  rw [toList_unlines]
  induction ls with
  | nil => simp [List.intercalate]
  | cons l ls ih =>
    obtain ⟨hl, hls⟩ := List.forall_mem_cons.mp h
    cases ls with
    | nil => simpa [List.intercalate] using hl
    | cons m ls =>
      have hrest := ih hls
      simp only [List.map_cons, List.intercalate_cons_cons, List.mem_append, List.mem_singleton,
        not_or] at hrest ⊢
      exact ⟨⟨hl, hc⟩, hrest⟩

theorem lines_append (s t : String) : lines (s ++ "\n" ++ t) = lines s ++ lines t := by
  have hlist : (s ++ "\n" ++ t).toList = s.toList ++ '\n' :: t.toList := by simp
  rw [lines_eq, hlist, List.splitOn_append_cons_self, List.map_append, ← lines_eq, ← lines_eq]

theorem lines_eq_singleton (h : '\n' ∉ s.toList) : lines s = [s] := by
  rw [← lines_unlines (List.cons_ne_nil s []) (by simpa using h)]
  simp [unlines]

/-- Texts with a line feed between any two have the lines of each text. -/
theorem lines_unlines_flatMap (hne : ls ≠ []) : lines (unlines ls) = ls.flatMap lines := by
  induction ls with
  | nil => exact absurd rfl hne
  | cons l ls ih =>
    cases ls with
    | nil => simp [unlines]
    | cons m ls =>
      have hjoin : unlines (l :: m :: ls) = l ++ "\n" ++ unlines (m :: ls) := by
        simp [unlines]
      rw [hjoin, lines_append, List.flatMap_cons, ih (List.cons_ne_nil m ls)]

/-! ## Some of the lines -/

/-- The lines to be kept, of which the first one has the number `n`. -/
def kept (keep : Nat → Bool) : (n : Nat) → List String → List String
  | _, [] => []
  | n, l :: ls => if keep n then l :: kept keep (n + 1) ls else kept keep (n + 1) ls

theorem kept_subset (keep : Nat → Bool) (n : Nat) (ls : List String) : kept keep n ls ⊆ ls := by
  induction ls generalizing n with
  | nil => exact List.Subset.refl _
  | cons l ls ih =>
    rw [kept]
    split
    · exact List.cons_subset_cons l (ih _)
    · exact List.subset_cons_of_subset l (ih _)

theorem kept_map (f : String → String) (keep : Nat → Bool) (n : Nat) (ls : List String) :
    kept keep n (ls.map f) = (kept keep n ls).map f := by
  induction ls generalizing n with
  | nil => rfl
  | cons l ls ih =>
    rw [List.map_cons, kept, kept, ih]
    split <;> rfl

theorem kept_append (keep : Nat → Bool) (n : Nat) (ls ms : List String) :
    kept keep n (ls ++ ms) = kept keep n ls ++ kept keep (n + ls.length) ms := by
  induction ls generalizing n with
  | nil => rfl
  | cons l ls ih =>
    rw [List.cons_append, kept, kept, ih, List.length_cons, Nat.add_right_comm, Nat.add_assoc]
    split <;> rfl

theorem kept_congr {keep keep' : Nat → Bool} {n : Nat} {ls : List String}
    (h : ∀ k, n ≤ k → k < n + ls.length → keep k = keep' k) : kept keep n ls = kept keep' n ls := by
  induction ls generalizing n with
  | nil => rfl
  | cons l ls ih =>
    rw [List.length_cons] at h
    rw [kept, kept, h n (Nat.le_refl n) (by omega), ih fun k hk hk' => h k (by omega) (by omega)]

theorem kept_eq_nil {keep : Nat → Bool} {n : Nat} {ls : List String}
    (h : ∀ k, n ≤ k → k < n + ls.length → keep k = false) : kept keep n ls = [] := by
  induction ls generalizing n with
  | nil => rfl
  | cons l ls ih =>
    rw [List.length_cons] at h
    rw [kept, if_neg (by simp [h n (Nat.le_refl n)]), ih fun k hk hk' => h k (by omega) (by omega)]

theorem getLast?_kept {keep : Nat → Bool} {n k : Nat} {l : String} (hl : ls[k]? = some l)
    (hkeep : keep (n + k) = true)
    (hafter : ∀ m, n + k < m → m < n + ls.length → keep m = false) :
    (kept keep n ls).getLast? = some l := by
  induction ls generalizing n k with
  | nil => cases hl
  | cons m ls ih =>
    cases k with
    | zero =>
      obtain rfl := Option.some.inj hl
      rw [List.length_cons] at hafter
      rw [kept, if_pos (show keep n = true from hkeep),
        kept_eq_nil fun k hk hk' => hafter k (by omega) (by omega)]
      rfl
    | succ k =>
      rw [List.length_cons] at hafter
      have hlast := ih (n := n + 1) hl (by rwa [Nat.add_assoc, Nat.add_comm 1])
        fun m hm hm' => hafter m (by omega) (by omega)
      rw [kept]
      split
      · rw [List.getLast?_cons, hlast]
        rfl
      · exact hlast

end NotebookSlice.Text
