import NotebookSlice.Proofs.Value.Same
import NotebookSlice.Slice.Execution

/-! # Grouped slices

Merging keeps one slice for each event: that of the cell in which the event is met
first. The merged slices stand in the order of the counts of these cells.
-/

namespace NotebookSlice

namespace SlicedExecution

theorem countLE_total (s t : CellSlice) : (countLE s t || countLE t s) = true := by
  rw [countLE, countLE]
  cases s.cell.count.rank <;> cases t.cell.count.rank <;>
    simp only [Rank.le, Bool.or_true, Bool.or_eq_true, decide_eq_true_eq,
      Bool.not_eq_true', decide_eq_false_iff_not, not_lt, Bool.or_false]
  · exact le_total _ _
  · exact le_total _ _

theorem countLE_trans (s t u : CellSlice) (h : countLE s t = true) (h' : countLE t u = true) :
    countLE s u = true := by
  rw [countLE] at h h' ⊢
  cases hs : s.cell.count.rank <;> cases ht : t.cell.count.rank <;>
    cases hu : u.cell.count.rank <;>
    simp only [hs, ht, hu, Rank.le, decide_eq_true_eq, Bool.not_eq_true', decide_eq_false_iff_not,
      not_lt, Bool.false_eq_true] at h h' ⊢
  · exact h.trans h'
  · exact h.trans h'

theorem areOrdered_of_numbers {slices : List CellSlice}
    (h : ∀ s ∈ slices, ∃ q, s.cell.count.rank = .number q) : areOrdered slices = true := by
  cases slices with
  | nil => rfl
  | cons s slices =>
    cases slices with
    | nil => rfl
    | cons t slices =>
      obtain ⟨p, hp⟩ := h s List.mem_cons_self
      refine List.all_eq_true.mpr fun u hu => ?_
      obtain ⟨q, hq⟩ := h u (List.mem_cons_of_mem _ hu)
      rw [hp, hq]
      rfl

abbrev SameEvent (s t : CellSlice) : Prop := s.cell.event.same t.cell.event = true

def firsts (slices : List CellSlice) : List CellSlice :=
  (slices.foldl (fun groups s => addToGroups s groups) []).map Prod.fst

theorem map_cell_grouped (slices : List CellSlice) :
    (grouped slices).map CellSlice.cell = (firsts slices).map CellSlice.cell := by
  rw [grouped, firsts, List.map_map, List.map_map]
  rfl

theorem map_fst_addToGroups (s : CellSlice) (groups : List Group) :
    (addToGroups s groups).map Prod.fst =
      if (groups.map Prod.fst).any (·.cell.event.same s.cell.event) then groups.map Prod.fst
      else groups.map Prod.fst ++ [s] := by
  induction groups with
  | nil => rfl
  | cons group groups ih =>
    obtain ⟨first, ranges⟩ := group
    rw [addToGroups]
    by_cases hsame : first.cell.event.same s.cell.event = true
    · simp [hsame]
    · rw [if_neg hsame, List.map_cons, ih]
      simp only [List.map_cons, List.any_cons, Bool.not_eq_true _ ▸ hsame, Bool.false_or]
      split <;> rfl

theorem firsts_concat (slices : List CellSlice) (s : CellSlice) :
    firsts (slices ++ [s]) =
      if (firsts slices).any (·.cell.event.same s.cell.event) then firsts slices
      else firsts slices ++ [s] := by
  rw [firsts, List.foldl_append, List.foldl_cons, List.foldl_nil, map_fst_addToGroups]
  rfl

theorem find?_firsts (event : Value) (slices : List CellSlice) :
    (firsts slices).find? (·.cell.event.same event) =
      slices.find? (·.cell.event.same event) := by
  induction slices using List.reverseRecOn with
  | nil => rfl
  | append_singleton slices s ih =>
    rw [firsts_concat, List.find?_append, ← ih]
    split
    · rename_i hknown
      obtain ⟨t, ht, hsame⟩ := List.any_eq_true.mp hknown
      cases hfound : (firsts slices).find? (·.cell.event.same event) with
      | some a => rfl
      | none =>
        have hnot : ¬ s.cell.event.same event = true := fun hs =>
          List.find?_eq_none.mp hfound t ht (Value.same_trans hsame hs)
        simp [hnot]
    · rw [List.find?_append]

theorem pairwise_firsts (slices : List CellSlice) :
    (firsts slices).Pairwise fun s t => ¬ SameEvent s t := by
  induction slices using List.reverseRecOn with
  | nil => exact .nil
  | append_singleton slices s ih =>
    rw [firsts_concat]
    split
    · exact ih
    · rename_i hnew
      refine List.pairwise_append.mpr ⟨ih, List.pairwise_singleton .., ?_⟩
      intro a ha b hb hsame
      rw [List.mem_singleton.mp hb] at hsame
      exact hnew (List.any_eq_true.mpr ⟨a, ha, hsame⟩)

theorem firsts_subset (slices : List CellSlice) : firsts slices ⊆ slices := by
  induction slices using List.reverseRecOn with
  | nil => exact List.nil_subset _
  | append_singleton slices s ih =>
    rw [firsts_concat]
    split
    · exact List.subset_append_of_subset_left _ ih
    · exact List.append_subset.mpr ⟨List.subset_append_of_subset_left _ ih,
        List.subset_append_right ..⟩

/-! ## Merging -/

def HasAt (s : SlicedExecution) (event : Value) (k : ℕ) : Prop :=
  ∃ t, s.slices[k]? = some t ∧ t.cell.event.same event = true

variable {all : List SlicedExecution} {event : Value} {t : CellSlice}

theorem map_cell_merge_perm (now : Value) (all : List SlicedExecution) :
    ((merge now all).slices.map CellSlice.cell).Perm
      ((firsts (all.flatMap (·.slices))).map CellSlice.cell) := by
  rw [← map_cell_grouped]
  exact (List.mergeSort_perm ..).map _

theorem pairwise_countLE_merge (now : Value) (all : List SlicedExecution) :
    (merge now all).slices.Pairwise fun s t => countLE s t = true :=
  List.pairwise_mergeSort countLE_trans countLE_total _

theorem pairwise_merge (now : Value) (all : List SlicedExecution) :
    (merge now all).slices.Pairwise fun s t => ¬ SameEvent s t := by
  have hcells : ((firsts (all.flatMap (·.slices))).map CellSlice.cell).Pairwise
      fun a b => ¬ a.event.same b.event = true :=
    List.pairwise_map.mpr (pairwise_firsts _)
  exact List.pairwise_map.mp ((map_cell_merge_perm now all).symm.pairwise hcells
    fun h hsame => h (Value.same_symm hsame))

theorem HasAt.unique {now : Value} {i j : ℕ} (hi : (merge now all).HasAt event i)
    (hj : (merge now all).HasAt event j) : i = j := by
  obtain ⟨s, hs, hsame⟩ := hi
  obtain ⟨t, ht, hsame'⟩ := hj
  have hpairs := List.pairwise_iff_getElem.mp (pairwise_merge now all)
  obtain ⟨hilt, rfl⟩ := List.getElem?_eq_some_iff.mp hs
  obtain ⟨hjlt, rfl⟩ := List.getElem?_eq_some_iff.mp ht
  rcases Nat.lt_trichotomy i j with hlt | heq | hlt
  · exact absurd (Value.same_trans hsame (Value.same_symm hsame')) (hpairs i j hilt hjlt hlt)
  · exact heq
  · exact absurd (Value.same_trans hsame' (Value.same_symm hsame)) (hpairs j i hjlt hilt hlt)

/-- An event stands at one place, with the cell in which it is met first. -/
theorem exists_hasAt (now : Value) (h : (all.flatMap (·.slices)).find?
      (·.cell.event.same event) = some t) :
    ∃ k s, (merge now all).slices[k]? = some s ∧ s.cell = t.cell ∧
      ∀ j, (merge now all).HasAt event j ↔ j = k := by
  have hsame : t.cell.event.same event = true := by simpa using List.find?_some h
  rw [← find?_firsts] at h
  have hcell : t.cell ∈ (merge now all).slices.map CellSlice.cell :=
    (map_cell_merge_perm now all).mem_iff.mpr (List.mem_map_of_mem (List.mem_of_find?_eq_some h))
  obtain ⟨s, hs, heq⟩ := List.mem_map.mp hcell
  obtain ⟨k, hk⟩ := List.mem_iff_getElem?.mp hs
  have hat : (merge now all).HasAt event k := ⟨s, hk, heq ▸ hsame⟩
  refine ⟨k, s, hk, heq, fun j => ⟨fun hj => hj.unique hat, ?_⟩⟩
  rintro rfl
  exact hat

end SlicedExecution

end NotebookSlice
