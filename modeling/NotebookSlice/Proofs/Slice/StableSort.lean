import Mathlib.Data.List.Sort

/-! # Stable sorting

Sorting keeps the order of tied elements. So the sorted list is known from the
order of the elements of each tie, and parts may be sorted beforehand.
-/

namespace NotebookSlice

variable {α : Type} {le : α → α → Bool}

def tied (le : α → α → Bool) (a b : α) : Bool := le a b && le b a

section StableSort

variable (total : ∀ a b, (le a b || le b a) = true)
include total

/-- Sorted lists are equal if the elements of each tie stand in the same order. -/
theorem eq_of_filter_tied : ∀ {l l' : List α}, l.Pairwise (fun a b => le a b = true) →
    l'.Pairwise (fun a b => le a b = true) →
    (∀ a, l.filter (tied le a) = l'.filter (tied le a)) → l = l' := by
  have hself (a : α) : tied le a a = true := by simpa [tied] using total a a
  have hmem {a : α} {l l' : List α} (h : ∀ a, l.filter (tied le a) = l'.filter (tied le a))
      (ha : a ∈ l) : a ∈ l' :=
    List.mem_of_mem_filter (h a ▸ List.mem_filter.mpr ⟨ha, hself a⟩)
  intro l
  induction l with
  | nil =>
    intro l' _ _ h
    exact (List.eq_nil_iff_forall_not_mem.mpr fun a ha =>
      List.not_mem_nil (hmem (fun b => (h b).symm) ha)).symm
  | cons a l ih =>
    intro l' hl hl' h
    cases l' with
    | nil => exact absurd (hmem h List.mem_cons_self) List.not_mem_nil
    | cons b l' =>
      have hab : tied le a b = true := by
        rw [tied, Bool.and_eq_true]
        constructor
        · rcases List.mem_cons.mp (hmem (fun c => (h c).symm) List.mem_cons_self) with rfl | hb
          · simpa using total b b
          · exact List.rel_of_pairwise_cons hl hb
        · rcases List.mem_cons.mp (hmem h List.mem_cons_self) with rfl | ha
          · simpa using total a a
          · exact List.rel_of_pairwise_cons hl' ha
      have hhead := h a
      rw [List.filter_cons_of_pos (hself a), List.filter_cons_of_pos hab] at hhead
      obtain ⟨rfl, -⟩ := List.cons.inj hhead
      rw [ih hl.of_cons hl'.of_cons fun c => ?_]
      have htail := h c
      cases hc : tied le c a with
      | true => simpa [hc] using htail
      | false => simpa [hc] using htail

variable (trans : ∀ a b c, le a b = true → le b c = true → le a c = true)
include trans

theorem filter_tied_mergeSort (a : α) (l : List α) :
    (l.mergeSort le).filter (tied le a) = l.filter (tied le a) := by
  have hordered : (l.filter (tied le a)).Pairwise fun b c => le b c = true := by
    refine List.pairwise_of_forall_mem_list fun b hb c hc => ?_
    have hb := (List.mem_filter.mp hb).2
    have hc := (List.mem_filter.mp hc).2
    simp only [tied, Bool.and_eq_true] at hb hc
    exact trans b a c hb.2 hc.1
  have hsub := (List.sublist_mergeSort trans total hordered List.filter_sublist).filter (tied le a)
  rw [List.filter_filter] at hsub
  simp only [Bool.and_self] at hsub
  exact (hsub.eq_of_length ((List.mergeSort_perm l le).filter _).length_eq.symm).symm

/-- It makes no difference for sorting whether a part is already sorted. -/
theorem mergeSort_append_filter_mergeSort (p : α → Bool) (as bs cs : List α) :
    (as ++ (bs.mergeSort le).filter p ++ cs).mergeSort le =
      (as ++ bs.filter p ++ cs).mergeSort le := by
  refine eq_of_filter_tied total (List.pairwise_mergeSort trans total _)
    (List.pairwise_mergeSort trans total _) fun a => ?_
  simp only [filter_tied_mergeSort total trans, List.filter_append]
  rw [List.filter_comm, filter_tied_mergeSort total trans, List.filter_comm]

end StableSort

end NotebookSlice
