import NotebookSlice.Proofs.Log.Slices
import NotebookSlice.Proofs.Notebook.Format
import NotebookSlice.Proofs.Slice.Grouping
import NotebookSlice.Proofs.Text.Colon
import NotebookSlice.Proofs.Text.Lines

/-! # Executed cells of a notebook

The history of a notebook has cells with code, no two of which have one count. As
event ids end in the count, they differ as well.
-/

namespace NotebookSlice

/-! ## Cells -/

/-- A cell of a history. Its event is known by an id and its count. -/
structure Cell.IsExecuted (cell : Cell) : Prop where
  count : ∃ n, cell.count = .int n
  event : ∀ n, cell.count = .int n → ∃ id, cell.event = .text (id ++ ":" ++ toString n)
  code : Text.allBlank cell.text.toList = false
  noNull : '\x00' ∉ cell.text.toList

theorem Cell.IsExecuted.count_eq {a b : Cell} (ha : a.IsExecuted) (hb : b.IsExecuted)
    (hsame : a.event.same b.event = true) : a.count = b.count := by
  obtain ⟨m, hm⟩ := ha.count
  obtain ⟨n, hn⟩ := hb.count
  obtain ⟨id, hid⟩ := ha.event m hm
  obtain ⟨id', hid'⟩ := hb.event n hn
  rw [hid'] at hsame
  have htext := Value.text.inj (hid.symm.trans (Value.same_text_iff.mp hsame))
  rw [hm, hn, (colon_toString_inj.mp htext).2]

namespace History

open Notebook

variable {cell : Value} {cells : List Value}

theorem exists_cellId (h : IsRead cell) (index : ℕ) : ∃ id, cellId cell index = .ok id := by
  obtain ⟨es, hes⟩ := h.metadata
  have hmetadata : cell.getD "metadata" = .map es := by rw [Value.getD, hes]; rfl
  rw [cellId]
  simp only [hmetadata]
  split <;> exact ⟨_, rfl⟩

theorem trimEnd_subset (cs : List Char) : Text.trimEnd cs ⊆ cs := fun _ hc =>
  List.mem_reverse.mp ((List.dropWhile_sublist _).subset (List.mem_reverse.mp hc))

theorem exists_codeOf (h : IsRead cell) : ∃ text, codeOf cell = .ok text ∧
    (isCode cell = true → '\x00' ∉ text.toList) := by
  obtain ⟨s, hs, hnull⟩ := h.source
  rw [codeOf, hs]
  refine ⟨_, rfl, fun hcode hmem => ?_⟩
  rw [String.toList_ofList] at hmem
  refine Text.not_mem_unlines (by decide) ?_ (trimEnd_subset _ hmem)
  refine List.forall_mem_map.mpr (List.forall_mem_map.mpr fun l hl hl' => hnull hcode ?_)
  rw [String.toList_ofList] at hl'
  exact Text.subset_of_mem_splitAt hl (trimEnd_subset _ hl')

theorem exists_cellOf {text : String} (id : String) (n : ℤ) (cell : Value)
    (hcode : Text.allBlank text.toList = false) (hnull : '\x00' ∉ text.toList) :
    ∃ found, cellOf id text (.int n) cell = .ok found ∧ found.IsExecuted ∧
      found.count = .int n := by
  refine ⟨_, rfl, ⟨⟨n, rfl⟩, ?_, hcode, hnull⟩, rfl⟩
  rintro m hm
  obtain rfl := Value.int.inj hm
  refine ⟨id, ?_⟩
  have htext : (Value.text (id ++ ":" ++ (Value.int n).toText)).truthy = true := by
    simp [Value.truthy]
  simp only [Cell.make, htext, if_true]
  rfl

theorem exists_collect (h : ∀ c ∈ cells, IsRead c) (index : ℕ) (seen : List (Value × String))
    (hseen : ∀ p ∈ seen, ∃ n, p.1 = .int n) :
    ∃ found shared, collect index seen cells = .ok (found, shared) ∧
      (∀ c ∈ found, c.IsExecuted) ∧ (∀ c ∈ found, ∀ p ∈ seen, p.1 ≠ c.count) ∧
      found.Pairwise fun a b => a.count ≠ b.count := by
  induction cells generalizing index seen with
  | nil => exact ⟨[], [], rfl, List.forall_mem_nil _, List.forall_mem_nil _, .nil⟩
  | cons cell cells ih =>
    obtain ⟨hcell, hcells⟩ := List.forall_mem_cons.mp h
    obtain ⟨text, htext, hnull⟩ := exists_codeOf hcell
    obtain ⟨id, hid⟩ := exists_cellId hcell index
    obtain ⟨found, shared, hcollect, hfound⟩ := ih hcells (index + 1) seen hseen
    obtain ⟨type, htype⟩ := Option.isSome_iff_exists.mp hcell.type
    rw [collect]
    simp only [htype, Option.isNone_some, Bool.false_eq_true, if_false]
    cases hcode : isCode cell with
    | false => exact ⟨found, shared, hcollect, hfound⟩
    | true =>
      rcases hcell.count hcode with hcount | ⟨n, hcount⟩
      · simp only [htext, hcount]
        exact ⟨found, shared, hcollect, hfound⟩
      simp only [htext, hcount, hid, bind, Except.bind, Value.isKey]
      cases hblank : Text.allBlank text.toList with
      | true => exact ⟨found, shared, hcollect, hfound⟩
      | false =>
        cases hfirst : seen.find? (·.1.same (.int n)) with
        | some p =>
          simp only [hcollect]
          exact ⟨found, _, rfl, hfound⟩
        | none =>
          obtain ⟨new, hnew, hexecuted, hn⟩ := exists_cellOf id n cell hblank (hnull hcode)
          obtain ⟨more, shared, hmore, hall, hother, hpairs⟩ :=
            ih hcells (index + 1) ((.int n, id) :: seen)
              (List.forall_mem_cons.mpr ⟨⟨n, rfl⟩, hseen⟩)
          simp only [hnew, hmore]
          refine ⟨new :: more, shared, rfl, List.forall_mem_cons.mpr ⟨hexecuted, hall⟩,
            List.forall_mem_cons.mpr ⟨fun p hp heq => ?_, fun c hc p hp => ?_⟩,
            List.pairwise_cons.mpr ⟨fun c hc heq => ?_, hpairs⟩⟩
          · refine List.find?_eq_none.mp hfirst p hp ?_
            rw [heq, hn]
            simp [Value.same, Value.integral?]
          · exact hother c hc p (List.mem_cons_of_mem _ hp)
          · exact hother c hc _ List.mem_cons_self (hn.symm.trans heq)

/-! ## The order of the counts -/

theorem pairwise_countLE (cells : List Cell) :
    (cells.mergeSort countLE).Pairwise fun a b => countLE a b = true :=
  List.pairwise_mergeSort
    (fun a b c => SlicedExecution.countLE_trans ⟨a, [], .null⟩ ⟨b, [], .null⟩ ⟨c, [], .null⟩)
    (fun a b => SlicedExecution.countLE_total ⟨a, [], .null⟩ ⟨b, [], .null⟩) cells

/-- The cells of a history: no count is met twice, and the cells stand in the order of the
counts. -/
structure IsReplayable (cells : List Cell) : Prop where
  executed : ∀ c ∈ cells, c.IsExecuted
  increasing : cells.Pairwise Cell.CountedBefore

theorem countedBefore_of_countLE {a b : Cell} (ha : a.IsExecuted) (hb : b.IsExecuted)
    (hle : countLE a b = true) (hne : a.count ≠ b.count) : a.CountedBefore b := by
  obtain ⟨m, hm⟩ := ha.count
  obtain ⟨n, hn⟩ := hb.count
  refine ⟨m, n, by rw [hm]; rfl, by rw [hn]; rfl, lt_of_le_of_ne ?_ fun h => hne ?_⟩
  · rw [countLE, hm, hn] at hle
    exact_mod_cast of_decide_eq_true hle
  · rw [hm, hn, h]

theorem isReplayable_mergeSort {cells : List Cell} (h : ∀ c ∈ cells, c.IsExecuted)
    (hpairs : cells.Pairwise fun a b => a.count ≠ b.count) :
    IsReplayable (cells.mergeSort countLE) := by
  have hexecuted : ∀ c ∈ cells.mergeSort countLE, c.IsExecuted :=
    fun c hc => h c (List.mem_mergeSort.mp hc)
  refine ⟨hexecuted, ?_⟩
  have hdistinct := (List.mergeSort_perm cells countLE).symm.pairwise hpairs fun hne => hne.symm
  refine List.Pairwise.imp_of_mem (fun ha hb hab => ?_) ((pairwise_countLE cells).and hdistinct)
  exact countedBefore_of_countLE (hexecuted _ ha) (hexecuted _ hb) hab.1 hab.2

section Reader

variable {read : String → Except NotebookError (List Value)} {text : String}

/-- The history of a notebook whose cells are read as they were stored. -/
theorem exists_ofText (hread : read text = .ok cells) (h : ∀ c ∈ cells, IsRead c) :
    ∃ history, ofText text read = .ok history ∧ IsReplayable history.cells := by
  obtain ⟨found, shared, hfound, hexecuted, -, hpairs⟩ :=
    exists_collect h 0 [] (List.forall_mem_nil _)
  refine ⟨⟨found.mergeSort countLE, shared⟩, ?_, isReplayable_mergeSort hexecuted hpairs⟩
  rw [ofText, hread]
  simp only [bind, Except.bind, hfound]
  rfl

theorem exists_perm_of_ofText {history : History} (hread : read text = .ok cells)
    (h : ofText text read = .ok history) :
    ∃ found shared, collect 0 [] cells = .ok (found, shared) ∧ history.cells.Perm found := by
  rw [ofText, hread] at h
  cases hfound : collect 0 [] cells with
  | error e => simp [hfound, bind, Except.bind] at h
  | ok p =>
    simp only [hfound, bind, Except.bind] at h
    obtain rfl := Except.ok.inj h
    exact ⟨p.1, p.2, rfl, List.mergeSort_perm _ _⟩

end Reader

end History

end NotebookSlice
