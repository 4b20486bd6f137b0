import NotebookSlice.Proofs.Log.Places

/-! # The closure of an entry

The closure is built in rounds, each of which adds missing blocks with all that
they depend on. A round that is not the last adds a statement, so at the end no
block is missing, and the closure has the sources of all its members.
-/

namespace NotebookSlice.Log

open NotebookSlice.Flow

variable {log : Log} {included : List Ref}

theorem mem_missing {r : Ref} :
    r ∈ log.missing included ↔ ∃ ref ∈ included, ∃ s, log.statement? ref = some s ∧
      (∀ i ∈ s.body, (ref.1, i) ∉ included) ∧ ∃ i ∈ s.body, r = (ref.1, i) := by
  rw [missing, List.mem_flatMap]
  refine exists_congr fun ref => and_congr_right fun _ => ?_
  cases log.statement? ref with
  | none => simp
  | some s =>
    simp only [List.any_map, Option.some.injEq, exists_eq_left']
    split
    · rename_i hany
      simp only [List.any_eq_true, Function.comp_apply, List.contains_iff_mem] at hany
      obtain ⟨i, hi, hmem⟩ := hany
      simp only [List.not_mem_nil, false_iff, not_and]
      exact fun hno => absurd hmem (hno i hi)
    · rename_i hany
      simp only [List.any_eq_true, Function.comp_apply, List.contains_iff_mem, not_exists,
        not_and] at hany
      simp only [List.mem_map, eq_comm (a := r)]
      exact ⟨fun h => ⟨hany, h⟩, And.right⟩

def extend (log : Log) (included : List Ref) : List Ref :=
  included ++ (log.graph.dependencies (log.missing included)).filter fun r => !included.contains r

theorem mem_extend {r : Ref} :
    r ∈ log.extend included ↔
      r ∈ included ∨ r ∈ log.graph.dependencies (log.missing included) := by
  simp only [extend, List.mem_append, List.mem_filter, Bool.not_eq_true',
    List.contains_eq_mem, decide_eq_false_iff_not]
  tauto

theorem complete_succ (rounds : ℕ) :
    log.complete (rounds + 1) included =
      if log.missing included = [] then included
      else log.complete rounds (log.extend included) := by
  rw [complete]
  simp only [List.isEmpty_iff]
  rfl

theorem complete_induction {P : List Ref → Prop}
    (step : ∀ included, P included → log.missing included ≠ [] → P (log.extend included))
    (h : P included) (rounds : ℕ) : P (log.complete rounds included) := by
  induction rounds generalizing included with
  | zero => exact h
  | succ rounds ih =>
    rw [complete_succ]
    split
    · exact h
    · rename_i hsome
      exact ih (step _ h hsome)

theorem subset_complete (rounds : ℕ) : included ⊆ log.complete rounds included :=
  complete_induction (P := fun all => included ⊆ all)
    (fun _ h _ _ hr => mem_extend.mpr (Or.inl (h hr))) (fun _ h => h) rounds

/-- The rounds from some included statements to the end, at which no block is missing. -/
inductive Completes (log : Log) : (included all : List Ref) → Prop

  | done {included : List Ref} : log.missing included = [] → Completes log included included

  | round {included all : List Ref} : log.missing included ≠ [] →
      Completes log (log.extend included) all → Completes log included all

theorem Completes.subset {all : List Ref} (h : log.Completes included all) : included ⊆ all := by
  induction h with
  | done _ => exact fun _ hr => hr
  | round _ _ ih => exact fun _ hr => ih (mem_extend.mpr (Or.inl hr))

theorem Completes.unique {all all' : List Ref} (h : log.Completes included all)
    (h' : log.Completes included all') : all = all' := by
  induction h with
  | done hm =>
    cases h' with
    | done _ => rfl
    | round hm' _ => exact absurd hm hm'
  | round hm _ ih =>
    cases h' with
    | done hm' => exact absurd hm' hm
    | round _ h' => exact ih h'

/-! ## Enough rounds -/

def excluded (log : Log) (included : List Ref) : List Ref :=
  (log.entries.flatMap Entry.refs).filter fun r => !included.contains r

theorem length_excluded_le : (log.excluded included).length ≤ log.size := by
  refine Nat.le_trans (List.length_filter_le _ _) (Nat.le_of_eq ?_)
  simp [size, List.length_flatMap, Entry.refs]

namespace Sound

variable (h : log.Sound)
include h

theorem mem_refs {r : Ref} : r ∈ log.entries.flatMap Entry.refs ↔ r ∈ log.graph.nodes := by
  simp only [h.mem_nodes, h.statement?_eq_some_iff, List.mem_flatMap, Entry.refs, List.mem_map,
    eq_comm (a := r)]
  constructor
  · rintro ⟨e, he, s, hs, hr⟩
    exact ⟨s, e, he, hs, hr⟩
  · rintro ⟨s, e, he, hs, hr⟩
    exact ⟨e, he, s, hs, hr⟩

theorem body_mem_nodes {r : Ref} {s : Statement} (hr : log.statement? r = some s) {i : ℕ}
    (hi : i ∈ s.body) : (r.1, i) ∈ log.graph.nodes := by
  obtain ⟨e, he, hs, rfl⟩ := h.statement?_eq_some_iff.mp hr
  obtain ⟨roots, hforest⟩ := h.forest he
  have hlt := (hforest.body_mem s hs i hi).2
  have hm : i ∈ e.statements.map Statement.index := by
    rw [h.map_index he, List.mem_range]
    omega
  obtain ⟨q, hq, rfl⟩ := List.mem_map.mp hm
  exact h.mem_nodes.mpr ⟨q, h.statement?_eq_some_iff.mpr ⟨e, he, hq, rfl⟩⟩

theorem missing_subset_extend : log.missing included ⊆ log.extend included := by
  intro r hr
  refine mem_extend.mpr (Or.inr (Graph.mem_dependencies_of_mem hr ?_))
  obtain ⟨ref, -, s, hs, -, i, hi, rfl⟩ := mem_missing.mp hr
  exact h.body_mem_nodes hs hi

theorem length_excluded_lt (hm : log.missing included ≠ []) :
    (log.excluded (log.extend included)).length < (log.excluded included).length := by
  obtain ⟨r, hr⟩ := List.exists_mem_of_ne_nil _ hm
  obtain ⟨ref, -, s, hs, hno, i, hi, hri⟩ := mem_missing.mp hr
  have hnode : r ∈ log.entries.flatMap Entry.refs := by
    rw [h.mem_refs, hri]
    exact h.body_mem_nodes hs hi
  have hsplit : log.excluded (log.extend included) =
      (log.excluded included).filter fun r => !(log.extend included).contains r := by
    rw [excluded, excluded, List.filter_filter]
    refine List.filter_congr fun r _ => ?_
    by_cases hr : r ∈ included
    · have hr' : r ∈ log.extend included := mem_extend.mpr (Or.inl hr)
      simp [hr, hr']
    · simp [hr]
  rw [hsplit, List.length_filter_lt_length_iff_exists]
  refine ⟨r, ?_, by simpa using h.missing_subset_extend hr⟩
  rw [excluded, List.mem_filter]
  exact ⟨hnode, by simpa [hri] using hno i hi⟩

theorem missing_complete {rounds : ℕ} (hrounds : (log.excluded included).length ≤ rounds) :
    log.missing (log.complete rounds included) = [] := by
  induction rounds generalizing included with
  | zero =>
    rw [complete]
    by_contra hm
    have := h.length_excluded_lt hm
    omega
  | succ rounds ih =>
    rw [complete_succ]
    split
    · assumption
    · rename_i hm
      have := h.length_excluded_lt hm
      exact ih (by omega)

theorem completes {rounds : ℕ} (hrounds : (log.excluded included).length ≤ rounds) :
    log.Completes included (log.complete rounds included) := by
  induction rounds generalizing included with
  | zero =>
    rw [complete]
    exact .done (h.missing_complete hrounds)
  | succ rounds ih =>
    rw [complete_succ]
    split
    · rename_i hm
      exact .done hm
    · rename_i hm
      have := h.length_excluded_lt hm
      exact .round hm (ih (by omega))

/-! ## The closure -/

variable {e : Entry}

theorem refs_subset_closure (he : e ∈ log.entries) : e.refs ⊆ log.closure e := by
  intro r hr
  refine subset_complete _ (Graph.mem_dependencies_of_mem hr ?_)
  exact h.mem_refs.mp (List.mem_flatMap_of_mem he hr)

theorem completes_closure : log.Completes (log.graph.dependencies e.refs) (log.closure e) :=
  h.completes length_excluded_le

theorem missing_closure : log.missing (log.closure e) = [] :=
  h.missing_complete length_excluded_le

theorem sourceClosed_closure : log.graph.SourceClosed (log.closure e) := by
  refine complete_induction (P := log.graph.SourceClosed) ?_
    (Graph.sourceClosed_dependencies h.wellFormed _) _
  intro included hc _ u v hfeeds hv
  rw [mem_extend] at hv ⊢
  exact hv.imp (hc u v hfeeds) (Graph.sourceClosed_dependencies h.wellFormed _ u v hfeeds)

theorem closure_subset_nodes : log.closure e ⊆ log.graph.nodes := by
  refine complete_induction (P := fun all => all ⊆ log.graph.nodes) ?_
    (fun _ hr => Graph.mem_nodes_of_mem_dependencies h.wellFormed hr) _
  intro included hsub _ r hr
  rcases mem_extend.mp hr with hr | hr
  · exact hsub hr
  · exact Graph.mem_nodes_of_mem_dependencies h.wellFormed hr

/-- A header or clause of the closure has a statement of its block in the closure. -/
theorem exists_body_mem_closure {r : Ref} {s : Statement} (hr : r ∈ log.closure e)
    (hs : log.statement? r = some s) (hbody : s.body ≠ []) :
    ∃ i ∈ s.body, (r.1, i) ∈ log.closure e := by
  by_contra hno
  push Not at hno
  obtain ⟨i, hi⟩ := List.exists_mem_of_ne_nil _ hbody
  have hm : (r.1, i) ∈ log.missing (log.closure e) :=
    mem_missing.mpr ⟨r, hr, s, hs, hno, i, hi, rfl⟩
  rw [h.missing_closure] at hm
  cases hm

end Sound

end NotebookSlice.Log
