import NotebookSlice.Log.Slice
import NotebookSlice.Proofs.Flow.Reach
import NotebookSlice.Proofs.Log.Reachable

/-! # Places in a log

The nodes of the graph of a log are the places of its statements. A place
consists of the number of an entry and the number of a statement in it.
-/

namespace NotebookSlice

open NotebookSlice.Flow

namespace Log.Sound

variable {log : Log} (h : log.Sound) {e f : Entry} {s : Statement} {r : Ref}
include h

theorem getElem?_position (he : e ∈ log.entries) : log.entries[e.position]? = some e := by
  obtain ⟨k, hk⟩ := List.mem_iff_getElem?.mp he
  rwa [h.position k e hk]

theorem eq_of_position (he : e ∈ log.entries) (hf : f ∈ log.entries)
    (heq : e.position = f.position) : e = f := by
  have hfe := h.getElem?_position hf
  rw [← heq, h.getElem?_position he] at hfe
  exact Option.some.inj hfe

/-- No two entries have the same cell, as no two have the same count. -/
theorem eq_of_cell (he : e ∈ log.entries) (hf : f ∈ log.entries) (heq : e.cell = f.cell) :
    e = f := by
  have hirr (e f : Entry) (hlt : CountedBefore e f) : e.cell ≠ f.cell := by
    obtain ⟨m, n, hm, hn, hlt⟩ := hlt
    intro heq
    rw [heq, hn, Option.some_inj] at hm
    omega
  exact List.Pairwise.forall_of_forall_of_flip (R := fun e f => e.cell = f.cell → e = f)
    (fun _ _ _ => rfl) (h.increasing.imp fun hlt heq => absurd heq (hirr _ _ hlt))
    (h.increasing.imp fun hlt heq => absurd heq.symm (hirr _ _ hlt)) he hf heq

theorem forest (he : e ∈ log.entries) : ∃ roots, Forest none 0 roots e.statements :=
  forest_of_analyzeCell (h.analysed e he)

theorem map_index (he : e ∈ log.entries) :
    e.statements.map Statement.index = List.range e.statements.length := by
  obtain ⟨roots, hforest⟩ := h.forest he
  rw [hforest.map_index, List.range_eq_range']

theorem getElem?_index (he : e ∈ log.entries) (hs : s ∈ e.statements) :
    e.statements[s.index]? = some s := by
  obtain ⟨i, hi⟩ := List.mem_iff_getElem?.mp hs
  have hindex : (e.statements.map Statement.index)[i]? = some s.index := by
    rw [List.getElem?_map, hi, Option.map_some]
  rw [h.map_index he, List.getElem?_range (List.getElem?_eq_some_iff.mp hi).1,
    Option.some_inj] at hindex
  rwa [← hindex]

theorem statement?_eq_some_iff :
    log.statement? r = some s ↔
      ∃ e ∈ log.entries, s ∈ e.statements ∧ r = (e.position, s.index) := by
  rw [statement?, Option.bind_eq_some_iff]
  constructor
  · rintro ⟨e, he, hs⟩
    have hmem := List.mem_of_getElem? he
    refine ⟨e, hmem, List.mem_of_getElem? hs, Prod.ext (h.position _ e he).symm ?_⟩
    have hs' := h.getElem?_index hmem (List.mem_of_getElem? hs)
    have hindex : (e.statements.map Statement.index)[r.2]? = some s.index := by
      rw [List.getElem?_map, hs, Option.map_some]
    rw [h.map_index hmem, List.getElem?_range (List.getElem?_eq_some_iff.mp hs).1,
      Option.some_inj] at hindex
    exact hindex
  · rintro ⟨e, he, hs, rfl⟩
    exact ⟨e, h.getElem?_position he, h.getElem?_index he hs⟩

theorem ordered : log.history.Ordered where
  positions := by
    rw [history, List.pairwise_map, List.pairwise_iff_getElem]
    intro i j hi hj hlt
    have hi' := h.position i _ (List.getElem?_eq_getElem hi)
    have hj' := h.position j _ (List.getElem?_eq_getElem hj)
    simp only [Entry.execution, hi', hj', hlt]
  indices := by
    intro x hx
    obtain ⟨e, he, rfl⟩ := List.mem_map.mp hx
    have := List.pairwise_lt_range (n := e.statements.length)
    rwa [← h.map_index he, List.pairwise_map] at this

theorem wellFormed : log.graph.WellFormed := by
  rw [h.graph_eq, Graph.ofHistory_eq]
  exact Graph.wellFormed_ofSteps _

theorem exists_step : (∃ t ∈ log.history.steps, t.ref = r) ↔ ∃ s, log.statement? r = some s := by
  simp only [Flow.History.steps, history, List.mem_flatMap, List.mem_map, h.statement?_eq_some_iff]
  constructor
  · rintro ⟨t, ⟨x, ⟨e, he, rfl⟩, ht⟩, rfl⟩
    obtain ⟨hp, -, hs⟩ := Execution.mem_steps.mp ht
    exact ⟨t.statement, e, he, hs, Prod.ext hp rfl⟩
  · rintro ⟨s, e, he, hs, rfl⟩
    exact ⟨⟨e.position, !e.cell.hasFailed, s⟩, ⟨_, ⟨e, he, rfl⟩,
      Execution.mem_steps.mpr ⟨rfl, rfl, hs⟩⟩, rfl⟩

theorem parent_mem (he : e ∈ log.entries) (hs : s ∈ e.statements) {p : ℕ}
    (hp : s.parent = some p) : ∃ q ∈ e.statements, q.index = p := by
  obtain ⟨roots, hforest⟩ := h.forest he
  rcases hforest.parent_lt s hs with ⟨hnone, -⟩ | ⟨q, hq, -, hlt⟩
  · rw [hp] at hnone
    cases hnone
  · obtain rfl := Option.some.inj (hp.symm.trans hq)
    have hm : p ∈ e.statements.map Statement.index := by
      rw [h.map_index he, List.mem_range]
      have := (hforest.index_mem hs).2
      omega
    exact List.mem_map.mp hm

theorem mem_nodes : r ∈ log.graph.nodes ↔ ∃ s, log.statement? r = some s := by
  rw [h.graph_eq, Graph.ofHistory_eq, Graph.mem_nodes_ofSteps, h.exists_step]
  intro t ht p hp
  obtain ⟨s, hs⟩ := h.exists_step.mp ⟨t, ht, rfl⟩
  obtain ⟨x, hx, htx⟩ := Flow.History.mem_steps.mp ht
  obtain ⟨e, he, rfl⟩ := List.mem_map.mp hx
  obtain ⟨hpos, -, hs⟩ := Execution.mem_steps.mp htx
  obtain ⟨q, hq, rfl⟩ := h.parent_mem he hs hp
  exact h.exists_step.mpr ⟨q, h.statement?_eq_some_iff.mpr ⟨e, he, hq, by rw [hpos]; rfl⟩⟩

end Log.Sound

end NotebookSlice
