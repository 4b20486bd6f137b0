import NotebookSlice.Proofs.Flow.EdgeLists
import NotebookSlice.Proofs.Log.Part

/-! # Earlier logs

What a log says of an entry is settled when the entry is recorded. A log that
begins with the entries of another one has the same edges into their statements
and the same slices of them, because nothing depends on what comes later.
-/

namespace NotebookSlice.Log

open NotebookSlice.Flow

variable {part log : Log} {e f : Entry}

def edgesOf (log : Log) (e : Entry) : List Edge := log.graph.edgesOf e.position e.statements

theorem edgesOf_eq (log : Log) (e : Entry) :
    log.edgesOf e = e.refs.flatMap log.graph.edgesInto := by
  rw [edgesOf, Graph.edgesOf, Entry.refs, List.flatMap_map]

namespace Sound

/-- The edges of a log are those of its entries, without repetitions. -/
theorem edges_perm (h : log.Sound) : log.graph.edges.Perm (log.entries.flatMap log.edgesOf) := by
  have hperm := Graph.edges_perm_flatMap_edgesOf h.ordered
  rw [← h.graph_eq, history, List.flatMap_map] at hperm
  exact hperm

variable (h : log.Sound) (hpart : part.Sound) (hpre : part.entries <+: log.entries)

theorem partOf_of_isPrefix (hpre : part.entries <+: log.entries) : part.PartOf log id where
  strictMono := strictMono_id
  mem f hf := ⟨f, hpre.subset hf, rfl, rfl, rfl⟩

include h hpart

theorem holds_closure (he : e ∈ part.entries) : part.Holds id (log.closure e) := by
  intro r hr
  have hlt : r.1 < part.entries.length :=
    Nat.lt_of_le_of_lt (h.position_le_of_mem_closure r hr)
      (List.getElem?_eq_some_iff.mp (hpart.getElem?_position he)).1
  exact ⟨part.entries[r.1], List.getElem_mem hlt,
    hpart.position r.1 _ (List.getElem?_eq_getElem hlt)⟩

include hpre

theorem edgesInto_eq_of_isPrefix (he : e ∈ part.entries) {r : Ref} (hr : r ∈ e.refs) :
    log.graph.edgesInto r = part.graph.edgesInto r := by
  obtain ⟨rest, hrest⟩ := hpre
  have hhistory : log.history = part.history ++ rest.map Entry.execution := by
    rw [history, ← hrest, List.map_append, history]
  obtain ⟨s, hs, rfl⟩ := List.mem_map.mp hr
  have ht : (⟨e.position, !e.cell.hasFailed, s⟩ : Step) ∈ part.history.steps :=
    Flow.History.mem_steps.mpr ⟨e.execution, List.mem_map_of_mem he,
      Execution.mem_steps.mpr ⟨rfl, rfl, hs⟩⟩
  rw [h.graph_eq, hpart.graph_eq, hhistory]
  exact Graph.edgesInto_ofHistory_append (hhistory ▸ h.ordered) ht

theorem edgesOf_eq_of_isPrefix (he : e ∈ part.entries) : log.edgesOf e = part.edgesOf e := by
  rw [Log.edgesOf_eq, Log.edgesOf_eq]
  exact List.flatMap_congr fun r hr => h.edgesInto_eq_of_isPrefix hpart hpre he hr

theorem cellSlice?_eq_of_isPrefix (he : e ∈ part.entries) (hf : f ∈ part.entries) :
    log.cellSlice? (log.closure e) f = part.cellSlice? (part.closure e) f := by
  have hp := partOf_of_isPrefix hpre
  have hclosure := hp.moves_closure h hpart (hpre.subset he) ⟨rfl, rfl, rfl⟩
    (h.holds_closure hpart he)
  rw [hp.cellSlice?_eq h hpart hclosure hf (hpre.subset hf) ⟨rfl, rfl, rfl⟩, cellSlice?]
  cases part.rangesIn (part.closure e) f <;> rfl

/-- Later entries do not change the slice of an entry: they have no part in it, and the others
have the same lines. -/
theorem sliceEntry_eq_of_isPrefix (he : e ∈ part.entries) :
    log.sliceEntry e = part.sliceEntry e := by
  have hearlier : part.entries.filterMap (log.cellSlice? (log.closure e)) =
      part.entries.filterMap (part.cellSlice? (part.closure e)) :=
    List.filterMap_congr fun f hf => h.cellSlice?_eq_of_isPrefix hpart hpre he hf
  obtain ⟨rest, hrest⟩ := hpre
  have hlt := h.position_lt
  rw [← hrest, List.pairwise_append] at hlt
  have hlater : rest.filterMap (log.cellSlice? (log.closure e)) = [] := by
    refine List.filterMap_eq_nil_iff.mpr fun g hg => Option.not_isSome_iff_eq_none.mp fun hsome => ?_
    have hmem : g ∈ log.entries := hrest ▸ List.mem_append_right _ hg
    obtain ⟨w, -, hw⟩ := (h.isSome_cellSlice?_iff hmem).mp hsome
    have hle : g.position ≤ e.position := h.position_le_of_mem_closure _ hw
    exact Nat.not_lt_of_le hle (hlt.2.2 e he g hg)
  rw [sliceEntry, ← hrest, List.filterMap_append, hearlier, hlater, List.append_nil, sliceEntry]

end Sound

end NotebookSlice.Log
