import NotebookSlice.Proofs.Log.Calls
import NotebookSlice.Proofs.Log.Slices

/-! # Dependencies point backward

The edges of a log join its own statements, and each leads from a statement to a
later one. So a chain of dependencies grows in place, and none comes back to where
it began.
-/

namespace NotebookSlice

open NotebookSlice.Flow Relation

namespace Log.Sound

variable {log : Log} (h : log.Sound) {d : Edge} {u v : Ref}
include h

theorem before_of_mem_edges (hd : d ∈ log.graph.edges) : Before d.source d.target :=
  h.before_of_feeds ⟨d, hd, rfl, rfl⟩

theorem exists_ends (hd : d ∈ log.graph.edges) :
    (∃ e ∈ log.entries, ∃ s ∈ e.statements, d.source = (e.position, s.index)) ∧
      ∃ f ∈ log.entries, ∃ t ∈ f.statements, d.target = (f.position, t.index) := by
  constructor
  · obtain ⟨s, hs⟩ := h.mem_nodes.mp (h.wellFormed.source_mem d hd)
    obtain ⟨e, he, hmem, heq⟩ := h.statement?_eq_some_iff.mp hs
    exact ⟨e, he, s, hmem, heq⟩
  · obtain ⟨t, ht⟩ := h.mem_nodes.mp (h.wellFormed.target_mem d hd)
    obtain ⟨f, hf, hmem, heq⟩ := h.statement?_eq_some_iff.mp ht
    exact ⟨f, hf, t, hmem, heq⟩

theorem before_of_transGen (hpath : TransGen log.graph.Feeds u v) : Before u v := by
  induction hpath with
  | single hfeeds => exact h.before_of_feeds hfeeds
  | tail _ hfeeds ih => exact ih.trans (h.before_of_feeds hfeeds)

end Log.Sound

/-- Whatever calls are made on a new session, accepted or rejected, each edge leads from a statement
of the log to a later one, and no statement depends on itself, be it directly or by a chain. -/
theorem Session.acyclic_run (c : Configuration) (marker : String) (withHeader : Bool)
    (calls : List Call) :
    let log := ((Session.new c marker withHeader).run calls).log
    (∀ d ∈ log.graph.edges, Before d.source d.target ∧
      (∃ e ∈ log.entries, ∃ s ∈ e.statements, d.source = (e.position, s.index)) ∧
      ∃ f ∈ log.entries, ∃ t ∈ f.statements, d.target = (f.position, t.index)) ∧
    ∀ r, ¬ TransGen log.graph.Feeds r r := by
  intro log
  have hsound : log.Sound := ((Reachable.new c marker withHeader).run calls).log.sound
  constructor
  · intro d hd
    exact ⟨hsound.before_of_mem_edges hd, hsound.exists_ends hd⟩
  · intro r hcycle
    exact not_before_self r (hsound.before_of_transGen hcycle)

end NotebookSlice
