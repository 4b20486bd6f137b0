import NotebookSlice.Proofs.Log.Closure

/-! # The rounds of a closure

A round includes missing blocks with all that they depend on, or returns when no
block is missing. What is included always has statements in the log, and a round
that does not return includes one more of them. So the rounds come to an end.
-/

namespace NotebookSlice

open NotebookSlice.Flow

namespace Log

/-- What is included after so many rounds, none of which returned. -/
inductive Rounds (log : Log) (start : List Ref) : ℕ → List Ref → Prop

  | start : Rounds log start 0 start

  | round {n : ℕ} {included : List Ref} : Rounds log start n included →
      log.missing included ≠ [] → Rounds log start (n + 1) (log.extend included)

variable {log : Log} {start included all : List Ref} {n : ℕ}

theorem Rounds.of_extend (hm : log.missing start ≠ []) (h : log.Rounds (log.extend start) n all) :
    log.Rounds start (n + 1) all := by
  induction h with
  | start => exact .round .start hm
  | round _ hm' ih => exact .round ih hm'

theorem Completes.rounds (h : log.Completes start all) :
    ∃ n, log.Rounds start n all ∧ log.missing all = [] := by
  induction h with
  | done hm => exact ⟨0, .start, hm⟩
  | round hm _ ih =>
    obtain ⟨n, hn, hall⟩ := ih
    exact ⟨n + 1, .of_extend hm hn, hall⟩

theorem Rounds.completes (h : log.Rounds start n included) (hall : log.Completes included all) :
    log.Completes start all := by
  induction h with
  | start => exact hall
  | round _ hm ih => exact ih (.round hm hall)

namespace Sound

variable (h : log.Sound)
include h

theorem extend_subset_nodes (hsub : included ⊆ log.graph.nodes) :
    log.extend included ⊆ log.graph.nodes := by
  intro r hr
  rcases mem_extend.mp hr with hr | hr
  · exact hsub hr
  · exact Graph.mem_nodes_of_mem_dependencies h.wellFormed hr

theorem subset_nodes_of_rounds (hrounds : log.Rounds start n included)
    (hstart : start ⊆ log.graph.nodes) : included ⊆ log.graph.nodes := by
  induction hrounds with
  | start => exact hstart
  | round _ _ ih => exact h.extend_subset_nodes ih

/-- A round that does not return includes a statement that was not included. -/
theorem exists_statement_of_missing (hm : log.missing included ≠ []) :
    ∃ r s, log.statement? r = some s ∧ r ∉ included ∧ r ∈ log.extend included := by
  obtain ⟨r, hr⟩ := List.exists_mem_of_ne_nil _ hm
  obtain ⟨ref, -, s, hs, hno, i, hi, rfl⟩ := mem_missing.mp hr
  obtain ⟨t, ht⟩ := h.mem_nodes.mp (h.body_mem_nodes hs hi)
  exact ⟨_, t, ht, hno i hi, h.missing_subset_extend hr⟩

theorem rounds_add_length_excluded_le (hrounds : log.Rounds start n included) :
    n + (log.excluded included).length ≤ (log.excluded start).length := by
  induction hrounds with
  | start => exact Nat.le_of_eq (Nat.zero_add _)
  | round _ hm ih =>
    have := h.length_excluded_lt hm
    omega

theorem rounds_le_size (hrounds : log.Rounds start n included) : n ≤ log.size := by
  have hle := h.rounds_add_length_excluded_le hrounds
  have hsize : (log.excluded start).length ≤ log.size := length_excluded_le
  omega

end Sound

end Log

/-- The rounds of an entry's closure end, after at most as many of them as there are statements in
the log. All that is included in one has statements, and the next one includes one more statement
unless it returns the closure. -/
theorem Session.closure_terminates {session : Session} (h : session.Reachable) (e : Entry) :
    (∃ n, session.log.Rounds (session.log.graph.dependencies e.refs) n (session.log.closure e) ∧
      session.log.missing (session.log.closure e) = []) ∧
    ∀ n included, session.log.Rounds (session.log.graph.dependencies e.refs) n included →
      n ≤ session.log.size ∧
      (∀ r ∈ included, ∃ s, session.log.statement? r = some s) ∧
      (session.log.missing included = [] → included = session.log.closure e) ∧
      (session.log.missing included ≠ [] →
        ∃ r s, session.log.statement? r = some s ∧ r ∉ included ∧
          r ∈ session.log.extend included) := by
  have hsound := h.log.sound
  refine ⟨hsound.completes_closure.rounds, fun n included hrounds =>
    ⟨hsound.rounds_le_size hrounds, fun r hr => ?_, fun hm => ?_,
      hsound.exists_statement_of_missing⟩⟩
  · refine hsound.mem_nodes.mp (hsound.subset_nodes_of_rounds hrounds ?_ hr)
    exact fun _ => Graph.mem_nodes_of_mem_dependencies hsound.wellFormed
  · exact (hrounds.completes (.done hm)).unique hsound.completes_closure

/-- The `if` of the first cell is needed for its `else`, and none of its block: a round includes
the block. -/
theorem closure_terminates_otherBranch : ∃ session : Session, session.Reachable ∧
    ∃ e ∈ session.log.entries, session.log.closure e = [(1, 0), (0, 3), (0, 2), (0, 0), (0, 1)] ∧
      ∃ n, session.log.Rounds (session.log.graph.dependencies e.refs) n (session.log.closure e) ∧
        session.log.missing (session.log.closure e) = [] ∧ n ≤ session.log.size := by
  obtain ⟨session, h, hclosures⟩ := Session.exists_of_postAll
    [.counted 1 "if True:\n    a = 1\nelse:\n    b = 2", .counted 2 "print(b)"]
    (p := fun log => (log.entries.map log.closure).getLast? =
      some [(1, 0), (0, 3), (0, 2), (0, 0), (0, 1)])
    (by decide +kernel)
  obtain ⟨e, he, hclosure⟩ := List.mem_map.mp (List.mem_of_getLast? hclosures)
  obtain ⟨⟨n, hrounds, hm⟩, hall⟩ := Session.closure_terminates h e
  exact ⟨session, h, e, he, hclosure, n, hrounds, hm, (hall n _ hrounds).1⟩

end NotebookSlice
