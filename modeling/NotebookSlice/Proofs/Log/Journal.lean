import NotebookSlice.Proofs.Log.Calls
import NotebookSlice.Proofs.Log.Prefix

/-! # What is logged is final

The journal of a run has each new entry together with the session right after
it. The log of that session begins every later log, so the edges into the
statements of the entry and its slice remain what they were. All edges are those
that the entries had when they were recorded.
-/

namespace NotebookSlice

open NotebookSlice.Flow

/-- A new entry, and the session right after it was recorded. -/
structure Logging where
  session : Session
  entry : Entry

namespace Logging

/-- The edges into the statements of the entry, as they were given back for it. -/
def edges (l : Logging) : List Edge := l.session.log.edgesOf l.entry

/-- A session has the entry with the edges and the slice that it had right after it was
recorded. -/
structure KeptBy (l : Logging) (s : Session) : Prop where
  entry : s.log.entries[l.entry.position]? = some l.entry
  edgesInto : ∀ r ∈ l.entry.refs, s.log.graph.edgesInto r = l.session.log.graph.edgesInto r
  slice : s.log.sliceEntry l.entry = l.session.log.sliceEntry l.entry

end Logging

namespace Session

/-- The new entries of a run, each with the session right after it. -/
def journal : Session → List Call → List Logging
  | _, [] => []
  | s, call :: calls =>
    ((s.entry? call).toList.map fun e => ⟨s.after call, e⟩) ++ (s.after call).journal calls

variable {s : Session} {calls : List Call} {l : Logging}

theorem entries_run (s : Session) (calls : List Call) :
    (s.run calls).log.entries = s.log.entries ++ (s.journal calls).map Logging.entry := by
  induction calls generalizing s with
  | nil => rw [journal, List.map_nil, List.append_nil, run_nil]
  | cons call calls ih =>
    have hentry : ((s.entry? call).toList.map fun e => (⟨s.after call, e⟩ : Logging)).map
        Logging.entry = (s.entry? call).toList := by
      rw [List.map_map]
      exact List.map_id _
    rw [run_cons, ih, entries_after, journal, List.map_append, hentry, List.append_assoc]

/-- The session of a logging is reachable, has the entry, and has nothing that is not there at the
end. -/
theorem Reachable.of_mem_journal (h : s.Reachable) (hl : l ∈ s.journal calls) :
    l.session.Reachable ∧ l.entry ∈ l.session.log.entries ∧
      l.session.log.entries <+: (s.run calls).log.entries := by
  induction calls generalizing s with
  | nil => cases hl
  | cons call calls ih =>
    rw [journal, List.mem_append] at hl
    rcases hl with hl | hl
    · obtain ⟨e, he, rfl⟩ := List.mem_map.mp hl
      refine ⟨h.after call, ?_, entries_isPrefix_run ..⟩
      rw [entries_after]
      exact List.mem_append_right _ he
    · exact ih (h.after call) hl

theorem Reachable.edges_of_mem_journal (h : s.Reachable) (hl : l ∈ s.journal calls) :
    (s.run calls).log.edgesOf l.entry = l.edges := by
  obtain ⟨hsession, hentry, hpre⟩ := h.of_mem_journal hl
  exact (h.run calls).log.sound.edgesOf_eq_of_isPrefix hsession.log.sound hpre hentry

theorem Reachable.keptBy_run (h : s.Reachable) (hl : l ∈ s.journal calls) (more : List Call) :
    l.KeptBy ((s.run calls).run more) := by
  obtain ⟨hsession, hentry, hpre⟩ := h.of_mem_journal hl
  have hpre := hpre.trans (entries_isPrefix_run (s.run calls) more)
  have hpart := hsession.log.sound
  have hlater := ((h.run calls).run more).log.sound
  exact ⟨hlater.getElem?_position (hpre.subset hentry),
    fun r hr => hlater.edgesInto_eq_of_isPrefix hpart hpre hentry hr,
    hlater.sliceEntry_eq_of_isPrefix hpart hpre hentry⟩

/-- What is logged is final. Let calls be made on a new session, and more calls after them. Then
the entries are those of the journal, and each is kept in the end as it was right after it was
recorded. At any time all edges are those that the entries had then, no edge twice and none of two
entries. -/
theorem journal_final (c : Configuration) (marker : String) (withHeader : Bool)
    (calls more : List Call) :
    let start := Session.new c marker withHeader
    let journal := start.journal calls
    (start.run calls).log.entries = journal.map Logging.entry ∧
      (∀ l ∈ journal, l.KeptBy ((start.run calls).run more)) ∧
      (start.run calls).log.graph.edges.Perm (journal.flatMap Logging.edges) ∧
      (start.run calls).log.graph.edges.Nodup ∧
      journal.Pairwise fun l k => l.edges.Disjoint k.edges := by
  intro start journal
  have hstart : start.Reachable := .new c marker withHeader
  have hsound := (hstart.run calls).log.sound
  have hentries : (start.run calls).log.entries = journal.map Logging.entry :=
    entries_run start calls
  have hedges : (start.run calls).log.graph.edges.Perm (journal.flatMap Logging.edges) := by
    have hperm := hsound.edges_perm
    rw [hentries, List.flatMap_map] at hperm
    rwa [List.flatMap_congr fun l hl => hstart.edges_of_mem_journal hl] at hperm
  have hnodup := Graph.nodup_edges hsound.wellFormed
  exact ⟨hentries, fun l hl => hstart.keptBy_run hl more, hedges, hnodup,
    (List.nodup_flatMap.mp (hedges.nodup hnodup)).2⟩

/-- The second call is no configuration, and the count of the third does not grow. -/
example : ((Session.new .empty "" false).journal [.record (.counted 1 "a = 1") .null,
    .misconfigure .null, .record (.counted 1 "b = 2") .null,
    .post (.counted 2 "print(a)") .null]).map (fun l => (l.entry.position, l.edges.length)) =
      [(0, 0), (1, 1)] := by
  decide +kernel

end Session

end NotebookSlice
