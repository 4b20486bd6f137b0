import NotebookSlice.Proofs.Flow.OverridePaths
import NotebookSlice.Proofs.Log.Places
import NotebookSlice.Proofs.Log.Recording

/-! # Rules never add dependencies

Two logs of the same cells, of which the second has more rules at each entry. The
statements differ only in their writes, and what a statement depends on in the
second log it depends on in the first, though maybe through others.
-/

namespace NotebookSlice

open NotebookSlice.Flow

/-- The same execution, analysed with more rules after those that there were. -/
def Entry.Extends (e e' : Entry) : Prop :=
  e'.cell = e.cell ∧ ∃ rules, e'.configuration = e.configuration.extended rules

namespace Log.Sound

variable {log log' : Log} (h : log.Sound) (h' : log'.Sound)
  (hmore : List.Forall₂ Entry.Extends log.entries log'.entries)
include h h' hmore

theorem overridden_entries : List.Forall₂ (fun e e' => e'.position = e.position ∧
    e'.cell = e.cell ∧ OverriddenUnits e.statements e'.statements) log.entries log'.entries := by
  refine List.forall₂_iff_get.mpr ⟨hmore.length_eq, fun k hk hk' => ?_⟩
  obtain ⟨hcell, rules, hconfiguration⟩ := hmore.get hk hk'
  have hanalysed := h.analysed _ (List.get_mem log.entries ⟨k, hk⟩)
  have hanalysed' := h'.analysed _ (List.get_mem log'.entries ⟨k, hk'⟩)
  rw [hcell, hconfiguration] at hanalysed'
  have hposition := h.position k _ (List.getElem?_eq_getElem hk)
  have hposition' := h'.position k _ (List.getElem?_eq_getElem hk')
  exact ⟨hposition'.trans hposition.symm, hcell, overridden_analyzeCell hanalysed hanalysed'⟩

theorem overridden_history : log.history.Overridden log'.history := by
  simp only [Flow.History.Overridden, Flow.History.steps, history, List.flatMap_map]
  refine List.rel_flatMap (h.overridden_entries h' hmore) fun e e' he => ?_
  obtain ⟨hposition, hcell, hunits⟩ := he
  simp only [Execution.steps, List.forall₂_map_left_iff, List.forall₂_map_right_iff]
  exact hunits.imp fun s s' hs => ⟨hposition, by simp only [Entry.execution, hcell], hs⟩

theorem dependencies_subset (refs : List Ref) :
    log'.graph.dependencies refs ⊆ log.graph.dependencies refs := by
  have hov := h.overridden_history h' hmore
  intro u hu
  rw [Graph.mem_dependencies_iff h'.wellFormed] at hu
  obtain ⟨v, hv, hnode, hpath⟩ := hu
  refine (Graph.mem_dependencies_iff h.wellFormed).mpr ⟨v, hv, ?_, ?_⟩
  · obtain ⟨t', ht', rfl⟩ := h'.exists_step.mpr (h'.mem_nodes.mp hnode)
    obtain ⟨t, ht, htt⟩ := exists_of_mem_right hov ht'
    exact h.mem_nodes.mpr (h.exists_step.mp ⟨t, ht, htt.ref_eq.symm⟩)
  · rw [h'.graph_eq] at hpath
    rw [h.graph_eq]
    exact Relation.reflTransGen_closed
      (fun _ _ hab => (hov.path_of_feeds h.ordered h'.ordered hab).to_reflTransGen) _ _ hpath

end Log.Sound

/-- Rules never add dependencies. Let two sessions have logged the same cells, the second with more
rules after those of the first. Then their statements are the same but for writes, of which the
second has only some, and each other one is a name that the statement reads. And whatever some
statements depend on in the second session, they depend on in the first. -/
theorem Session.dependencies_subset_of_extends {s s' : Session} (h : s.Reachable)
    (h' : s'.Reachable) (hmore : List.Forall₂ Entry.Extends s.log.entries s'.log.entries) :
    List.Forall₂ (fun e e' => List.Forall₂ (fun t t' => t' = { t with writes := t'.writes } ∧
      t'.writes ⊆ t.writes ∧ ∀ name ∈ t.writes, name ∈ t'.writes ∨ name ∈ t.reads)
        e.statements e'.statements) s.log.entries s'.log.entries ∧
    ∀ refs, s'.log.graph.dependencies refs ⊆ s.log.graph.dependencies refs := by
  have hsound := h.log.sound
  have hsound' := h'.log.sound
  refine ⟨(hsound.overridden_entries hsound' hmore).imp fun e e' he => ?_,
    hsound.dependencies_subset hsound' hmore⟩
  exact he.2.2.imp fun t t' ht => ⟨ht.eq, ht.writes, ht.dropped⟩

/-- The second cell looks at `df`, which counts as a modification unless a rule spares it. -/
def lookup : List Cell := [.counted 1 "df = 1", .counted 2 "df.head()", .counted 3 "print(df)"]

/-- With a rule the last cell no longer depends on the second one, and so on the first directly. -/
theorem dependencies_subset_of_extends_lookup : ∃ s s' : Session, s.Reachable ∧ s'.Reachable ∧
    List.Forall₂ Entry.Extends s.log.entries s'.log.entries ∧
    s.log.graph.edges = [⟨(0, 0), (1, 0), ["df"], false⟩, ⟨(1, 0), (2, 0), ["df"], false⟩] ∧
    s'.log.graph.edges = [⟨(0, 0), (1, 0), ["df"], false⟩, ⟨(0, 0), (2, 0), ["df"], false⟩] ∧
    s'.log.graph.dependencies [(2, 0)] ⊆ s.log.graph.dependencies [(2, 0)] := by
  let rules := [OverrideRule.known none [.object] "head"]
  obtain ⟨s, h, hrecordings, hedges⟩ := Session.exists_of_recordAll
    (lookup.map fun cell => ⟨.empty, cell, .null⟩)
    (p := fun log => log.graph.edges =
      [⟨(0, 0), (1, 0), ["df"], false⟩, ⟨(1, 0), (2, 0), ["df"], false⟩])
    (by decide +kernel)
  obtain ⟨s', h', hrecordings', hedges'⟩ := Session.exists_of_recordAll
    (lookup.map fun cell => ⟨Configuration.empty.extended rules, cell, .null⟩)
    (p := fun log => log.graph.edges =
      [⟨(0, 0), (1, 0), ["df"], false⟩, ⟨(0, 0), (2, 0), ["df"], false⟩])
    (by decide +kernel)
  have hmore : List.Forall₂ Entry.Extends s.log.entries s'.log.entries := by
    have hrecorded : List.Forall₂ (fun r r' : Recording => r'.cell = r.cell ∧
        ∃ rules, r'.configuration = r.configuration.extended rules)
        (s.log.entries.map Entry.recording) (s'.log.entries.map Entry.recording) := by
      rw [hrecordings, hrecordings', List.forall₂_map_left_iff, List.forall₂_map_right_iff]
      exact List.forall₂_same.mpr fun cell _ => ⟨rfl, rules, rfl⟩
    rwa [List.forall₂_map_left_iff, List.forall₂_map_right_iff] at hrecorded
  exact ⟨s, s', h, h', hmore, hedges, hedges',
    (Session.dependencies_subset_of_extends h h' hmore).2 _⟩

end NotebookSlice
