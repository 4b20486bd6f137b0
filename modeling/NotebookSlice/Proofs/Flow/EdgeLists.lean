import Mathlib.Data.List.Nodup
import NotebookSlice.Proofs.Flow.Edges

/-! # The edges of an execution

A step only adds edges that end at itself. So the edges into a statement are
settled once it is added, and the edges of a graph are those of its executions
put together.
-/

namespace NotebookSlice.Flow

variable {h h' : History}

theorem History.Ordered.nodup_refs (ok : h.Ordered) : (h.steps.map Step.ref).Nodup := by
  refine List.pairwise_map.mpr (ok.sorted.imp fun hlt heq => ?_)
  rw [heq] at hlt
  exact not_before_self _ hlt

namespace Graph

variable {g : Graph} {w : Ref}

theorem filter_addReason {u v : Ref} (hne : v ≠ w) (r : Reason) (es : List Edge) :
    (addReason u v r es).filter (·.target == w) = es.filter (·.target == w) := by
  have hadd (e : Edge) : (e.add r).target = e.target := by cases r <;> rfl
  induction es with
  | nil => simp [addReason, hadd, hne]
  | cons e es ih =>
    rw [addReason]
    split
    · simp only [List.filter_cons, hadd]
      rename_i hbetween
      rw [Edge.isBetween_iff] at hbetween
      have htarget : e.target = v := (Prod.mk.inj hbetween).2
      simp [htarget, hne]
    · rw [List.filter_cons, List.filter_cons, ih]

theorem edgesInto_link {u v : Ref} (hne : v ≠ w) (r : Reason) :
    (g.link u v r).edgesInto w = g.edgesInto w := by
  rw [edgesInto, edges_link, filter_addReason hne, edgesInto]

theorem edgesInto_linkRead {ref : Ref} (hne : ref ≠ w) (name : String) :
    (linkRead ref g name).edgesInto w = g.edgesInto w := by
  unfold linkRead
  split
  · split
    · rfl
    · exact edgesInto_link hne _
  · rfl

theorem edgesInto_addPlace {t : Step} (hne : t.ref ≠ w) :
    (g.addPlace t).edgesInto w = g.edgesInto w := by
  unfold addPlace
  split
  · rw [edgesInto_link hne, edgesInto, edges_addNode, edgesInto]
  · rw [edgesInto, edges_addNode, edgesInto]

theorem edgesInto_addStep {t : Step} (hne : t.ref ≠ w) :
    (g.addStep t).edgesInto w = g.edgesInto w := by
  rw [addStep_eq, edgesInto, edges_foldl_setWriter, ← edgesInto]
  exact List.foldlRecOn t.statement.reads _ (motive := fun g' : Graph =>
    g'.edgesInto w = g.edgesInto w) (edgesInto_addPlace hne)
    fun _ ih name _ => (edgesInto_linkRead hne name).trans ih

theorem edgesInto_foldl_addStep {steps : List Step} (hne : ∀ t ∈ steps, t.ref ≠ w) :
    (steps.foldl addStep g).edgesInto w = g.edgesInto w :=
  List.foldlRecOn steps _ (motive := fun g' : Graph => g'.edgesInto w = g.edgesInto w) rfl
    fun _ ih t ht => (edgesInto_addStep (hne t ht)).trans ih

theorem edgesInto_ofHistory_append (ok : History.Ordered (h ++ h')) {t : Step}
    (ht : t ∈ h.steps) :
    (ofHistory (h ++ h')).edgesInto t.ref = (ofHistory h).edgesInto t.ref := by
  rw [ofHistory_eq, ofHistory_eq, ofSteps, ofSteps, History.steps, List.flatMap_append,
    List.foldl_append]
  refine edgesInto_foldl_addStep fun t' ht' heq => ?_
  have hnodup := ok.nodup_refs
  rw [History.steps, List.flatMap_append, List.map_append, List.nodup_append] at hnodup
  exact hnodup.2.2 _ (List.mem_map_of_mem ht) _ (List.mem_map_of_mem ht') heq.symm

/-! ## All edges -/

theorem edgesOf_eq (x : Execution) :
    g.edgesOf x.position x.statements = x.steps.flatMap fun t => g.edgesInto t.ref := by
  simp only [edgesOf, Execution.steps, List.flatMap_map, Step.ref]

theorem exists_target_ofHistory {e : Edge} (he : e ∈ (ofHistory h).edges) :
    ∃ t ∈ h.steps, e.target = t.ref := by
  rw [ofHistory_eq] at he
  obtain ⟨r, hr⟩ := (wellFormed_ofSteps h.steps).justified e he
  have hreason : HasReason (ofSteps h.steps).edges e.source e.target r := ⟨e, he, rfl, hr⟩
  obtain ⟨before, t, after, hsteps, htarget, -⟩ := hasReason_ofSteps.mp hreason
  exact ⟨t, by simp [hsteps], htarget⟩

theorem nodup_edges (hg : g.WellFormed) : g.edges.Nodup :=
  hg.simple.of_map

theorem nodup_flatMap_edgesInto (hg : g.WellFormed) {refs : List Ref} (hrefs : refs.Nodup) :
    (refs.flatMap g.edgesInto).Nodup := by
  refine List.nodup_flatMap.mpr ⟨fun _ _ => (nodup_edges hg).filter _, hrefs.imp ?_⟩
  intro u v hne e hu hv
  have htarget : e.target = u := by simpa using (List.mem_filter.mp hu).2
  have htarget' : e.target = v := by simpa using (List.mem_filter.mp hv).2
  exact hne (htarget.symm.trans htarget')

/-- The edges of a graph are those of its executions, without repetitions. -/
theorem edges_perm_flatMap_edgesOf (ok : h.Ordered) :
    (ofHistory h).edges.Perm
      (h.flatMap fun x => (ofHistory h).edgesOf x.position x.statements) := by
  have hg : (ofHistory h).WellFormed := ofHistory_eq h ▸ wellFormed_ofSteps _
  have hsteps : (h.flatMap fun x => (ofHistory h).edgesOf x.position x.statements) =
      (h.steps.map Step.ref).flatMap (ofHistory h).edgesInto := by
    simp only [edgesOf_eq, History.steps, List.flatMap_map, List.flatMap_assoc]
  rw [hsteps, List.perm_ext_iff_of_nodup (nodup_edges hg)
    (nodup_flatMap_edgesInto hg ok.nodup_refs)]
  intro e
  simp only [List.mem_flatMap, List.mem_map, edgesInto, List.mem_filter, beq_iff_eq]
  constructor
  · intro he
    obtain ⟨t, ht, htarget⟩ := exists_target_ofHistory he
    exact ⟨t.ref, ⟨t, ht, rfl⟩, he, htarget⟩
  · rintro ⟨_, -, he, -⟩
    exact he

end Graph

end NotebookSlice.Flow
