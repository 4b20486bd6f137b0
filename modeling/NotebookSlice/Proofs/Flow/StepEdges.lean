import NotebookSlice.Proofs.Flow.EdgeLists
import NotebookSlice.Proofs.Flow.Part

/-! # The edges into a step

The edges into a step are made when it is added, from its parent and from the last
writers of the names that it reads. A step of a part whose sources all lie in the
part therefore has the same edges there, at new positions.
-/

namespace NotebookSlice.Flow

/-- Adds the edge from the last writer of a name, unless that is the step itself. -/
def Step.addRead (t : Step) (writer? : String → Option Ref) (es : List Edge) (name : String) :
    List Edge :=
  match writer? name with
  | some source => if source = t.ref then es else Graph.addReason source t.ref (.reads name) es
  | none => es

/-- The edge from the parent of a step, if it has one. -/
def Step.placeEdges (t : Step) : List Edge :=
  match t.statement.parent with
  | some p => Graph.addReason (t.position, p) t.ref .governed []
  | none => []

/-- The edges that end at a step, when the last writers are given. -/
def Step.edges (t : Step) (writer? : String → Option Ref) : List Edge :=
  t.statement.reads.foldl (t.addRead writer?) t.placeEdges

namespace Graph

variable {g : Graph} {w : Ref}

/-- A reason for the target itself goes to the edges into the target. -/
theorem filter_addReason_self (u : Ref) (r : Reason) (es : List Edge) :
    (addReason u w r es).filter (·.target == w) =
      addReason u w r (es.filter (·.target == w)) := by
  have hadd (e : Edge) : (e.add r).target = e.target := by cases r <;> rfl
  induction es with
  | nil => simp [addReason, hadd]
  | cons e es ih =>
    rw [addReason]
    split
    · rename_i hbetween
      have htarget : e.target = w := (Prod.mk.inj ((Edge.isBetween_iff ..).mp hbetween)).2
      simp only [List.filter_cons, hadd, htarget, beq_self_eq_true, if_true]
      rw [addReason, if_pos hbetween]
    · rename_i hother
      rw [List.filter_cons, List.filter_cons, ih]
      split
      · rw [addReason, if_neg hother]
      · rfl

theorem edgesInto_link_self (u : Ref) (r : Reason) :
    (g.link u w r).edgesInto w = addReason u w r (g.edgesInto w) := by
  rw [edgesInto, edges_link, filter_addReason_self, edgesInto]

theorem edgesInto_foldl_linkRead_self (t : Step) (names : List String) (g : Graph) :
    (names.foldl (linkRead t.ref) g).edgesInto t.ref =
      names.foldl (t.addRead g.writer?) (g.edgesInto t.ref) := by
  induction names generalizing g with
  | nil => rfl
  | cons name names ih =>
    have hwriter : (linkRead t.ref g name).writer? = g.writer? := by
      funext other
      rw [writer?, writers_linkRead, writer?]
    have hread : (linkRead t.ref g name).edgesInto t.ref =
        t.addRead g.writer? (g.edgesInto t.ref) name := by
      unfold linkRead Step.addRead
      cases g.writer? name with
      | none => rfl
      | some source =>
        simp only
        split
        · rfl
        · exact edgesInto_link_self ..
    rw [List.foldl_cons, List.foldl_cons, ih, hwriter, hread]

theorem edgesInto_addStep_self {t : Step} (hnew : g.edgesInto t.ref = []) :
    (g.addStep t).edgesInto t.ref = t.edges g.writer? := by
  have hwriter : (g.addPlace t).writer? = g.writer? := by
    funext name
    rw [writer?, writers_addPlace, writer?]
  have hnode : (g.addNode t.ref).edgesInto t.ref = [] := by
    rw [edgesInto, edges_addNode, ← edgesInto, hnew]
  have hplace : (g.addPlace t).edgesInto t.ref = t.placeEdges := by
    unfold addPlace Step.placeEdges
    cases t.statement.parent with
    | none => exact hnode
    | some p => simp only [edgesInto_link_self, hnode]
  rw [addStep_eq, edgesInto, edges_foldl_setWriter, ← edgesInto, edgesInto_foldl_linkRead_self,
    hwriter, hplace, Step.edges]

/-- The edges into a step are those that the last writers before it give. -/
theorem edgesInto_ofSteps {before after : List Step} {t : Step}
    (hnodup : ((before ++ t :: after).map Step.ref).Nodup) :
    (ofSteps (before ++ t :: after)).edgesInto t.ref = t.edges (lastWriter? before) := by
  rw [List.map_append, List.map_cons, List.nodup_append, List.nodup_cons] at hnodup
  obtain ⟨-, ⟨hafter, -⟩, hbefore⟩ := hnodup
  have hnew : (ofSteps before).edgesInto t.ref = [] := by
    refine List.filter_eq_nil_iff.mpr fun e he htarget => ?_
    obtain ⟨r, hr⟩ := (wellFormed_ofSteps before).justified e he
    obtain ⟨_, t', _, hsteps, hv, -⟩ := hasReason_ofSteps.mp ⟨e, he, rfl, hr⟩
    have hmem : t' ∈ before := by simp [hsteps]
    refine hbefore _ (List.mem_map_of_mem hmem) _ List.mem_cons_self ?_
    exact hv.symm.trans (eq_of_beq htarget)
  rw [ofSteps, List.foldl_append, List.foldl_cons, ← ofSteps, edgesInto_foldl_addStep,
    edgesInto_addStep_self hnew, funext (writer?_ofSteps before)]
  intro t' ht' heq
  exact hafter (heq ▸ List.mem_map_of_mem ht')

end Graph

/-! ## Moved edges -/

/-- An edge after the executions were moved to other positions. -/
def Edge.moved (place : ℕ → ℕ) (e : Edge) : Edge :=
  { e with source := Flow.moved place e.source, target := Flow.moved place e.target }

def Step.moved (place : ℕ → ℕ) (t : Step) : Step := { t with position := place t.position }

variable {place : ℕ → ℕ}

@[simp] theorem Step.ref_moved (t : Step) : (t.moved place).ref = Flow.moved place t.ref := rfl

theorem Edge.moved_add (e : Edge) (r : Reason) :
    (e.add r).moved place = (e.moved place).add r := by
  cases r <;> rfl

theorem map_moved_addReason (hplace : StrictMono place) (u v : Ref) (r : Reason)
    (es : List Edge) : (Graph.addReason u v r es).map (Edge.moved place) =
      Graph.addReason (moved place u) (moved place v) r (es.map (Edge.moved place)) := by
  have hbetween (e : Edge) :
      (e.moved place).isBetween (moved place u) (moved place v) = e.isBetween u v := by
    rw [Bool.eq_iff_iff, Edge.isBetween_iff, Edge.isBetween_iff]
    simp only [Edge.ends, Edge.moved, Prod.mk.injEq, (moved_injective hplace).eq_iff]
  induction es with
  | nil => exact congrArg (· :: []) (Edge.moved_add ..)
  | cons e es ih =>
    rw [List.map_cons, Graph.addReason, Graph.addReason, hbetween]
    split
    · rw [List.map_cons, Edge.moved_add]
    · rw [List.map_cons, ih]

theorem Step.map_moved_edges (hplace : StrictMono place) (t : Step)
    {writer? writer'? : String → Option Ref} (hwriters : ∀ name ∈ t.statement.reads,
      writer'? name = (writer? name).map (Flow.moved place)) :
    (t.edges writer?).map (Edge.moved place) = (t.moved place).edges writer'? := by
  have hread (es : List Edge) {name : String} (hname : name ∈ t.statement.reads) :
      (t.addRead writer? es name).map (Edge.moved place) =
        (t.moved place).addRead writer'? (es.map (Edge.moved place)) name := by
    rw [addRead, addRead, hwriters name hname]
    cases writer? name with
    | none => rfl
    | some u =>
      simp only [Option.map_some, ref_moved, (moved_injective hplace).eq_iff]
      split
      · rfl
      · exact map_moved_addReason hplace ..
  have hreads (names : List String) (hsub : names ⊆ t.statement.reads) (es : List Edge) :
      (names.foldl (t.addRead writer?) es).map (Edge.moved place) =
        names.foldl ((t.moved place).addRead writer'?) (es.map (Edge.moved place)) := by
    induction names generalizing es with
    | nil => rfl
    | cons name names ih =>
      obtain ⟨hname, hsub⟩ := List.cons_subset.mp hsub
      rw [List.foldl_cons, List.foldl_cons, ih hsub, hread es hname]
  have hplaced : t.placeEdges.map (Edge.moved place) = (t.moved place).placeEdges := by
    unfold placeEdges
    simp only [Step.moved]
    cases t.statement.parent with
    | none => rfl
    | some p => exact map_moved_addReason hplace ..
  rw [edges, hreads _ (List.Subset.refl _), hplaced]
  rfl

namespace History.PartOf

variable {part h : History} (hp : part.PartOf h place) (ok : h.Ordered) (okPart : part.Ordered)
include hp ok okPart

/-- If the sources of a step are in the part, its edges are the same there. -/
theorem edgesInto_moved {t : Step} (ht : t ∈ part.steps)
    (hsources : ∀ w, (Graph.ofHistory h).Feeds w (moved place t.ref) →
      ∃ k, part.Has k ∧ place k = w.1) :
    (Graph.ofHistory h).edgesInto (moved place t.ref) =
      ((Graph.ofHistory part).edgesInto t.ref).map (Edge.moved place) := by
  obtain ⟨x, hx, hxt⟩ := mem_steps.mp ht
  obtain ⟨hposition, hdefines, hstatement⟩ := Execution.mem_steps.mp hxt
  have hhas : part.Has t.ref.1 := ⟨x, hx, hposition.symm⟩
  have ht' : t.moved place ∈ h.steps := by
    refine mem_steps.mpr ⟨_, hp.mem x hx, Execution.mem_steps.mpr ⟨?_, hdefines, hstatement⟩⟩
    exact congrArg place hposition
  obtain ⟨before, after, heq⟩ := List.append_of_mem ht
  obtain ⟨before', after', heq'⟩ := List.append_of_mem ht'
  have hwriters : ∀ name ∈ t.statement.reads,
      lastWriter? before' name = (lastWriter? before name).map (moved place) := by
    intro name hname
    have hreads : h.Reads name (moved place t.ref) :=
      (hp.reads_moved_iff ok hhas).mpr (reads_iff.mpr ⟨t, ht, rfl, hname⟩)
    ext u
    rw [← lastWriter_iff ok heq', Step.ref_moved, hp.lastWriter_moved_iff ok, Option.map_eq_some_iff]
    · simp only [← lastWriter_iff okPart heq, and_comm]
    · intro w hw
      exact hsources w (.of_hasReason ((hasReason_reads_iff ok).mpr ⟨hreads, hw⟩))
  have hnodup := okPart.nodup_refs
  have hnodup' := ok.nodup_refs
  rw [heq] at hnodup
  rw [heq'] at hnodup'
  rw [Graph.ofHistory_eq, Graph.ofHistory_eq, heq, heq', ← Step.ref_moved,
    Graph.edgesInto_ofSteps hnodup', Graph.edgesInto_ofSteps hnodup,
    Step.map_moved_edges hp.strictMono t hwriters]

end History.PartOf

end NotebookSlice.Flow
