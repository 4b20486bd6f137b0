import NotebookSlice.Proofs.Flow.StepEdges
import NotebookSlice.Proofs.Log.Prefix
import NotebookSlice.Proofs.Log.Regather

/-! # Failed executions

A failed execution defines nothing. Its statements have sources, but they are
sources of nothing outside the cell, and inside it only by control. A log without
failed entries is therefore a part of the whole one that has all sources of the
entries that are left.
-/

namespace NotebookSlice

open NotebookSlice.Flow

namespace Log.Sound

variable {log : Log} (h : log.Sound) {e f : Entry}
include h

theorem not_writes_of_hasFailed (hf : f ∈ log.entries) (hfailed : f.cell.hasFailed = true)
    {name : String} {u : Ref} (hu : u.1 = f.position) : ¬ log.history.Writes name u := by
  rintro ⟨x, hx, hdefines, s, -, rfl, -⟩
  obtain ⟨g, hg, rfl⟩ := List.mem_map.mp hx
  obtain rfl := h.eq_of_position hg hf hu
  simp [Entry.execution, hfailed] at hdefines

/-- The edges that begin at a failed entry are there for control only, and stay in the entry. -/
theorem edge_of_hasFailed (hf : f ∈ log.entries) (hfailed : f.cell.hasFailed = true) {d : Edge}
    (hd : d ∈ log.graph.edges) (hsource : d.source.1 = f.position) :
    d.target.1 = f.position ∧ d.symbols = [] := by
  have hsymbols : d.symbols = [] := by
    refine List.eq_nil_iff_forall_not_mem.mpr fun name hname => ?_
    have hreason : HasReason (Graph.ofHistory log.history).edges d.source d.target (.reads name) :=
      ⟨d, h.graph_eq ▸ hd, rfl, hname⟩
    have hwrites := ((hasReason_reads_iff h.ordered).mp hreason).2.1
    exact h.not_writes_of_hasFailed hf hfailed hsource hwrites
  refine ⟨?_, hsymbols⟩
  obtain ⟨r, hr⟩ := h.wellFormed.justified d hd
  cases r with
  | reads name =>
    rw [Edge.Has, hsymbols] at hr
    cases hr
  | governed =>
    have hreason : HasReason (Graph.ofHistory log.history).edges d.source d.target .governed :=
      ⟨d, h.graph_eq ▸ hd, rfl, hr⟩
    obtain ⟨x, -, s, -, htarget, p, -, hparent⟩ := hasReason_governed_iff.mp hreason
    rw [hparent] at hsource
    rw [htarget]
    exact hsource

theorem target_of_feeds_hasFailed (hf : f ∈ log.entries) (hfailed : f.cell.hasFailed = true)
    {u v : Ref} (hfeeds : log.graph.Feeds u v) (hu : u.1 = f.position) : v.1 = f.position := by
  obtain ⟨d, hd, rfl, rfl⟩ := hfeeds
  exact (h.edge_of_hasFailed hf hfailed hd hu).1

theorem target_of_path_hasFailed (hf : f ∈ log.entries) (hfailed : f.cell.hasFailed = true)
    {u v : Ref} (hpath : Relation.ReflTransGen log.graph.Feeds u v) (hu : u.1 = f.position) :
    v.1 = f.position := by
  induction hpath with
  | refl => exact hu
  | tail _ hfeeds ih => exact h.target_of_feeds_hasFailed hf hfailed hfeeds ih

theorem position_ne_of_mem_closure (hf : f ∈ log.entries) (hfailed : f.cell.hasFailed = true)
    (hne : e.position ≠ f.position) : ∀ r ∈ log.closure e, r.1 ≠ f.position := by
  have hdependencies {refs : List Ref} (hrefs : ∀ v ∈ refs, v.1 ≠ f.position) :
      ∀ u ∈ log.graph.dependencies refs, u.1 ≠ f.position := by
    intro u hu heq
    obtain ⟨v, hv, -, hpath⟩ := (Graph.mem_dependencies_iff h.wellFormed).mp hu
    exact hrefs v hv (h.target_of_path_hasFailed hf hfailed hpath heq)
  refine complete_induction (P := fun all => ∀ r ∈ all, r.1 ≠ f.position) ?_
    (hdependencies fun v hv => ?_) _
  · intro included hout _ r hr
    rcases mem_extend.mp hr with hr | hr
    · exact hout r hr
    · refine hdependencies (fun v hv => ?_) r hr
      obtain ⟨ref, href, -, -, -, i, -, rfl⟩ := mem_missing.mp hv
      exact hout ref href
  · obtain ⟨s, -, rfl⟩ := List.mem_map.mp hv
    exact hne

end Log.Sound

/-! ## Without failed entries -/

namespace Log

variable {part log : Log} {place : ℕ → ℕ} {dropped : Entry → Bool}

/-- The part has just the entries that are not dropped, and all that are dropped have failed. -/
structure Spares (part log : Log) (place : ℕ → ℕ) (dropped : Entry → Bool) : Prop where
  strictMono : StrictMono place
  moves : List.Forall₂ (fun f g => f ∈ part.entries ∧ g ∈ log.entries ∧ f.MovesTo place g)
    part.entries (log.entries.filter fun g => !dropped g)
  failed : ∀ f ∈ log.entries, dropped f = true → f.cell.hasFailed = true

namespace Spares

variable (hs : part.Spares log place dropped)
include hs

theorem partOf : part.PartOf log place where
  strictMono := hs.strictMono
  mem f hf := by
    obtain ⟨g, -, -, hg, hfg⟩ := exists_of_mem_left hs.moves hf
    exact ⟨g, hg, hfg⟩

theorem exists_movesTo {g : Entry} (hg : g ∈ log.entries) (hkept : dropped g = false) :
    ∃ f ∈ part.entries, f.MovesTo place g := by
  have hmem : g ∈ log.entries.filter fun g => !dropped g :=
    List.mem_filter.mpr ⟨hg, by simp [hkept]⟩
  obtain ⟨f, -, hf, -, hfg⟩ := exists_of_mem_right hs.moves hmem
  exact ⟨f, hf, hfg⟩

variable (h : log.Sound) (hpart : part.Sound) {e' e : Entry}
include h

theorem kept_of_needs (he : e ∈ log.entries) (hkept : dropped e = false) {g : Entry}
    (hg : g ∈ log.entries)
    (hneeds : g.cell.hasFailed = true → g.position = e.position) : dropped g = false := by
  rw [Bool.eq_false_iff]
  intro hdropped
  obtain rfl := h.eq_of_position hg he (hneeds (hs.failed g hg hdropped))
  rw [hkept] at hdropped
  cases hdropped

theorem has_of_feeds (he : e ∈ log.entries) (hkept : dropped e = false) {u v : Ref}
    (hv : v.1 = e.position) (hfeeds : log.graph.Feeds u v) :
    ∃ k, part.history.Has k ∧ place k = u.1 := by
  have hnode : u ∈ log.graph.nodes := by
    obtain ⟨d, hd, rfl, -⟩ := hfeeds
    exact h.wellFormed.source_mem d hd
  obtain ⟨s, hsome⟩ := h.mem_nodes.mp hnode
  obtain ⟨g, hg, -, rfl⟩ := h.statement?_eq_some_iff.mp hsome
  have hg' : dropped g = false := hs.kept_of_needs h he hkept hg fun hfailed =>
    (h.target_of_feeds_hasFailed hg hfailed hfeeds rfl).symm.trans hv
  obtain ⟨f, hf, hfg⟩ := hs.exists_movesTo hg hg'
  exact ⟨f.position, has_history_iff.mpr ⟨f, hf, rfl⟩, hfg.position.symm⟩

theorem kept_of_mem_closure (he : e ∈ log.entries) (hkept : dropped e = false) {g : Entry}
    (hg : g ∈ log.entries) {r : Ref} (hr : r ∈ log.closure e) (hposition : r.1 = g.position) :
    dropped g = false := by
  refine hs.kept_of_needs h he hkept hg fun hfailed => ?_
  by_contra hne
  exact h.position_ne_of_mem_closure hg hfailed (Ne.symm hne) r hr hposition

theorem holds_closure (he : e ∈ log.entries) (hkept : dropped e = false) :
    part.Holds place (log.closure e) := by
  intro r hr
  obtain ⟨s, hsome⟩ := h.mem_nodes.mp (h.closure_subset_nodes hr)
  obtain ⟨g, hg, -, rfl⟩ := h.statement?_eq_some_iff.mp hsome
  obtain ⟨f, hf, hfg⟩ := hs.exists_movesTo hg (hs.kept_of_mem_closure h he hkept hg hr rfl)
  exact ⟨f, hf, hfg.position.symm⟩

include hpart

theorem map_moved_edgesOf (he' : e' ∈ part.entries) (he : e ∈ log.entries)
    (hkept : dropped e = false) (hmoves : e'.MovesTo place e) :
    (part.edgesOf e').map (Edge.moved place) = log.edgesOf e := by
  have hinto : ∀ s ∈ e'.statements, (part.graph.edgesInto (e'.position, s.index)).map
      (Edge.moved place) = log.graph.edgesInto (e.position, s.index) := by
    intro s hs'
    have hstep : (⟨e'.position, !e'.cell.hasFailed, s⟩ : Step) ∈ part.history.steps :=
      Flow.History.mem_steps.mpr ⟨e'.execution, List.mem_map_of_mem he',
        Execution.mem_steps.mpr ⟨rfl, rfl, hs'⟩⟩
    have hedges := hs.partOf.history.edgesInto_moved h.ordered hpart.ordered hstep fun w hw =>
      hs.has_of_feeds h he hkept hmoves.position.symm (h.graph_eq ▸ hw)
    rw [hpart.graph_eq, h.graph_eq, hmoves.position]
    exact hedges.symm
  rw [edgesOf, edgesOf, Graph.edgesOf, Graph.edgesOf, hmoves.statements, List.map_flatMap]
  exact List.flatMap_congr hinto

/-- A kept entry has the same lines of the same cells in its slice. -/
theorem map_extent_slices (he : e ∈ log.entries) (hkept : dropped e = false)
    (hmoves : e'.MovesTo place e) :
    (part.sliceEntry e').slices.map CellSlice.extent =
      (log.sliceEntry e).slices.map CellSlice.extent := by
  have hclosure := hs.partOf.moves_closure h hpart he hmoves (hs.holds_closure h he hkept)
  have hspared : log.entries.filterMap (log.cellSlice? (log.closure e)) =
      (log.entries.filter fun g => !dropped g).filterMap (log.cellSlice? (log.closure e)) := by
    rw [List.filterMap_filter]
    refine List.filterMap_congr fun g hg => ?_
    cases hdropped : dropped g with
    | false => rfl
    | true =>
      refine Option.not_isSome_iff_eq_none.mp fun hsome => ?_
      obtain ⟨w, -, hw⟩ := (h.isSome_cellSlice?_iff hg).mp hsome
      have hg' := hs.kept_of_mem_closure h he hkept hg hw rfl
      rw [hg'] at hdropped
      cases hdropped
  rw [hpart.slices_eq, h.slices_eq, hspared, List.map_filterMap, List.map_filterMap]
  refine filterMap_eq_of_forall₂ (hs.moves.imp fun f g hpair => ?_)
  obtain ⟨hf, hg, hfg⟩ := hpair
  rw [hs.partOf.cellSlice?_eq h hpart hclosure hf hg hfg, Option.map_map]
  rfl

end Spares

end Log

/-- Failed executions are invisible to other cells. In a session, the edges that begin at a failed
entry stay in it and carry no name. Now let some failed entries be dropped, and let the cells of
all others be recorded in a new session, in order and each under the configuration it was analysed
with. Then none of them is refused, and each has the same edges and the same slice as before, but
for the positions. -/
theorem Session.unchanged_without_failed {s : Session} (h : s.Reachable) (dropped : Entry → Bool)
    (hdropped : ∀ f ∈ s.log.entries, dropped f = true → f.cell.hasFailed = true)
    (c : Configuration) (marker : String) (withHeader : Bool) (time : Entry → Value) :
    (∀ f ∈ s.log.entries, f.cell.hasFailed = true → ∀ d ∈ s.log.graph.edges,
      d.source.1 = f.position → d.target.1 = f.position ∧ d.symbols = []) ∧
    ∃ s', (Session.new c marker withHeader).recordAll ((s.log.entries.filter fun g => !dropped g).map
        fun g => ⟨g.configuration, g.cell, time g⟩) = .ok s' ∧
      ∃ place, StrictMono place ∧ List.Forall₂ (fun e' e => e'.MovesTo place e ∧
          (s'.log.edgesOf e').map (Edge.moved place) = s.log.edgesOf e ∧
          (s'.log.sliceEntry e').slices.map CellSlice.extent =
            (s.log.sliceEntry e).slices.map CellSlice.extent)
        s'.log.entries (s.log.entries.filter fun g => !dropped g) := by
  have hsound := h.log.sound
  refine ⟨fun f hf hfailed d hd hsource => hsound.edge_of_hasFailed hf hfailed hd hsource, ?_⟩
  have hsub : (s.log.entries.filter fun g => !dropped g).Sublist s.log.entries :=
    List.filter_sublist
  obtain ⟨s', hrun⟩ := Session.exists_recordAll (s := .new c marker withHeader)
    (h.log.recordable hsub time)
  refine ⟨s', hrun, ?_⟩
  have hsound' := ((Reachable.new c marker withHeader).recordAll hrun).log.sound
  have hsame : s'.log.entries.map (fun f => (f.configuration, f.cell)) =
      (s.log.entries.filter fun g => !dropped g).map fun f => (f.configuration, f.cell) := by
    have := congrArg (List.map fun r : Recording => (r.configuration, r.cell))
      (recordings_of_recordAll hrun)
    simpa [Session.new, Log.empty, Function.comp_def, Entry.recording] using this
  obtain ⟨place, hplace, hmoves⟩ := hsound'.exists_movesTo hsound hsub hsame
  have hspares : s'.log.Spares s.log place dropped := ⟨hplace, hmoves, hdropped⟩
  refine ⟨place, hplace, (forall₂_and_mem hmoves).imp ?_⟩
  rintro e' e ⟨⟨he', he, hee⟩, -, hmem⟩
  have hkept : dropped e = false := by simpa using (List.mem_filter.mp hmem).2
  exact ⟨hee, hspares.map_moved_edgesOf hsound hsound' he' he hkept hee,
    hspares.map_extent_slices hsound hsound' he hkept hee⟩

/-- The second cell has failed. It reads what the first one writes, and would write what the last
one reads. -/
def failedUpdate : List Cell :=
  [.counted 1 "a = 1", { Cell.counted 2 "if a:\n    a = 2" with failed := .bool true },
    .counted 3 "print(a)"]

/-- Without the failed cell the last one has the same edges, at new positions, and the same slice. -/
theorem unchanged_without_failedUpdate : ∃ s : Session, s.Reachable ∧
    s.log.entries.map (fun f => f.cell.hasFailed) = [false, true, false] ∧
    (∀ f ∈ s.log.entries, f.cell.hasFailed = true → ∀ d ∈ s.log.graph.edges,
      d.source.1 = f.position → d.target.1 = f.position ∧ d.symbols = []) ∧
    ∃ s', (Session.new .empty "" false).recordAll
        ((s.log.entries.filter fun g => !g.cell.hasFailed).map Entry.recording) = .ok s' ∧
      ∃ place, StrictMono place ∧ List.Forall₂ (fun e' e => e'.MovesTo place e ∧
          (s'.log.edgesOf e').map (Edge.moved place) = s.log.edgesOf e ∧
          (s'.log.sliceEntry e').slices.map CellSlice.extent =
            (s.log.sliceEntry e).slices.map CellSlice.extent)
        s'.log.entries (s.log.entries.filter fun g => !g.cell.hasFailed) := by
  obtain ⟨s, h, hrun⟩ := Session.exists_of_postAll failedUpdate
    (p := fun log => log.entries.map (fun f => f.cell.hasFailed) = [false, true, false])
    (by decide +kernel)
  exact ⟨s, h, hrun, Session.unchanged_without_failed h (fun f => f.cell.hasFailed)
    (fun _ _ hfailed => hfailed) .empty "" false Entry.time⟩

end NotebookSlice
