import NotebookSlice.Proofs.Flow.Part
import NotebookSlice.Proofs.Log.Slices

/-! # Parts of a log

A part of a log has some of its entries, at new positions in the same order. If
the whole closure of an entry lies in the part, then it is its closure there: no
source of a statement is left out, and each round completes the same blocks.
-/

namespace NotebookSlice

open NotebookSlice.Flow

/-- The second entry has the cell and the statements of the first, at the position that `place`
gives. -/
structure Entry.MovesTo (place : ℕ → ℕ) (f g : Entry) : Prop where
  position : g.position = place f.position
  cell : g.cell = f.cell
  analysis : g.analysis = f.analysis

theorem Entry.MovesTo.statements {place : ℕ → ℕ} {f g : Entry} (h : f.MovesTo place g) :
    g.statements = f.statements :=
  congrArg Analysis.statements h.analysis

namespace Log

/-- Each entry of the part stands in the log, at the position that `place` gives. -/
structure PartOf (part log : Log) (place : ℕ → ℕ) : Prop where
  strictMono : StrictMono place
  mem : ∀ f ∈ part.entries, ∃ g ∈ log.entries, f.MovesTo place g

/-- All places are those of entries that the part has. -/
def Holds (part : Log) (place : ℕ → ℕ) (refs : List Ref) : Prop :=
  ∀ r ∈ refs, ∃ f ∈ part.entries, place f.position = r.1

/-- The second list has the moved places of the first. -/
def Moves (place : ℕ → ℕ) (refs' refs : List Ref) : Prop :=
  ∀ r, r ∈ refs ↔ ∃ v ∈ refs', moved place v = r

theorem Moves.mem_iff {place : ℕ → ℕ} {refs' refs : List Ref} (h : Moves place refs' refs)
    (hplace : StrictMono place) {v : Ref} : moved place v ∈ refs ↔ v ∈ refs' := by
  rw [h]
  constructor
  · rintro ⟨w, hw, heq⟩
    rwa [← moved_injective hplace heq]
  · exact fun hv => ⟨v, hv, rfl⟩

theorem has_history_iff {part : Log} {k : ℕ} :
    part.history.Has k ↔ ∃ f ∈ part.entries, f.position = k := by
  simp [Flow.History.Has, history, Entry.execution]

namespace PartOf

variable {part log : Log} {place : ℕ → ℕ} (hp : part.PartOf log place)
include hp

theorem history : part.history.PartOf log.history place where
  strictMono := hp.strictMono
  mem x hx := by
    obtain ⟨f, hf, rfl⟩ := List.mem_map.mp hx
    obtain ⟨g, hg, hfg⟩ := hp.mem f hf
    refine List.mem_map.mpr ⟨g, hg, ?_⟩
    simp only [Entry.execution, hfg.position, hfg.statements, hfg.cell]

theorem has_of_holds {refs : List Ref} (hrefs : part.Holds place refs) {v : Ref}
    (hv : moved place v ∈ refs) : part.history.Has v.1 := by
  obtain ⟨f, hf, hpos⟩ := hrefs _ hv
  exact has_history_iff.mpr ⟨f, hf, hp.strictMono.injective hpos⟩

variable (h : log.Sound) (hpart : part.Sound)
include h hpart

theorem statement?_moved {v : Ref} (hv : part.history.Has v.1) :
    log.statement? (moved place v) = part.statement? v := by
  obtain ⟨f, hf, hpos⟩ := has_history_iff.mp hv
  obtain ⟨g, hg, hfg⟩ := hp.mem f hf
  have hg' := h.getElem?_position hg
  have hf' := hpart.getElem?_position hf
  rw [hfg.position, hpos] at hg'
  rw [hpos] at hf'
  simp only [statement?, moved, hg', hf', Option.bind_some, hfg.statements]

theorem mem_nodes_moved_iff {v : Ref} (hv : part.history.Has v.1) :
    moved place v ∈ log.graph.nodes ↔ v ∈ part.graph.nodes := by
  rw [h.mem_nodes, hpart.mem_nodes, hp.statement?_moved h hpart hv]

/-! ## Paths -/

variable {all : List Ref} (hclosed : log.graph.SourceClosed all) (hall : part.Holds place all)
include hclosed hall

theorem feeds_moved_iff {u v : Ref} (hv : moved place v ∈ all) :
    log.graph.Feeds u (moved place v) ↔ ∃ w, moved place w = u ∧ part.graph.Feeds w v := by
  have hreason (r : Reason) : HasReason log.graph.edges u (moved place v) r ↔
      ∃ w, moved place w = u ∧ HasReason part.graph.edges w v r := by
    rw [h.graph_eq, hpart.graph_eq]
    refine hp.history.hasReason_moved_iff h.ordered hpart.ordered (hp.has_of_holds hall hv) ?_
    intro w hw
    rw [← h.graph_eq] at hw
    obtain ⟨f, hf, hpos⟩ := hall w (hclosed w _ hw hv)
    exact ⟨f.position, has_history_iff.mpr ⟨f, hf, rfl⟩, hpos⟩
  constructor
  · intro hfeeds
    obtain ⟨r, hr⟩ := hfeeds.exists_hasReason h.wellFormed
    obtain ⟨w, hw, hr⟩ := (hreason r).mp hr
    exact ⟨w, hw, .of_hasReason hr⟩
  · rintro ⟨w, hw, hfeeds⟩
    obtain ⟨r, hr⟩ := hfeeds.exists_hasReason hpart.wellFormed
    exact .of_hasReason ((hreason r).mpr ⟨w, hw, hr⟩)

theorem path_moved_iff {u v : Ref} (hv : moved place v ∈ all) :
    Relation.ReflTransGen log.graph.Feeds u (moved place v) ↔
      ∃ w, moved place w = u ∧ Relation.ReflTransGen part.graph.Feeds w v := by
  constructor
  · intro hpath
    induction hpath using Relation.ReflTransGen.head_induction_on with
    | refl => exact ⟨v, rfl, .refl⟩
    | head hfeeds hpath ih =>
      obtain ⟨w, rfl, hw⟩ := ih
      have hmem := hclosed.mem_of_path hpath hv
      obtain ⟨w', hw', hfeeds'⟩ := (hp.feeds_moved_iff h hpart hclosed hall hmem).mp hfeeds
      exact ⟨w', hw', .head hfeeds' hw⟩
  · rintro ⟨w, rfl, hpath⟩
    induction hpath using Relation.ReflTransGen.head_induction_on with
    | refl => exact .refl
    | head hfeeds _ ih =>
      have hmem := hclosed.mem_of_path ih hv
      exact .head ((hp.feeds_moved_iff h hpart hclosed hall hmem).mpr ⟨_, rfl, hfeeds⟩) ih

theorem moves_dependencies {refs' refs : List Ref} (hmoves : Moves place refs' refs)
    (hsub : refs ⊆ all) :
    Moves place (part.graph.dependencies refs') (log.graph.dependencies refs) := by
  intro r
  simp only [Graph.mem_dependencies_iff h.wellFormed, Graph.mem_dependencies_iff hpart.wellFormed]
  constructor
  · rintro ⟨v, hv, hnode, hpath⟩
    have hmem := hsub hv
    obtain ⟨v', hv', rfl⟩ := (hmoves v).mp hv
    obtain ⟨w, hw, hpath⟩ := (hp.path_moved_iff h hpart hclosed hall hmem).mp hpath
    have hnode := (hp.mem_nodes_moved_iff h hpart (hp.has_of_holds hall hmem)).mp hnode
    exact ⟨w, ⟨v', hv', hnode, hpath⟩, hw⟩
  · rintro ⟨w, ⟨v', hv', hnode, hpath⟩, hw⟩
    have hv := (hmoves _).mpr ⟨v', hv', rfl⟩
    exact ⟨_, hv, (hp.mem_nodes_moved_iff h hpart (hp.has_of_holds hall (hsub hv))).mpr hnode,
      (hp.path_moved_iff h hpart hclosed hall (hsub hv)).mpr ⟨w, hw, hpath⟩⟩

/-! ## Rounds -/

variable {included' included : List Ref} (hmoves : Moves place included' included)
include hmoves

omit hclosed in
theorem moves_missing (hsub : included ⊆ all) :
    Moves place (part.missing included') (log.missing included) := by
  intro r
  simp only [mem_missing]
  have hno (v : Ref) (i : ℕ) : (place v.1, i) ∉ included ↔ (v.1, i) ∉ included' :=
    (hmoves.mem_iff hp.strictMono (v := (v.1, i))).not
  constructor
  · rintro ⟨ref, href, s, hs, hbody, i, hi, rfl⟩
    have hmem := hsub href
    obtain ⟨v, hv, rfl⟩ := (hmoves ref).mp href
    rw [hp.statement?_moved h hpart (hp.has_of_holds hall hmem)] at hs
    exact ⟨(v.1, i), ⟨v, hv, s, hs, fun j hj => (hno v j).mp (hbody j hj), i, hi, rfl⟩, rfl⟩
  · rintro ⟨q, ⟨v, hv, s, hs, hbody, i, hi, rfl⟩, rfl⟩
    have href := (hmoves _).mpr ⟨v, hv, rfl⟩
    rw [← hp.statement?_moved h hpart (hp.has_of_holds hall (hsub href))] at hs
    exact ⟨_, href, s, hs, fun j hj => (hno v j).mpr (hbody j hj), i, hi, rfl⟩

theorem moves_extend (hsub : log.extend included ⊆ all) :
    Moves place (part.extend included') (log.extend included) := by
  have hincluded : included ⊆ all := fun r hr => hsub (mem_extend.mpr (Or.inl hr))
  have hdependencies := hp.moves_dependencies h hpart hclosed hall
    (hp.moves_missing h hpart hall hmoves hincluded)
    (List.Subset.trans h.missing_subset_extend hsub)
  intro r
  rw [mem_extend, hmoves r, hdependencies r]
  simp only [mem_extend, or_and_right, exists_or]

theorem exists_completes (hrounds : log.Completes included all) :
    ∃ all', part.Completes included' all' ∧ Moves place all' all := by
  induction hrounds generalizing included' with
  | @done included hm =>
    refine ⟨included', .done (List.eq_nil_iff_forall_not_mem.mpr fun r hr => ?_), hmoves⟩
    have := (hp.moves_missing h hpart hall hmoves (List.Subset.refl _) _).mpr ⟨r, hr, rfl⟩
    simp [hm] at this
  | @round included all hm hrest ih =>
    have hextend := hp.moves_extend h hpart hclosed hall hmoves hrest.subset
    obtain ⟨all', hrest', hall'⟩ := ih hclosed hall hextend
    refine ⟨all', .round (fun hnone => hm ?_) hrest', hall'⟩
    refine List.eq_nil_iff_forall_not_mem.mpr fun r hr => ?_
    have hincluded : included ⊆ all := fun r hr => hrest.subset (mem_extend.mpr (Or.inl hr))
    obtain ⟨q, hq, -⟩ := (hp.moves_missing h hpart hall hmoves hincluded _).mp hr
    simp [hnone] at hq

omit hmoves

/-! ## Closures and slices -/

omit hclosed hall in
theorem moves_closure {e' e : Entry} (he : e ∈ log.entries) (hee : e'.MovesTo place e)
    (hholds : part.Holds place (log.closure e)) :
    Moves place (part.closure e') (log.closure e) := by
  have hrefs : Moves place e'.refs e.refs := by
    intro r
    simp only [Entry.refs, hee.statements, hee.position, List.mem_map]
    constructor
    · rintro ⟨s, hs, rfl⟩
      exact ⟨(e'.position, s.index), ⟨s, hs, rfl⟩, rfl⟩
    · rintro ⟨v, ⟨s, hs, rfl⟩, rfl⟩
      exact ⟨s, hs, rfl⟩
  have hclosed := h.sourceClosed_closure (e := e)
  have hdependencies := hp.moves_dependencies h hpart hclosed hholds hrefs
    (h.refs_subset_closure he)
  obtain ⟨all', hrounds, hmoves⟩ :=
    hp.exists_completes h hpart hclosed hholds hdependencies h.completes_closure
  rwa [hpart.completes_closure.unique hrounds]

omit hclosed hall in
theorem cellSlice?_eq {included' included : List Ref} (hmoves : Moves place included' included)
    {f g : Entry} (hf : f ∈ part.entries) (hg : g ∈ log.entries) (hfg : f.MovesTo place g) :
    log.cellSlice? included g =
      (part.cellSlice? included' f).map fun s => { s with time := g.time } := by
  have hmem (r : LineRange) : r ∈ log.rangesIn included g ↔ r ∈ part.rangesIn included' f := by
    rw [h.mem_rangesIn hg, hpart.mem_rangesIn hf, hfg.statements, hfg.position]
    refine exists_congr fun s => and_congr_right fun _ => and_congr_left fun _ => ?_
    exact hmoves.mem_iff hp.strictMono (v := (f.position, s.index))
  have hnil : log.rangesIn included g ≠ [] ↔ part.rangesIn included' f ≠ [] := by
    simp only [ne_eq, List.eq_nil_iff_forall_not_mem, hmem]
  have hnormal : LineRange.normalize (log.rangesIn included g) =
      LineRange.normalize (part.rangesIn included' f) :=
    LineRange.normalize_eq_of_covers (h.first_le_last_of_mem_rangesIn hg)
      (hpart.first_le_last_of_mem_rangesIn hf) fun n => by simp only [LineRange.Covers, hmem]
  refine Option.ext fun s => ?_
  simp only [Option.map_eq_some_iff, cellSlice?_eq_some_iff, CellSlice.ofRanges, hnil, hnormal,
    hfg.cell]
  constructor
  · rintro ⟨hsome, rfl⟩
    exact ⟨_, ⟨hsome, rfl⟩, rfl⟩
  · rintro ⟨t, ⟨hsome, rfl⟩, rfl⟩
    exact ⟨hsome, rfl⟩

end PartOf

end Log

end NotebookSlice
