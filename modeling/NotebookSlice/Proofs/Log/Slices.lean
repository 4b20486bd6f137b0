import NotebookSlice.Proofs.Log.Content
import NotebookSlice.Proofs.Slice.NormalRanges

/-! # The slices of an entry

Each entry of which a statement is needed has a slice. As the counts of a log
grow, the slices stand in the order of the entries. The last of them is the one of
the entry itself, because dependencies come first.
-/

namespace NotebookSlice

open NotebookSlice.Flow

theorem Value.rank_of_integer? {v : Value} {n : ℤ} (h : v.integer? = some n) :
    v.rank = .number n := by
  cases v <;> simp only [integer?, reduceCtorEq, Option.some.injEq] at h
  · subst h
    rw [rank]
    split <;> rfl
  · subst h
    rfl

def Cell.CountedBefore (a b : Cell) : Prop :=
  ∃ m n, a.count.integer? = some m ∧ b.count.integer? = some n ∧ m < n

theorem SlicedExecution.countLE_of_countedBefore {a b : CellSlice}
    (h : a.cell.CountedBefore b.cell) : countLE a b = true := by
  obtain ⟨m, n, hm, hn, hlt⟩ := h
  rw [countLE, Value.rank_of_integer? hm, Value.rank_of_integer? hn]
  exact decide_eq_true (by exact_mod_cast hlt.le)

namespace Log

variable {log : Log} {included : List Ref} {e f : Entry} {s : CellSlice}

theorem cell_of_cellSlice? (h : log.cellSlice? included f = some s) : s.cell = f.cell := by
  obtain ⟨-, rfl⟩ := cellSlice?_eq_some_iff.mp h
  rfl

def contributors (log : Log) (e : Entry) : List Entry :=
  log.entries.filter fun f => (log.cellSlice? (log.closure e) f).isSome

namespace Sound

variable (h : log.Sound)
include h

theorem isSome_cellSlice?_iff (hf : f ∈ log.entries) : (log.cellSlice? included f).isSome ↔
    ∃ w ∈ f.statements, (f.position, w.index) ∈ included := by
  have hranges : (log.cellSlice? included f).isSome ↔ log.rangesIn included f ≠ [] := by
    simp only [Option.isSome_iff_exists, cellSlice?_eq_some_iff, exists_and_left, exists_eq,
      and_true]
  rw [hranges, List.ne_nil_iff_exists_cons]
  constructor
  · rintro ⟨r, rs, heq⟩
    obtain ⟨w, hw, hmem, -⟩ := (h.mem_rangesIn hf).mp (heq ▸ List.mem_cons_self)
    exact ⟨w, hw, hmem⟩
  · rintro ⟨w, hw, hmem⟩
    exact List.ne_nil_iff_exists_cons.mp
      (List.ne_nil_of_mem ((h.mem_rangesIn hf).mpr ⟨w, hw, hmem, rfl⟩))

theorem first_le_last_of_mem_rangesIn (hf : f ∈ log.entries) :
    ∀ r ∈ log.rangesIn included f, r.first ≤ r.last := by
  intro r hr
  obtain ⟨w, hw, -, rfl⟩ := (h.mem_rangesIn hf).mp hr
  exact Int.ofNat_le.mpr (h.proper hf w hw).first_le_last

theorem mem_contributors_iff : f ∈ log.contributors e ↔
    f ∈ log.entries ∧ ∃ w ∈ f.statements, log.Needs e f w := by
  rw [contributors, List.mem_filter]
  exact and_congr_right fun hf => h.isSome_cellSlice?_iff hf

theorem exists_contributor {r : Ref} (hr : r ∈ log.closure e) :
    ∃ f ∈ log.contributors e, f.position = r.1 := by
  obtain ⟨w, hw⟩ := h.mem_nodes.mp (h.closure_subset_nodes hr)
  obtain ⟨f, hf, hmem, rfl⟩ := h.statement?_eq_some_iff.mp hw
  exact ⟨f, h.mem_contributors_iff.mpr ⟨hf, w, hmem, hr⟩, rfl⟩

theorem slices_eq :
    (log.sliceEntry e).slices = log.entries.filterMap (log.cellSlice? (log.closure e)) := by
  refine List.mergeSort_of_pairwise (h.increasing.filterMap _ ?_)
  intro f g hlt s hs t ht
  refine SlicedExecution.countLE_of_countedBefore ?_
  rw [cell_of_cellSlice? hs, cell_of_cellSlice? ht]
  exact hlt

theorem slices_eq_contributors :
    (log.sliceEntry e).slices =
      (log.contributors e).filterMap (log.cellSlice? (log.closure e)) := by
  rw [h.slices_eq, contributors, List.filterMap_filter]
  refine List.filterMap_congr fun f _ => ?_
  cases log.cellSlice? (log.closure e) f <;> rfl

theorem map_cell_slices :
    (log.sliceEntry e).slices.map CellSlice.cell = (log.contributors e).map Entry.cell := by
  rw [h.slices_eq_contributors, List.map_filterMap, ← List.filterMap_eq_map]
  refine List.filterMap_congr fun f hf => ?_
  obtain ⟨s, hs⟩ := Option.isSome_iff_exists.mp (List.mem_filter.mp hf).2
  simp only [hs, Option.map_some, Function.comp_apply, cell_of_cellSlice? hs]

/-! ## Dependencies come first -/

theorem before_of_feeds {u v : Ref} (hfeeds : log.graph.Feeds u v) : Before u v := by
  obtain ⟨r, hr⟩ := hfeeds.exists_hasReason h.wellFormed
  rw [h.graph_eq] at hr
  cases r with
  | reads name => exact ((hasReason_reads_iff h.ordered).mp hr).2.2.1
  | governed =>
    obtain ⟨x, hx, s, hs, rfl, p, hp, rfl⟩ := hasReason_governed_iff.mp hr
    obtain ⟨g, hg, rfl⟩ := List.mem_map.mp hx
    obtain ⟨roots, hforest⟩ := h.forest hg
    rcases hforest.parent_lt s hs with ⟨hnone, -⟩ | ⟨q, hq, -, hlt⟩
    · rw [hp] at hnone
      cases hnone
    · obtain rfl := Option.some.inj (hp.symm.trans hq)
      exact Or.inr ⟨rfl, hlt⟩

theorem position_le_of_path {u v : Ref} (hpath : Relation.ReflTransGen log.graph.Feeds u v) :
    u.1 ≤ v.1 := by
  induction hpath with
  | refl => exact Nat.le_refl _
  | tail _ hfeeds ih =>
    have := h.before_of_feeds hfeeds
    unfold Before at this
    omega

theorem position_le_of_mem_dependencies {refs : List Ref} {k : ℕ} (hrefs : ∀ v ∈ refs, v.1 ≤ k) :
    ∀ u ∈ log.graph.dependencies refs, u.1 ≤ k := by
  intro u hu
  obtain ⟨v, hv, -, hpath⟩ := (Graph.mem_dependencies_iff h.wellFormed).mp hu
  exact Nat.le_trans (h.position_le_of_path hpath) (hrefs v hv)

/-- No later statement is needed. A block stands in the cell of its header. -/
theorem position_le_of_mem_closure : ∀ u ∈ log.closure e, u.1 ≤ e.position := by
  refine complete_induction (P := fun all => ∀ u ∈ all, u.1 ≤ e.position) ?_
    (h.position_le_of_mem_dependencies fun v hv => ?_) _
  · intro included hle _ u hu
    refine (mem_extend.mp hu).elim (hle u) (h.position_le_of_mem_dependencies ?_ u)
    intro v hv
    obtain ⟨ref, href, -, -, -, i, -, rfl⟩ := mem_missing.mp hv
    exact hle ref href
  · obtain ⟨s, -, rfl⟩ := List.mem_map.mp hv
    exact Nat.le_refl _

theorem position_lt : log.entries.Pairwise fun f g => f.position < g.position := by
  have hlt := h.ordered.positions
  rwa [history, List.pairwise_map] at hlt

theorem getLast?_contributors (he : e ∈ log.entries) (hsome : e.statements ≠ []) :
    (log.contributors e).getLast? = some e := by
  obtain ⟨w, hw⟩ := List.exists_mem_of_ne_nil _ hsome
  have hmem : e ∈ log.contributors e := h.mem_contributors_iff.mpr
    ⟨he, w, hw, h.refs_subset_closure he (List.mem_map_of_mem hw)⟩
  obtain ⟨init, last, heq⟩ := (List.eq_nil_or_concat _).resolve_left (List.ne_nil_of_mem hmem)
  rw [List.concat_eq_append] at heq
  have hlast : last ∈ log.contributors e := by simp [heq]
  have hlt : (log.contributors e).Pairwise fun f g => f.position < g.position :=
    h.position_lt.sublist List.filter_sublist
  rw [heq, List.pairwise_append] at hlt
  rw [heq, List.mem_append, List.mem_singleton] at hmem
  rcases hmem with hmem | rfl
  · obtain ⟨-, v, -, hneeds⟩ := h.mem_contributors_iff.mp hlast
    have hle := h.position_le_of_mem_closure _ hneeds
    have := hlt.2.2 e hmem last (List.mem_singleton_self _)
    simp only at hle
    omega
  · rw [heq, List.getLast?_append, List.getLast?_singleton, Option.some_or]

end Sound

end Log

end NotebookSlice
