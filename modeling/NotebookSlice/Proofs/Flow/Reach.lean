import Mathlib.Logic.Relation
import NotebookSlice.Proofs.Flow.Edges

/-! # Dependencies are the statements with a path

The search that computes dependencies finds a new statement in each round but the
last, so it ends with a set that is closed under sources. Hence its result is
exactly the set of statements from which a path leads to a given node.
-/

namespace NotebookSlice

theorem nodup_eraseDups {α : Type} [BEq α] [LawfulBEq α] (as : List α) : as.eraseDups.Nodup := by
  induction hlen : as.length using Nat.strongRecOn generalizing as with
  | ind n ih =>
    cases as with
    | nil => simp
    | cons a as =>
      rw [List.eraseDups_cons, List.nodup_cons]
      have hle := List.length_filter_le (fun b => !b == a) as
      rw [List.length_cons] at hlen
      exact ⟨by simp, ih _ (by omega) _ rfl⟩

namespace Flow.Graph

variable {g : Graph}

/-- The second statement depends on the first directly. -/
def Feeds (g : Graph) (u v : Ref) : Prop := ∃ e ∈ g.edges, e.source = u ∧ e.target = v

def SourceClosed (g : Graph) (refs : List Ref) : Prop :=
  ∀ u v, g.Feeds u v → v ∈ refs → u ∈ refs

theorem Feeds.of_hasReason {u v : Ref} {r : Reason} (h : HasReason g.edges u v r) :
    g.Feeds u v := by
  obtain ⟨e, he, hends, -⟩ := h
  exact ⟨e, he, (Prod.mk.inj hends).1, (Prod.mk.inj hends).2⟩

theorem Feeds.exists_hasReason (hwf : g.WellFormed) {u v : Ref} (h : g.Feeds u v) :
    ∃ r, HasReason g.edges u v r := by
  obtain ⟨e, he, rfl, rfl⟩ := h
  obtain ⟨r, hr⟩ := hwf.justified e he
  exact ⟨r, e, he, rfl, hr⟩

theorem SourceClosed.mem_of_path {refs : List Ref} (hc : g.SourceClosed refs) {u v : Ref}
    (h : Relation.ReflTransGen g.Feeds u v) (hv : v ∈ refs) : u ∈ refs := by
  induction h using Relation.ReflTransGen.head_induction_on with
  | refl => exact hv
  | head hstep _ ih => exact hc _ _ hstep ih

@[simp] theorem mem_sourcesOf {refs : List Ref} {u : Ref} :
    u ∈ g.sourcesOf refs ↔ ∃ v ∈ refs, g.Feeds u v := by
  simp only [sourcesOf, List.mem_map, List.mem_filter, List.contains_iff_mem, Feeds]
  constructor
  · rintro ⟨e, ⟨he, ht⟩, rfl⟩
    exact ⟨e.target, ht, e, he, rfl, rfl⟩
  · rintro ⟨v, hv, e, he, rfl, rfl⟩
    exact ⟨e, ⟨he, hv⟩, rfl⟩

/-! ## Rounds -/

def found (g : Graph) (fresh seen : List Ref) : List Ref :=
  ((g.sourcesOf fresh).filter fun r => !seen.contains r).eraseDups

theorem mem_found {fresh seen : List Ref} {u : Ref} :
    u ∈ g.found fresh seen ↔ (∃ v ∈ fresh, g.Feeds u v) ∧ u ∉ seen := by
  simp [found]

theorem reach_succ (g : Graph) (rounds : ℕ) (fresh seen : List Ref) :
    g.reach (rounds + 1) fresh seen =
      if (g.found fresh seen).isEmpty then seen
      else g.reach rounds (g.found fresh seen) (seen ++ g.found fresh seen) := rfl

theorem subset_reach (g : Graph) (rounds : ℕ) (fresh seen : List Ref) :
    seen ⊆ g.reach rounds fresh seen := by
  induction rounds generalizing fresh seen with
  | zero => exact fun _ h => h
  | succ rounds ih =>
    rw [reach_succ]
    split
    · exact fun _ h => h
    · exact fun _ h => ih _ _ (List.mem_append_left _ h)

theorem path_of_mem_reach {rounds : ℕ} {fresh seen : List Ref} (hsub : fresh ⊆ seen) {u : Ref}
    (h : u ∈ g.reach rounds fresh seen) : ∃ v ∈ seen, Relation.ReflTransGen g.Feeds u v := by
  induction rounds generalizing fresh seen with
  | zero => exact ⟨u, h, .refl⟩
  | succ rounds ih =>
    rw [reach_succ] at h
    split at h
    · exact ⟨u, h, .refl⟩
    · obtain ⟨v, hv, hpath⟩ := ih (List.subset_append_right _ _) h
      rcases List.mem_append.mp hv with hv | hv
      · exact ⟨v, hv, hpath⟩
      · obtain ⟨⟨w, hw, hstep⟩, -⟩ := mem_found.mp hv
        exact ⟨w, hsub hw, hpath.tail hstep⟩

/-- No round adds a statement that was seen before, so none is found twice. -/
theorem nodup_reach (g : Graph) (rounds : ℕ) (fresh : List Ref) {seen : List Ref} (h : seen.Nodup) :
    (g.reach rounds fresh seen).Nodup := by
  induction rounds generalizing fresh seen with
  | zero => exact h
  | succ rounds ih =>
    rw [reach_succ]
    split
    · exact h
    · refine ih _ (List.nodup_append.mpr ⟨h, nodup_eraseDups _, ?_⟩)
      rintro u hu v hv rfl
      exact (mem_found.mp hv).2 hu

def unseen (g : Graph) (seen : List Ref) : List Ref := g.nodes.filter fun r => !seen.contains r

@[simp] theorem mem_unseen {seen : List Ref} {u : Ref} :
    u ∈ g.unseen seen ↔ u ∈ g.nodes ∧ u ∉ seen := by
  simp [unseen]

theorem length_unseen_lt (hwf : g.WellFormed) {fresh seen : List Ref}
    (h : g.found fresh seen ≠ []) :
    (g.unseen (seen ++ g.found fresh seen)).length < (g.unseen seen).length := by
  obtain ⟨u, hu⟩ := List.exists_mem_of_ne_nil _ h
  obtain ⟨⟨v, -, e, he, rfl, -⟩, hns⟩ := mem_found.mp hu
  have hsplit : g.unseen (seen ++ g.found fresh seen) =
      (g.unseen seen).filter fun r => !(g.found fresh seen).contains r := by
    simp [unseen, List.filter_filter, Bool.and_comm]
  rw [hsplit, List.length_filter_lt_length_iff_exists]
  exact ⟨e.source, mem_unseen.mpr ⟨hwf.source_mem e he, hns⟩, by simpa using hu⟩

/-- Rounds that suffice for the unseen nodes lead to a closed set, if all that is not fresh has
been followed before. -/
theorem sourceClosed_reach (hwf : g.WellFormed) {rounds : ℕ} {fresh seen : List Ref}
    (hrounds : (g.unseen seen).length ≤ rounds)
    (hdone : ∀ u v, g.Feeds u v → v ∈ seen → v ∈ fresh ∨ u ∈ seen) :
    g.SourceClosed (g.reach rounds fresh seen) := by
  induction rounds generalizing fresh seen with
  | zero =>
    have hall : g.unseen seen = [] := List.eq_nil_of_length_eq_zero (Nat.le_zero.mp hrounds)
    rintro u v ⟨e, he, rfl, rfl⟩ -
    by_contra hns
    have hmem : e.source ∈ g.unseen seen := mem_unseen.mpr ⟨hwf.source_mem e he, hns⟩
    simp [hall] at hmem
  | succ rounds ih =>
    rw [reach_succ]
    split
    · rename_i hnone
      rw [List.isEmpty_iff] at hnone
      intro u v hstep hv
      rcases hdone u v hstep hv with hf | hu
      · by_contra hns
        have hmem : u ∈ g.found fresh seen := mem_found.mpr ⟨⟨v, hf, hstep⟩, hns⟩
        simp [hnone] at hmem
      · exact hu
    · rename_i hsome
      rw [List.isEmpty_iff] at hsome
      refine ih (by have := length_unseen_lt hwf hsome; omega) fun u v hstep hv => ?_
      rcases List.mem_append.mp hv with hv | hv
      · refine Or.inr (List.mem_append.mpr ?_)
        rcases hdone u v hstep hv with hf | hu
        · by_cases hns : u ∈ seen
          · exact Or.inl hns
          · exact Or.inr (mem_found.mpr ⟨⟨v, hf, hstep⟩, hns⟩)
        · exact Or.inl hu
      · exact Or.inl hv

/-! ## Dependencies -/

theorem mem_seeds {refs : List Ref} {u : Ref} :
    u ∈ (refs.filter fun r => g.nodes.contains r).eraseDups ↔ u ∈ refs ∧ u ∈ g.nodes := by
  simp

theorem sourceClosed_dependencies (hwf : g.WellFormed) (refs : List Ref) :
    g.SourceClosed (g.dependencies refs) :=
  sourceClosed_reach hwf (List.length_filter_le _ _) fun _ _ _ hv => Or.inl hv

theorem nodup_dependencies (g : Graph) (refs : List Ref) : (g.dependencies refs).Nodup :=
  nodup_reach g _ _ (nodup_eraseDups _)

theorem mem_dependencies_of_mem {refs : List Ref} {u : Ref} (h : u ∈ refs) (hn : u ∈ g.nodes) :
    u ∈ g.dependencies refs :=
  subset_reach _ _ _ _ (mem_seeds.mpr ⟨h, hn⟩)

/-- The dependencies of some statements are the statements with a path to one of them. -/
theorem mem_dependencies_iff (hwf : g.WellFormed) {refs : List Ref} {u : Ref} :
    u ∈ g.dependencies refs ↔
      ∃ v ∈ refs, v ∈ g.nodes ∧ Relation.ReflTransGen g.Feeds u v := by
  constructor
  · intro h
    obtain ⟨v, hv, hpath⟩ := path_of_mem_reach (fun _ hm => hm) h
    obtain ⟨hv, hn⟩ := mem_seeds.mp hv
    exact ⟨v, hv, hn, hpath⟩
  · rintro ⟨v, hv, hn, hpath⟩
    exact (sourceClosed_dependencies hwf refs).mem_of_path hpath (mem_dependencies_of_mem hv hn)

theorem mem_dependencies_append (hwf : g.WellFormed) {refs refs' : List Ref} {u : Ref} :
    u ∈ g.dependencies (refs ++ refs') ↔ u ∈ g.dependencies refs ∨ u ∈ g.dependencies refs' := by
  simp only [mem_dependencies_iff hwf, List.mem_append, or_and_right, exists_or]

theorem mem_nodes_of_mem_dependencies (hwf : g.WellFormed) {refs : List Ref} {u : Ref}
    (h : u ∈ g.dependencies refs) : u ∈ g.nodes := by
  obtain ⟨v, -, hn, hpath⟩ := (mem_dependencies_iff hwf).mp h
  rcases hpath.cases_head with rfl | ⟨w, ⟨e, he, rfl, -⟩, -⟩
  · exact hn
  · exact hwf.source_mem e he

end Flow.Graph

end NotebookSlice
