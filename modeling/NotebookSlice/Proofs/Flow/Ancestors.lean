import NotebookSlice.Proofs.Flow.Reach

/-! # Dependencies by ancestors

Dependencies can be collected one reference after the other, each with all its
ancestors. A reference that was found before is passed over, which loses nothing:
what was found is always closed under ancestors. Neither the order of the executions
nor the shape of their parent links counts, so the graph may have cycles.
-/

namespace NotebookSlice.Flow.Graph

variable {g : Graph} {ancestors : Ref → List Ref} {refs refs' found : List Ref} {u v ref : Ref}

/-- A path leads from the statement to one of the given nodes. -/
def LeadsTo (g : Graph) (refs : List Ref) (u : Ref) : Prop :=
  ∃ v ∈ refs, v ∈ g.nodes ∧ Relation.ReflTransGen g.Feeds u v

/-- The function gives the other nodes with a path to a node. -/
def IsAncestors (g : Graph) (ancestors : Ref → List Ref) : Prop :=
  ∀ v ∈ g.nodes, ∀ u, u ∈ ancestors v ↔ u ≠ v ∧ Relation.ReflTransGen g.Feeds u v

/-- Adds a node and its ancestors, unless it was found before. -/
def collect (g : Graph) (ancestors : Ref → List Ref) (found : List Ref) (ref : Ref) : List Ref :=
  if found.contains ref || !g.nodes.contains ref then found else found ++ ref :: ancestors ref

def collectAll (g : Graph) (ancestors : Ref → List Ref) (refs : List Ref) : List Ref :=
  refs.foldl (g.collect ancestors) []

/-! ## Paths to references -/

theorem leadsTo_append : g.LeadsTo (refs ++ refs') u ↔ g.LeadsTo refs u ∨ g.LeadsTo refs' u := by
  simp only [LeadsTo, List.mem_append, or_and_right, exists_or]

theorem leadsTo_singleton :
    g.LeadsTo [ref] u ↔ ref ∈ g.nodes ∧ Relation.ReflTransGen g.Feeds u ref := by
  simp [LeadsTo]

theorem leadsTo_congr (h : ∀ v ∈ g.nodes, v ∈ refs ↔ v ∈ refs') :
    g.LeadsTo refs u ↔ g.LeadsTo refs' u := by
  unfold LeadsTo
  refine exists_congr fun v => ?_
  constructor
  · rintro ⟨hv, hnode, hpath⟩
    exact ⟨(h v hnode).mp hv, hnode, hpath⟩
  · rintro ⟨hv, hnode, hpath⟩
    exact ⟨(h v hnode).mpr hv, hnode, hpath⟩

theorem LeadsTo.of_path (hpath : Relation.ReflTransGen g.Feeds u v) (h : g.LeadsTo refs v) :
    g.LeadsTo refs u := by
  obtain ⟨w, hw, hnode, hrest⟩ := h
  exact ⟨w, hw, hnode, hpath.trans hrest⟩

/-! ## One reference after the other -/

/-- A reference that was found before has its ancestors there, so passing over it is right. -/
theorem mem_collect (hanc : g.IsAncestors ancestors) (hfound : ∀ u, u ∈ found ↔ g.LeadsTo refs u) :
    u ∈ g.collect ancestors found ref ↔ g.LeadsTo (refs ++ [ref]) u := by
  rw [leadsTo_append, leadsTo_singleton, collect, ← hfound]
  split
  · rename_i hskip
    have hskip : ref ∈ found ∨ ref ∉ g.nodes := by simpa using hskip
    refine ⟨Or.inl, fun h => h.elim id ?_⟩
    rintro ⟨hnode, hpath⟩
    have hmem : ref ∈ found := hskip.resolve_right fun hnot => hnot hnode
    exact (hfound u).mpr (((hfound ref).mp hmem).of_path hpath)
  · rename_i htake
    have hnode : ref ∈ g.nodes := by
      by_contra hnot
      exact htake (by simp [hnot])
    rw [List.mem_append, List.mem_cons, hanc ref hnode u]
    refine or_congr_right ?_
    constructor
    · rintro (rfl | ⟨-, hpath⟩)
      · exact ⟨hnode, .refl⟩
      · exact ⟨hnode, hpath⟩
    · rintro ⟨-, hpath⟩
      by_cases heq : u = ref
      · exact Or.inl heq
      · exact Or.inr ⟨heq, hpath⟩

theorem mem_collectAll (hanc : g.IsAncestors ancestors) (refs : List Ref) (u : Ref) :
    u ∈ g.collectAll ancestors refs ↔ g.LeadsTo refs u := by
  induction refs using List.reverseRecOn generalizing u with
  | nil => simp [collectAll, LeadsTo]
  | append_singleton refs ref ih =>
    rw [collectAll, List.foldl_append, List.foldl_cons, List.foldl_nil]
    exact mem_collect hanc ih

theorem isAncestors_dependencies (hwf : g.WellFormed) :
    g.IsAncestors fun v => (g.dependencies [v]).filter (· ≠ v) := by
  intro v hv u
  rw [List.mem_filter, mem_dependencies_iff hwf, decide_eq_true_iff]
  change g.LeadsTo [v] u ∧ _ ↔ _
  rw [leadsTo_singleton, and_iff_right hv, and_comm]

/-- The dependencies of some references are the statements with a path to one of them that is in
the graph. They are found as well by taking the ancestors of one reference after the other. So
references out of the graph do not count, nor do order and repetition, and the dependencies of more
references are put together from those of each part. -/
theorem dependencies_ofHistory (h : History) (refs : List Ref) :
    ((ofHistory h).dependencies refs).Nodup ∧
    (ofHistory h).dependencies refs ⊆ (ofHistory h).nodes ∧
    (∀ u, u ∈ (ofHistory h).dependencies refs ↔
      ∃ v ∈ refs, v ∈ (ofHistory h).nodes ∧ Relation.ReflTransGen (ofHistory h).Feeds u v) ∧
    (∀ ancestors, (ofHistory h).IsAncestors ancestors → ∀ u,
      u ∈ (ofHistory h).collectAll ancestors refs ↔ u ∈ (ofHistory h).dependencies refs) ∧
    (∀ u, u ∈ (ofHistory h).dependencies (refs.filter (ofHistory h).nodes.contains) ↔
      u ∈ (ofHistory h).dependencies refs) ∧
    (∀ refs', (∀ v, v ∈ refs ↔ v ∈ refs') → ∀ u,
      u ∈ (ofHistory h).dependencies refs ↔ u ∈ (ofHistory h).dependencies refs') ∧
    (∀ refs' u, u ∈ (ofHistory h).dependencies (refs ++ refs') ↔
      u ∈ (ofHistory h).dependencies refs ∨ u ∈ (ofHistory h).dependencies refs') ∧
    ∀ u, u ∈ (ofHistory h).dependencies ((ofHistory h).dependencies refs) ↔
      u ∈ (ofHistory h).dependencies refs := by
  have hwf : (ofHistory h).WellFormed := ofHistory_eq h ▸ wellFormed_ofSteps _
  generalize ofHistory h = g at hwf
  have hmem {refs : List Ref} {u : Ref} : u ∈ g.dependencies refs ↔ g.LeadsTo refs u :=
    mem_dependencies_iff hwf
  refine ⟨nodup_dependencies g refs, fun u => mem_nodes_of_mem_dependencies hwf,
    fun u => hmem, fun ancestors hanc u => (mem_collectAll hanc refs u).trans hmem.symm,
    fun u => ?_, fun refs' heq u => ?_, fun refs' u => ?_, fun u => ?_⟩
  · rw [hmem, hmem]
    exact leadsTo_congr fun v hv => by simp [hv]
  · rw [hmem, hmem]
    exact leadsTo_congr fun v _ => heq v
  · exact mem_dependencies_append hwf
  · constructor
    · intro hu
      obtain ⟨v, hv, -, hpath⟩ := hmem.mp hu
      exact (sourceClosed_dependencies hwf refs).mem_of_path hpath hv
    · intro hu
      exact mem_dependencies_of_mem hu (mem_nodes_of_mem_dependencies hwf hu)

/-- An execution whose first statement is its own parent and whose next two are the parent of each
other, and another one at the same position whose parent is not known. -/
def tangled : History :=
  [⟨0, [⟨0, .header, 1, 1, some 0, [], ["x"], []⟩, ⟨1, .header, 2, 2, some 2, ["x"], [], []⟩,
    ⟨2, .header, 3, 3, some 1, [], ["y"], []⟩], true⟩,
   ⟨0, [⟨3, .statement, 4, 4, some 7, ["y"], ["x"], []⟩], true⟩]

def tangledAncestors : Ref → List Ref
  | (0, 1) => [(0, 2), (0, 0)]
  | (0, 2) => [(0, 0), (0, 1)]
  | (0, 3) => [(0, 7), (0, 2), (0, 1), (0, 0)]
  | _ => []

theorem isAncestors_tangledAncestors : (ofHistory tangled).IsAncestors tangledAncestors := by
  have hwf : (ofHistory tangled).WellFormed := ofHistory_eq tangled ▸ wellFormed_ofSteps _
  have hsame : ∀ v ∈ (ofHistory tangled).nodes, tangledAncestors v ⊆
      ((ofHistory tangled).dependencies [v]).filter (· ≠ v) ∧
      ((ofHistory tangled).dependencies [v]).filter (· ≠ v) ⊆ tangledAncestors v := by
    decide +kernel
  intro v hv u
  rw [← isAncestors_dependencies hwf v hv u]
  exact ⟨fun hu => (hsame v hv).1 hu, fun hu => (hsame v hv).2 hu⟩

/-- In the tangled executions a reference twice, one on a cycle with it and one that is not in the
graph bring what the first reference brings. -/
theorem dependencies_tangled :
    (ofHistory tangled).IsAncestors tangledAncestors ∧
      ∀ u, u ∈ (ofHistory tangled).collectAll tangledAncestors [(0, 2), (5, 5), (0, 1), (0, 2)] ↔
        u ∈ (ofHistory tangled).dependencies [(0, 2), (5, 5), (0, 1), (0, 2)] :=
  ⟨isAncestors_tangledAncestors,
    (dependencies_ofHistory tangled [(0, 2), (5, 5), (0, 1), (0, 2)]).2.2.2.1
      tangledAncestors isAncestors_tangledAncestors⟩

end NotebookSlice.Flow.Graph
