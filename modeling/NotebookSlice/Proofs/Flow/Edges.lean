import NotebookSlice.Proofs.Flow.History

/-! # Edges and their reasons

What each operation on a graph does to the reasons on its edges and to the last
writers. The graph of a sequence of steps has one reason for each read of a name
that was written before, and one for each parent.
-/

namespace NotebookSlice.Flow

def Edge.Has (e : Edge) : Reason → Prop
  | .reads name => name ∈ e.symbols
  | .governed => e.control = true

def Edge.ends (e : Edge) : Ref × Ref := (e.source, e.target)

/-- Some edge between the two statements has the reason. -/
def HasReason (es : List Edge) (u v : Ref) (r : Reason) : Prop :=
  ∃ e ∈ es, e.ends = (u, v) ∧ e.Has r

@[simp] theorem Edge.has_add (e : Edge) (r q : Reason) : (e.add r).Has q ↔ q = r ∨ e.Has q := by
  cases r <;> cases q <;> simp [Edge.add, Edge.Has]

@[simp] theorem Edge.ends_add (e : Edge) (r : Reason) : (e.add r).ends = e.ends := by
  cases r <;> rfl

@[simp] theorem Edge.isBetween_iff (e : Edge) (u v : Ref) :
    e.isBetween u v = true ↔ e.ends = (u, v) := by
  simp [Edge.isBetween, Edge.ends]

theorem Edge.not_has_blank (u v : Ref) (r : Reason) : ¬ Edge.Has ⟨u, v, [], false⟩ r := by
  cases r <;> simp [Edge.Has]

/-- Why the step depends on `u`, when the last writers of its names are given. -/
def Step.DependsFor (t : Step) (writer? : String → Option Ref) (u : Ref) : Reason → Prop
  | .reads name => name ∈ t.statement.reads ∧ writer? name = some u ∧ u ≠ t.ref
  | .governed => ∃ p, t.statement.parent = some p ∧ u = (t.position, p)

namespace Graph

variable {es : List Edge} {g : Graph}

theorem hasReason_addReason {u v u' v' : Ref} {r q : Reason} :
    HasReason (addReason u v r es) u' v' q ↔
      HasReason es u' v' q ∨ (u' = u ∧ v' = v ∧ q = r) := by
  induction es with
  | nil =>
    simp only [addReason, HasReason, List.mem_singleton, exists_eq_left, Edge.ends_add,
      Edge.has_add, Edge.not_has_blank, List.not_mem_nil, false_and, exists_false]
    simp [Edge.ends, eq_comm, and_assoc]
  | cons e es ih =>
    have hcons (e : Edge) (es : List Edge) : HasReason (e :: es) u' v' q ↔
        (e.ends = (u', v') ∧ e.Has q) ∨ HasReason es u' v' q := by
      simp [HasReason]
    rw [addReason]
    split
    · rename_i he
      rw [Edge.isBetween_iff] at he
      rw [hcons, hcons, Edge.ends_add, Edge.has_add, he, Prod.mk.injEq]
      constructor
      · rintro (⟨⟨rfl, rfl⟩, rfl | h⟩ | h)
        · exact Or.inr ⟨rfl, rfl, rfl⟩
        · exact Or.inl (Or.inl ⟨⟨rfl, rfl⟩, h⟩)
        · exact Or.inl (Or.inr h)
      · rintro ((⟨he, h⟩ | h) | ⟨rfl, rfl, rfl⟩)
        · exact Or.inl ⟨he, Or.inr h⟩
        · exact Or.inr h
        · exact Or.inl ⟨⟨rfl, rfl⟩, Or.inl rfl⟩
    · rw [hcons, hcons, ih, or_assoc]

/-- A reason goes to the edge that is there, or to a new one after all others. -/
theorem ends_addReason (u v : Ref) (r : Reason) (es : List Edge) :
    (addReason u v r es).map Edge.ends =
      if (u, v) ∈ es.map Edge.ends then es.map Edge.ends else es.map Edge.ends ++ [(u, v)] := by
  induction es with
  | nil => cases r <;> rfl
  | cons e es ih =>
    rw [addReason]
    split
    · rename_i he
      rw [Edge.isBetween_iff] at he
      simp [he]
    · rename_i he
      rw [Edge.isBetween_iff] at he
      have hne : (u, v) ≠ e.ends := fun h => he h.symm
      rw [List.map_cons, List.map_cons, ih]
      simp only [List.mem_cons, hne, false_or]
      split <;> simp

theorem addReason_justified {u v : Ref} {r : Reason} (h : ∀ e ∈ es, ∃ q, e.Has q) :
    ∀ e ∈ addReason u v r es, ∃ q, e.Has q := by
  induction es with
  | nil =>
    simp only [addReason, List.mem_singleton, forall_eq]
    exact ⟨r, (Edge.has_add ..).mpr (Or.inl rfl)⟩
  | cons d es ih =>
    obtain ⟨hd, hes⟩ := List.forall_mem_cons.mp h
    rw [addReason]
    split
    · exact List.forall_mem_cons.mpr ⟨⟨r, (Edge.has_add ..).mpr (Or.inl rfl)⟩, hes⟩
    · exact List.forall_mem_cons.mpr ⟨hd, ih hes⟩

/-! ## Well-formed graphs -/

/-- Edges join nodes, no two of them the same ones, and each has a reason. -/
structure WellFormed (g : Graph) : Prop where
  source_mem : ∀ e ∈ g.edges, e.source ∈ g.nodes
  target_mem : ∀ e ∈ g.edges, e.target ∈ g.nodes
  simple : (g.edges.map Edge.ends).Nodup
  justified : ∀ e ∈ g.edges, ∃ r, e.Has r

@[simp] theorem mem_nodes_addNode {ref u : Ref} :
    u ∈ (g.addNode ref).nodes ↔ u ∈ g.nodes ∨ u = ref := by
  unfold addNode
  split
  · rename_i h
    rw [List.contains_iff_mem] at h
    exact ⟨Or.inl, fun hu => hu.elim id (· ▸ h)⟩
  · simp

@[simp] theorem edges_addNode (ref : Ref) : (g.addNode ref).edges = g.edges := by
  unfold addNode; split <;> rfl

@[simp] theorem writers_addNode (ref : Ref) : (g.addNode ref).writers = g.writers := by
  unfold addNode; split <;> rfl

@[simp] theorem edges_link (u v : Ref) (r : Reason) :
    (g.link u v r).edges = addReason u v r g.edges := by
  simp [link]

@[simp] theorem writers_link (u v : Ref) (r : Reason) : (g.link u v r).writers = g.writers := by
  simp [link]

@[simp] theorem mem_nodes_link {u v w : Ref} {r : Reason} :
    w ∈ (g.link u v r).nodes ↔ w ∈ g.nodes ∨ w = u ∨ w = v := by
  simp [link, or_assoc]

namespace WellFormed

theorem empty : WellFormed .empty := by
  constructor <;> simp [Graph.empty]

theorem addNode (h : g.WellFormed) (ref : Ref) : (g.addNode ref).WellFormed where
  source_mem e he := by
    rw [edges_addNode] at he
    exact mem_nodes_addNode.mpr (Or.inl (h.source_mem e he))
  target_mem e he := by
    rw [edges_addNode] at he
    exact mem_nodes_addNode.mpr (Or.inl (h.target_mem e he))
  simple := by rw [edges_addNode]; exact h.simple
  justified := by rw [edges_addNode]; exact h.justified

theorem link (h : g.WellFormed) (u v : Ref) (r : Reason) : (g.link u v r).WellFormed := by
  have hends : ∀ e ∈ (g.link u v r).edges,
      e.ends ∈ g.edges.map Edge.ends ∨ e.ends = (u, v) := by
    intro e he
    rw [edges_link] at he
    have hm := List.mem_map_of_mem (f := Edge.ends) he
    rw [ends_addReason] at hm
    split at hm
    · exact Or.inl hm
    · simpa using hm
  constructor
  · intro e he
    rw [mem_nodes_link]
    rcases hends e he with hm | heq
    · obtain ⟨d, hd, hde⟩ := List.mem_map.mp hm
      exact Or.inl ((Prod.mk.inj hde).1 ▸ h.source_mem d hd)
    · exact Or.inr (Or.inl (Prod.mk.inj heq).1)
  · intro e he
    rw [mem_nodes_link]
    rcases hends e he with hm | heq
    · obtain ⟨d, hd, hde⟩ := List.mem_map.mp hm
      exact Or.inl ((Prod.mk.inj hde).2 ▸ h.target_mem d hd)
    · exact Or.inr (Or.inr (Prod.mk.inj heq).2)
  · rw [edges_link, ends_addReason]
    split
    · exact h.simple
    · rename_i hn
      refine List.nodup_append.mpr ⟨h.simple, by simp, ?_⟩
      rintro a ha b hb rfl
      exact hn (List.mem_singleton.mp hb ▸ ha)
  · rw [edges_link]
    exact addReason_justified h.justified

end WellFormed

/-! ## Steps -/

theorem addStatement_induction {P : Graph → Prop} (node : ∀ g ref, P g → P (g.addNode ref))
    (link : ∀ g u v r, P g → P (g.link u v r))
    (writer : ∀ g ref name, P g → P (g.setWriter ref name))
    (h : P g) (position : ℕ) (defines : Bool) (s : Statement) :
    P (g.addStatement position defines s) := by
  have hread (ref : Ref) (g : Graph) (name : String) (h : P g) : P (linkRead ref g name) := by
    unfold linkRead
    split
    · split
      · exact h
      · exact link _ _ _ _ h
    · exact h
  have hreads (ref : Ref) (g : Graph) (h : P g) : P (s.reads.foldl (linkRead ref) g) :=
    List.foldlRecOn s.reads _ h fun g hg name _ => hread ref g name hg
  have hwrites (ref : Ref) (g : Graph) (h : P g) : P (s.writes.foldl (setWriter ref) g) :=
    List.foldlRecOn s.writes _ h fun g hg name _ => writer g ref name hg
  unfold addStatement
  have hnode := node g (position, s.index) h
  cases s.parent with
  | none =>
    cases defines
    · exact hreads _ _ hnode
    · exact hwrites _ _ (hreads _ _ hnode)
  | some p =>
    cases defines
    · exact hreads _ _ (link _ _ _ _ hnode)
    · exact hwrites _ _ (hreads _ _ (link _ _ _ _ hnode))

theorem WellFormed.addStatement (h : g.WellFormed) (position : ℕ) (defines : Bool)
    (s : Statement) : (g.addStatement position defines s).WellFormed :=
  addStatement_induction (fun _ ref hg => hg.addNode ref) (fun _ u v r hg => hg.link u v r)
    (fun _ _ _ hg => ⟨hg.source_mem, hg.target_mem, hg.simple, hg.justified⟩) h ..

theorem writer?_setWriter (ref : Ref) (name other : String) :
    (g.setWriter ref name).writer? other =
      if other = name then some ref else g.writer? other := by
  unfold setWriter writer?
  rw [List.lookup_cons]
  split
  · rename_i h
    rw [if_pos (by simpa using h)]
  · rename_i h
    rw [if_neg (by simpa using h)]
    have hne : other ≠ name := by simpa using h
    induction g.writers with
    | nil => rfl
    | cons w ws ih =>
      obtain ⟨key, place⟩ := w
      by_cases hk : key = name
      · subst hk
        have ho : (other == key) = false := beq_eq_false_iff_ne.mpr hne
        simpa [List.lookup_cons, ho] using ih
      · simp [hk, List.lookup_cons, ih]

theorem writer?_foldl_setWriter (ref : Ref) (names : List String) (g : Graph) (other : String) :
    (names.foldl (setWriter ref) g).writer? other =
      if other ∈ names then some ref else g.writer? other := by
  induction names generalizing g with
  | nil => simp
  | cons name names ih =>
    rw [List.foldl_cons, ih, writer?_setWriter]
    by_cases h : other ∈ names <;> by_cases h' : other = name <;> simp [h, h']

theorem edges_foldl_setWriter (ref : Ref) (names : List String) (g : Graph) :
    (names.foldl (setWriter ref) g).edges = g.edges :=
  List.foldlRecOn names _ (motive := fun g' : Graph => g'.edges = g.edges) rfl fun _ h _ _ => h

theorem writers_linkRead (ref : Ref) (g : Graph) (name : String) :
    (linkRead ref g name).writers = g.writers := by
  unfold linkRead
  split
  · split
    · rfl
    · exact writers_link ..
  · rfl

theorem writers_foldl_linkRead (ref : Ref) (names : List String) (g : Graph) :
    (names.foldl (linkRead ref) g).writers = g.writers :=
  List.foldlRecOn names _ (motive := fun g' : Graph => g'.writers = g.writers) rfl
    fun g' h name _ => (writers_linkRead ref g' name).trans h

theorem hasReason_linkRead (ref : Ref) (g : Graph) (name : String) {u v : Ref} {r : Reason} :
    HasReason (linkRead ref g name).edges u v r ↔
      HasReason g.edges u v r ∨ (v = ref ∧ r = .reads name ∧ g.writer? name = some u ∧ u ≠ v) := by
  unfold linkRead
  split
  · rename_i source hw
    split
    · rename_i he
      refine ⟨Or.inl, fun h => h.elim id ?_⟩
      rintro ⟨rfl, -, hu, hne⟩
      rw [hw, Option.some_inj] at hu
      exact absurd (hu.symm.trans he) hne
    · rename_i hne
      rw [edges_link, hasReason_addReason, hw, Option.some_inj]
      refine or_congr_right ⟨?_, ?_⟩
      · rintro ⟨rfl, rfl, rfl⟩
        exact ⟨rfl, rfl, rfl, hne⟩
      · rintro ⟨rfl, rfl, rfl, -⟩
        exact ⟨rfl, rfl, rfl⟩
  · rename_i hw
    simp [hw]

theorem hasReason_foldl_linkRead (ref : Ref) (names : List String) (g : Graph) {u v : Ref}
    {r : Reason} :
    HasReason (names.foldl (linkRead ref) g).edges u v r ↔ HasReason g.edges u v r ∨
      (v = ref ∧ ∃ name ∈ names, r = .reads name ∧ g.writer? name = some u ∧ u ≠ v) := by
  induction names generalizing g with
  | nil => simp
  | cons name names ih =>
    have hw (n : String) : (linkRead ref g name).writer? n = g.writer? n := by
      simp only [writer?, writers_linkRead]
    simp only [List.foldl_cons, ih, hasReason_linkRead, hw, List.mem_cons, or_and_right, exists_or,
      exists_eq_left, and_or_left, or_assoc]

theorem nodes_foldl_setWriter (ref : Ref) (names : List String) (g : Graph) :
    (names.foldl (setWriter ref) g).nodes = g.nodes :=
  List.foldlRecOn names _ (motive := fun g' : Graph => g'.nodes = g.nodes) rfl fun _ h _ _ => h

theorem mem_nodes_linkRead {ref w : Ref} {name : String} :
    w ∈ (linkRead ref g name).nodes → w ∈ g.nodes ∨ w = ref ∨ g.writer? name = some w := by
  unfold linkRead
  split
  · rename_i source hw
    split
    · exact Or.inl
    · rw [mem_nodes_link, hw, Option.some_inj, eq_comm (a := source)]
      tauto
  · exact Or.inl

theorem subset_nodes_linkRead (ref : Ref) (name : String) :
    g.nodes ⊆ (linkRead ref g name).nodes := by
  intro w hw
  unfold linkRead
  split
  · split
    · exact hw
    · exact mem_nodes_link.mpr (Or.inl hw)
  · exact hw

theorem mem_nodes_foldl_linkRead {ref w : Ref} {names : List String} :
    w ∈ (names.foldl (linkRead ref) g).nodes →
      w ∈ g.nodes ∨ w = ref ∨ ∃ name, g.writer? name = some w := by
  induction names generalizing g with
  | nil => exact Or.inl
  | cons name names ih =>
    intro hw
    rcases ih hw with hw | hw | ⟨n, hn⟩
    · exact (mem_nodes_linkRead hw).imp_right (Or.imp_right fun h => ⟨name, h⟩)
    · exact Or.inr (Or.inl hw)
    · rw [writer?, writers_linkRead] at hn
      exact Or.inr (Or.inr ⟨n, hn⟩)

theorem subset_nodes_foldl_linkRead (ref : Ref) (names : List String) :
    g.nodes ⊆ (names.foldl (linkRead ref) g).nodes :=
  List.foldlRecOn names _ (motive := fun g' : Graph => g.nodes ⊆ g'.nodes) (fun _ h => h)
    fun _ h name _ _ hw => subset_nodes_linkRead ref name (h hw)

def addStep (g : Graph) (t : Step) : Graph := g.addStatement t.position t.defines t.statement

/-- The graph with the node of a step and its parent. -/
def addPlace (g : Graph) (t : Step) : Graph :=
  match t.statement.parent with
  | some p => (g.addNode t.ref).link (t.position, p) t.ref .governed
  | none => g.addNode t.ref

/-- A step is added in three stages: its place, its reads, and what it defines. -/
theorem addStep_eq (g : Graph) (t : Step) : g.addStep t = t.defined.foldl (setWriter t.ref)
    (t.statement.reads.foldl (linkRead t.ref) (g.addPlace t)) := by
  obtain ⟨position, defines, s⟩ := t
  unfold addStep addStatement addPlace Step.defined
  cases s.parent <;> cases defines <;> rfl

theorem writers_addPlace (g : Graph) (t : Step) : (g.addPlace t).writers = g.writers := by
  unfold addPlace
  split <;> simp

theorem writer?_addStep (g : Graph) (t : Step) (name : String) :
    (g.addStep t).writer? name = if name ∈ t.defined then some t.ref else g.writer? name := by
  rw [addStep_eq, writer?_foldl_setWriter, writer?, writers_foldl_linkRead, writers_addPlace,
    writer?]

theorem hasReason_addPlace (g : Graph) (t : Step) {u v : Ref} {r : Reason} :
    HasReason (g.addPlace t).edges u v r ↔ HasReason g.edges u v r ∨
      (v = t.ref ∧ r = .governed ∧ ∃ p, t.statement.parent = some p ∧ u = (t.position, p)) := by
  unfold addPlace
  cases t.statement.parent with
  | none => simp
  | some p =>
    have hlink : u = (t.position, p) ∧ v = t.ref ∧ r = .governed ↔
        v = t.ref ∧ r = .governed ∧ u = (t.position, p) := by tauto
    simp [hasReason_addReason, hlink]

theorem hasReason_addStep (g : Graph) (t : Step) {u v : Ref} {r : Reason} :
    HasReason (g.addStep t).edges u v r ↔
      HasReason g.edges u v r ∨ (v = t.ref ∧ t.DependsFor g.writer? u r) := by
  have hw (name : String) : (g.addPlace t).writer? name = g.writer? name := by
    rw [writer?, writers_addPlace, writer?]
  rw [addStep_eq, edges_foldl_setWriter, hasReason_foldl_linkRead, hasReason_addPlace]
  simp only [hw]
  cases r with
  | governed => simp [Step.DependsFor]
  | reads name =>
    simp only [Step.DependsFor, reduceCtorEq, false_and, and_false, or_false, Reason.reads.injEq]
    constructor
    · rintro (h | ⟨rfl, n, hn, rfl, hw, hne⟩)
      · exact Or.inl h
      · exact Or.inr ⟨rfl, hn, hw, hne⟩
    · rintro (h | ⟨rfl, hn, hw, hne⟩)
      · exact Or.inl h
      · exact Or.inr ⟨rfl, name, hn, rfl, hw, hne⟩

theorem mem_nodes_addPlace {t : Step} {w : Ref} : w ∈ (g.addPlace t).nodes ↔
    w ∈ g.nodes ∨ w = t.ref ∨ ∃ p, t.statement.parent = some p ∧ w = (t.position, p) := by
  unfold addPlace
  cases t.statement.parent with
  | none => simp
  | some p =>
    simp only [mem_nodes_link, mem_nodes_addNode, Option.some.injEq, exists_eq_left']
    tauto

/-- A step adds itself, and at most its parent and writers of before. -/
theorem mem_nodes_addStep {t : Step} {w : Ref} (h : w ∈ (g.addStep t).nodes) :
    w ∈ g.nodes ∨ w = t.ref ∨ (∃ p, t.statement.parent = some p ∧ w = (t.position, p)) ∨
      ∃ name, g.writer? name = some w := by
  rw [addStep_eq, nodes_foldl_setWriter] at h
  rcases mem_nodes_foldl_linkRead h with h | h | ⟨name, h⟩
  · exact (mem_nodes_addPlace.mp h).imp_right (Or.imp_right Or.inl)
  · exact Or.inr (Or.inl h)
  · rw [writer?, writers_addPlace] at h
    exact Or.inr (Or.inr (Or.inr ⟨name, h⟩))

theorem mem_nodes_addStep_of_mem {t : Step} {w : Ref} (h : w ∈ g.nodes ∨ w = t.ref) :
    w ∈ (g.addStep t).nodes := by
  rw [addStep_eq, nodes_foldl_setWriter]
  exact subset_nodes_foldl_linkRead _ _ (mem_nodes_addPlace.mpr (h.imp_right Or.inl))

/-! ## Histories -/

def ofSteps (steps : List Step) : Graph := steps.foldl addStep .empty

def ofHistory (h : History) : Graph :=
  h.foldl (fun g x => g.addExecution x.position x.statements x.defines) .empty

theorem addExecution_eq (g : Graph) (x : Execution) :
    g.addExecution x.position x.statements x.defines = x.steps.foldl addStep g := by
  simp only [addExecution, Execution.steps, List.foldl_map, addStep]

theorem ofHistory_eq (h : History) : ofHistory h = ofSteps h.steps := by
  simp only [ofHistory, ofSteps, History.steps, List.foldl_flatMap, addExecution_eq]

@[simp] theorem ofSteps_concat (steps : List Step) (t : Step) :
    ofSteps (steps ++ [t]) = (ofSteps steps).addStep t := by
  simp [ofSteps]

theorem wellFormed_ofSteps (steps : List Step) : (ofSteps steps).WellFormed := by
  induction steps using List.reverseRecOn with
  | nil => exact .empty
  | append_singleton steps t ih =>
    rw [ofSteps_concat]
    exact ih.addStatement ..

theorem writer?_ofSteps (steps : List Step) (name : String) :
    (ofSteps steps).writer? name = lastWriter? steps name := by
  induction steps using List.reverseRecOn with
  | nil => rfl
  | append_singleton steps t ih =>
    rw [ofSteps_concat, writer?_addStep, lastWriter?_concat, ih]

theorem ref_mem_nodes_ofSteps {steps : List Step} {t : Step} (ht : t ∈ steps) :
    t.ref ∈ (ofSteps steps).nodes := by
  induction steps using List.reverseRecOn with
  | nil => cases ht
  | append_singleton steps s ih =>
    rw [ofSteps_concat]
    rcases List.mem_append.mp ht with ht | ht
    · exact mem_nodes_addStep_of_mem (Or.inl (ih ht))
    · exact mem_nodes_addStep_of_mem (Or.inr (congrArg Step.ref (List.mem_singleton.mp ht)))

/-- If all parents are steps, the nodes are the places of the steps. -/
theorem mem_nodes_ofSteps {steps : List Step} {w : Ref} (hparent : ∀ t ∈ steps, ∀ p,
    t.statement.parent = some p → ∃ s ∈ steps, s.ref = (t.position, p)) :
    w ∈ (ofSteps steps).nodes ↔ ∃ t ∈ steps, t.ref = w := by
  have hall : ∀ before, before ⊆ steps → w ∈ (ofSteps before).nodes → ∃ t ∈ steps, t.ref = w := by
    intro before
    induction before using List.reverseRecOn with
    | nil => simp [ofSteps, Graph.empty]
    | append_singleton before t ih =>
      intro hsub hw
      rw [ofSteps_concat] at hw
      have ht : t ∈ steps := hsub (by simp)
      rcases mem_nodes_addStep hw with hw | rfl | ⟨p, hp, rfl⟩ | ⟨name, hname⟩
      · exact ih (fun _ h => hsub (List.mem_append_left _ h)) hw
      · exact ⟨t, ht, rfl⟩
      · exact hparent t ht p hp
      · rw [writer?_ofSteps] at hname
        obtain ⟨s, hs, hr, -⟩ := mem_of_lastWriter? hname
        exact ⟨s, hsub (List.mem_append_left _ hs), hr⟩
  refine ⟨hall steps fun _ h => h, ?_⟩
  rintro ⟨t, ht, rfl⟩
  exact ref_mem_nodes_ofSteps ht

/-- Each reason comes from one step, with the last writers of that moment. -/
theorem hasReason_ofSteps {steps : List Step} {u v : Ref} {r : Reason} :
    HasReason (ofSteps steps).edges u v r ↔
      ∃ before t after, steps = before ++ t :: after ∧ v = t.ref ∧
        t.DependsFor (lastWriter? before) u r := by
  induction steps using List.reverseRecOn with
  | nil => simp [ofSteps, HasReason, Graph.empty]
  | append_singleton steps t ih =>
    have hw : (ofSteps steps).writer? = lastWriter? steps := funext (writer?_ofSteps steps)
    rw [ofSteps_concat, hasReason_addStep, ih, hw]
    constructor
    · rintro (⟨before, s, after, rfl, h⟩ | h)
      · exact ⟨before, s, after ++ [t], by simp, h⟩
      · exact ⟨steps, t, [], rfl, h⟩
    · rintro ⟨before, s, after, heq, h⟩
      rcases List.eq_nil_or_concat after with rfl | ⟨after, t', rfl⟩
      · obtain ⟨rfl, rfl⟩ : steps = before ∧ t = s := by simpa using heq
        exact Or.inr h
      · obtain ⟨rfl, rfl⟩ : steps = before ++ s :: after ∧ t = t' := by
          rw [List.concat_eq_append, ← List.cons_append, ← List.append_assoc] at heq
          simpa using List.append_inj' heq rfl
        exact Or.inl ⟨before, s, after, rfl, h⟩

end Graph

end NotebookSlice.Flow
