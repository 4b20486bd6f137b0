import NotebookSlice.Log.Export
import NotebookSlice.Proofs.Flow.EdgeLists
import NotebookSlice.Proofs.Log.Places
import NotebookSlice.Proofs.Text.Colon

/-! # The exported graph is the graph of the log

The nodes of the exported graph come from the entries of the log and its edges from
the flow graph. Only names tie them together. As the two agree on the statements,
and no two statements have one name, each edge finds the nodes of its ends.
-/

namespace NotebookSlice

open NotebookSlice.Flow

/-! ## Sorted texts -/

theorem textLE_iff {a b : String} : textLE a b = true ↔ a ≤ b := by
  simp only [textLE, Bool.not_eq_true', decide_eq_false_iff_not]
  exact String.not_lt

theorem textLE_trans (a b c : String) (h : textLE a b = true) (h' : textLE b c = true) :
    textLE a c = true :=
  textLE_iff.mpr (String.le_trans (textLE_iff.mp h) (textLE_iff.mp h'))

theorem textLE_total (a b : String) : (textLE a b || textLE b a) = true := by
  rw [Bool.or_eq_true, textLE_iff, textLE_iff]
  exact String.le_total a b

theorem mem_sortedTexts {xs : List String} {x : String} : x ∈ sortedTexts xs ↔ x ∈ xs := by
  rw [sortedTexts, List.mem_mergeSort, List.mem_eraseDups]

theorem pairwise_sortedTexts (xs : List String) : (sortedTexts xs).Pairwise (· < ·) := by
  have hsorted : (sortedTexts xs).Pairwise fun a b => textLE a b = true :=
    List.pairwise_mergeSort textLE_trans textLE_total _
  have hnodup : (sortedTexts xs).Nodup :=
    (List.mergeSort_perm _ _).nodup_iff.mpr (nodup_eraseDups xs)
  exact hsorted.imp₂ (fun _ _ hle hne => Std.lt_of_le_of_ne (textLE_iff.mp hle) hne) hnodup

namespace ExportedGraph

variable {log : Log} {u v : Ref}

/-! ## Names -/

theorem nodeName_inj : nodeName u = nodeName v ↔ u = v := by
  have hcast (n : ℕ) : toString n = toString (n : ℤ) := rfl
  simp only [nodeName, hcast, colon_toString_inj, Prod.ext_iff]
  exact and_congr (Int.repr_inj.trans Int.natCast_inj) Int.natCast_inj

theorem mem_nodes {n : ExportedNode} :
    n ∈ (ofLog log).nodes ↔ ∃ e ∈ log.entries, ∃ t ∈ e.statements, n = ofStatement e t := by
  simp only [ofLog, List.mem_flatMap, List.mem_map, eq_comm]

theorem map_name_nodes (log : Log) :
    (ofLog log).nodes.map ExportedNode.name =
      (log.history.steps.map Step.ref).map nodeName := by
  simp only [ofLog, ofStatement, Flow.History.steps, Log.history, Entry.execution, Execution.steps,
    Step.ref, List.map_flatMap, List.flatMap_map, List.map_map, Function.comp_def]

theorem nodup_names (h : log.Sound) : ((ofLog log).nodes.map ExportedNode.name).Nodup := by
  rw [map_name_nodes]
  exact h.ordered.nodup_refs.map fun _ _ => nodeName_inj.mp

theorem nodeName_mem (h : log.Sound) :
    nodeName u ∈ (ofLog log).nodes.map ExportedNode.name ↔ u ∈ log.graph.nodes := by
  rw [map_name_nodes, h.mem_nodes, ← h.exists_step, List.mem_map]
  constructor
  · rintro ⟨v, hv, heq⟩
    obtain rfl := nodeName_inj.mp heq
    exact List.mem_map.mp hv
  · rintro ⟨t, ht, rfl⟩
    exact ⟨_, List.mem_map_of_mem ht, rfl⟩

end ExportedGraph

/-! ## Edges -/

open ExportedGraph

def ExportedEdge.ends (x : ExportedEdge) : String × String := (x.source, x.target)

/-- The exported edge has the ends and the attributes of the dependency. -/
structure ExportedEdge.Shows (x : ExportedEdge) (d : Edge) : Prop where
  source : x.source = nodeName d.source
  target : x.target = nodeName d.target
  control : x.control = d.control
  type : x.type = "control" ∧ d.symbols = [] ∨ x.type = "uses" ∧ d.symbols ≠ []
  label : ∃ names : List String, names.Pairwise (· < ·) ∧
    (∀ name, name ∈ names ↔ name ∈ d.symbols) ∧ x.label = String.intercalate "," names

/-- An edge without symbols is one of control, so its type says so. -/
theorem ExportedGraph.shows_ofEdge {d : Edge} (h : ∃ r, d.Has r) : (ofEdge d).Shows d where
  source := rfl
  target := rfl
  control := rfl
  type := by
    obtain ⟨r, hr⟩ := h
    by_cases hnone : d.symbols = []
    · cases r with
      | reads name => simp [Edge.Has, hnone] at hr
      | governed =>
        have hcontrol : d.control = true := hr
        exact Or.inl ⟨by simp [ofEdge, hnone, hcontrol], hnone⟩
    · exact Or.inr ⟨by simp [ofEdge, hnone], hnone⟩
  label := ⟨_, pairwise_sortedTexts _, fun _ => mem_sortedTexts, rfl⟩

/-! ## Building by name -/

/-- A graph that is built name by name. A node that only an edge has named is bare: it has no
attributes. -/
structure NamedGraph where
  nodes : List (String × Option ExportedNode)
  edges : List ExportedEdge

namespace NamedGraph

def empty : NamedGraph := ⟨[], []⟩

/-- Adds a node with its attributes. If there is one of its name, that one takes them over. -/
def addNode (g : NamedGraph) (n : ExportedNode) : NamedGraph :=
  if n.name ∈ g.nodes.map Prod.fst then
    { g with nodes := g.nodes.map fun p => if p.1 = n.name then (p.1, some n) else p }
  else { g with nodes := g.nodes ++ [(n.name, some n)] }

def addName (g : NamedGraph) (name : String) : NamedGraph :=
  if name ∈ g.nodes.map Prod.fst then g else { g with nodes := g.nodes ++ [(name, none)] }

/-- Adds an edge and its ends. If there is one between them, that one takes the attributes over. -/
def addEdge (g : NamedGraph) (x : ExportedEdge) : NamedGraph :=
  let g := (g.addName x.source).addName x.target
  if x.ends ∈ g.edges.map ExportedEdge.ends then
    { g with edges := g.edges.map fun y => if y.ends = x.ends then x else y }
  else { g with edges := g.edges ++ [x] }

def build (x : ExportedGraph) : NamedGraph := x.edges.foldl addEdge (x.nodes.foldl addNode empty)

theorem addName_of_mem {g : NamedGraph} {name : String} (h : name ∈ g.nodes.map Prod.fst) :
    g.addName name = g := if_pos h

theorem foldl_addNode {ns : List ExportedNode} (h : (ns.map ExportedNode.name).Nodup) :
    ns.foldl addNode empty = ⟨ns.map fun n => (n.name, some n), []⟩ := by
  induction ns using List.reverseRecOn with
  | nil => rfl
  | append_singleton ns n ih =>
    rw [List.map_append, List.nodup_append] at h
    obtain ⟨hns, -, hnew⟩ := h
    have hnot : n.name ∉ (ns.map fun n => (n.name, some n)).map Prod.fst := by
      rw [List.map_map]
      exact fun hmem => hnew _ hmem _ (List.mem_singleton_self _) rfl
    rw [List.foldl_append, List.foldl_cons, List.foldl_nil, ih hns, addNode, if_neg hnot,
      List.map_append]
    rfl

theorem foldl_addEdge {nodes : List (String × Option ExportedNode)} {xs : List ExportedEdge}
    (hends : ∀ x ∈ xs, x.source ∈ nodes.map Prod.fst ∧ x.target ∈ nodes.map Prod.fst)
    (hsimple : (xs.map ExportedEdge.ends).Nodup) :
    xs.foldl addEdge ⟨nodes, []⟩ = ⟨nodes, xs⟩ := by
  induction xs using List.reverseRecOn with
  | nil => rfl
  | append_singleton xs x ih =>
    rw [List.map_append, List.nodup_append] at hsimple
    obtain ⟨hxs, -, hnew⟩ := hsimple
    obtain ⟨hinit, hlast⟩ := List.forall_mem_append.mp hends
    obtain ⟨hsource, htarget⟩ := hlast x (List.mem_singleton_self _)
    have hnot : x.ends ∉ xs.map ExportedEdge.ends :=
      fun hmem => hnew _ hmem _ (List.mem_singleton_self _) rfl
    rw [List.foldl_append, List.foldl_cons, List.foldl_nil, ih hinit hxs, addEdge,
      addName_of_mem (g := ⟨nodes, xs⟩) hsource, addName_of_mem (g := ⟨nodes, xs⟩) htarget]
    exact if_neg hnot

end NamedGraph

namespace ExportedGraph

variable {log : Log}

theorem nodup_ends (h : log.Sound) : ((ofLog log).edges.map ExportedEdge.ends).Nodup := by
  have hends : (ofLog log).edges.map ExportedEdge.ends =
      (log.graph.edges.map Edge.ends).map fun p => (nodeName p.1, nodeName p.2) := by
    simp only [ofLog, List.map_map, Function.comp_def]
    rfl
  rw [hends]
  refine h.wellFormed.simple.map fun p q heq => ?_
  obtain ⟨hsource, htarget⟩ := Prod.mk.inj heq
  exact Prod.ext (nodeName_inj.mp hsource) (nodeName_inj.mp htarget)

theorem ends_mem (h : log.Sound) {x : ExportedEdge} (hx : x ∈ (ofLog log).edges) :
    x.source ∈ (ofLog log).nodes.map ExportedNode.name ∧
      x.target ∈ (ofLog log).nodes.map ExportedNode.name := by
  obtain ⟨d, hd, rfl⟩ := List.mem_map.mp hx
  exact ⟨(nodeName_mem h).mpr (h.wellFormed.source_mem d hd),
    (nodeName_mem h).mpr (h.wellFormed.target_mem d hd)⟩

theorem build_ofLog (h : log.Sound) :
    NamedGraph.build (ofLog log) =
      ⟨(ofLog log).nodes.map fun n => (n.name, some n), (ofLog log).edges⟩ := by
  rw [NamedGraph.build, NamedGraph.foldl_addNode (nodup_names h)]
  refine NamedGraph.foldl_addEdge (fun x hx => ?_) (nodup_ends h)
  simpa only [List.map_map, Function.comp_def] using ends_mem h hx

end ExportedGraph

end NotebookSlice
