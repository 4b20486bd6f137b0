import NotebookSlice.Proofs.Flow.Grounds
import NotebookSlice.Proofs.Flow.Nodes
import NotebookSlice.Proofs.Flow.OverrideUnits

/-! # Assumed modifications

Besides what the code binds or deletes, a unit writes the names whose objects it is
assumed to modify. It reads all of these. Rules have no influence on what is read, and
they only take assumed modifications away.
-/

namespace NotebookSlice.Flow

open Syntax

namespace Node

/-- The mentions in the code of the node's own unit. -/
def mentions : Node → List Mention
  | .stmt (.if _ test _ _) | .stmt (.while _ test _ _) => Flow.mentions test
  | .stmt (.for _ _ target iter _ _) => Flow.mentions iter ++ Flow.mentions target
  | .stmt (.with _ _ items _) => mentionsItems items
  | .stmt (.try ..) => []
  | .stmt s => mentionsStmt s
  | .handler (.mk _ type id _) => mentionsOption type ++ id.toList.map (.of .handler)
  | .clause .. => []

/-- The stray names in the code of the node's own unit. -/
def strays : Node → List String
  | .stmt (.if _ test _ _) | .stmt (.while _ test _ _) => Flow.strays test
  | .stmt (.for _ _ target iter _ _) => Flow.strays iter ++ Flow.strays target
  | .stmt (.with _ _ items _) => straysItems items
  | .stmt (.try ..) => []
  | .stmt s => straysStmt s
  | .handler (.mk _ type _ _) => straysOption type
  | .clause .. => []

/-- The names that the code of the node's own unit binds or deletes in the module. A stray name is
marked as bound or deleted too, wherever it stands. -/
def bound (n : Node) : List String :=
  (n.mentions.filter (·.isBinding)).map (·.name) ++ n.strays

theorem grounded_names (c : Configuration) (n : Node) :
    Grounded n.mentions n.strays .empty (n.names c) := by
  have hvisit := grounded_visitRelation c
  cases n with
  | stmt s =>
    cases s with
    | «if» | «while» => exact hvisit.of_visit [] _ _
    | «for» => exact (hvisit.of_visit [] _ _).trans (hvisit.of_visit [] _ _)
    | «with» => exact hvisit.of_visitItems [] _ _
    | «try» => exact .refl _
    | _ => exact hvisit.of_visitStmt [] _ _
  | handler h =>
    obtain ⟨span, type, id, body⟩ := h
    have htype := hvisit.of_visitOption [] type .empty
    cases id with
    | none => exact htype.more []
    | some id => exact htype.addWrite (m := .of .handler id) rfl ⟨rfl, Or.inl rfl⟩
  | clause => exact .refl _

theorem read_or_bound {c : Configuration} {n : Node} {x : String} (hx : x ∈ (n.names c).writes) :
    x ∈ (n.names c).reads ∨ x ∈ n.bound := by
  rcases (n.grounded_names c).writes x hx with hx | hx | ⟨-, hx | ⟨m, hm, hname, hbinds, -⟩⟩
  · cases hx
  · exact Or.inl hx
  · exact Or.inr (List.mem_append_right _ hx)
  · refine Or.inr (List.mem_append_left _ (List.mem_map.mpr ⟨m, ?_, hname⟩))
    exact List.mem_filter.mpr ⟨hm, hbinds⟩

end Node

/-- Where a stray target stands in a comprehension, its name is written and not read. -/
example :
    let target := Expr.attribute 1 .store (.name 1 .store "a") "b"
    let e := Expr.listComp 1 (.literal 1 "0") [.mk false target (.name 1 .load "c") []]
    strays e = ["a"] ∧ (visit .empty e .empty).writes = ["a"] ∧
      (visit .empty e .empty).reads = ["c"] := by
  decide +kernel

theorem Grows.forall_units {c : Configuration} {lines : Option (List String)} {parent : Option ℕ}
    {next : ℕ} {ns : List Node} {roots : List ℕ} {us : List (Node × Statement)}
    (h : Grows c lines parent next ns roots us) {P : Node → List String → List String → Prop}
    (hP : ∀ n, P n (n.names c).reads (n.names c).writes) :
    ∀ p ∈ us, P p.1 p.2.reads p.2.writes := by
  induction h with
  | nil => exact fun p hp => nomatch hp
  | cons _ _ _ ihb iho ihs =>
    exact List.forall_mem_cons.mpr ⟨hP _, List.forall_mem_append.mpr
      ⟨List.forall_mem_append.mpr ⟨ihb, iho⟩, ihs⟩⟩

/-- Whatever the code and its text, and whatever rules are added: the units are the same but for
their writes. Each reads the same names as before, and writes no others. Of the names that it
writes it reads all those that its own code does not bind or delete, and so all those that the
rules take away. -/
theorem assumed_writes_read (c : Configuration) (rules : List OverrideRule) (ss : List Stmt)
    (source : Option String) :
    ∃ roots us, Grows c (source.map Text.lines) none 0 (ss.map .stmt) roots us ∧
      us.map Prod.snd = analyze c ss source ∧
      (∀ p ∈ us, ∀ x ∈ p.2.writes, x ∈ p.2.reads ∨ x ∈ p.1.bound) ∧
      List.Forall₂ (fun u u' : Statement => u' = { u with writes := u'.writes } ∧
        u'.reads = u.reads ∧ u'.writes ⊆ u.writes ∧ ∀ x ∈ u.writes, x ∈ u'.writes ∨ x ∈ u'.reads)
        (analyze c ss source) (analyze (c.extended rules) ss source) := by
  obtain ⟨roots, us, hgrows, hunits⟩ := yields_walkAll c (source.map Text.lines) ss 0
  refine ⟨roots, us, hgrows, hunits, ?_, ?_⟩
  · exact hgrows.forall_units (P := fun n reads writes => ∀ x ∈ writes, x ∈ reads ∨ x ∈ n.bound)
      fun n _ => Node.read_or_bound
  · refine (overridden_walkAll ss 0).imp fun u u' h => ?_
    have hreads : u'.reads = u.reads := by rw [h.eq]
    exact ⟨h.eq, hreads, h.writes, fun x hx => hreads ▸ h.dropped x hx⟩

end NotebookSlice.Flow
