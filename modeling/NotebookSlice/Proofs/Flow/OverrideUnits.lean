import NotebookSlice.Proofs.Flow.Forest
import NotebookSlice.Proofs.Flow.Override

/-! # The units of a cell under more rules

Rules have no influence on the units of a cell and the names that they read. They
only take away writes of names that the same unit reads.
-/

namespace NotebookSlice.Flow

open Syntax

/-- The same unit but for its writes. What only `s` writes it also reads. -/
structure Statement.Overridden (s t : Statement) : Prop where
  eq : t = { s with writes := t.writes }
  writes : t.writes ⊆ s.writes
  dropped : ∀ name ∈ s.writes, name ∈ t.writes ∨ name ∈ s.reads

theorem overridden_unit {s t : Names} (h : s.Overridden t) (kind : Kind) (first last : ℕ)
    (parent : Option ℕ) (index : ℕ) (body : List ℕ) :
    (unit kind first last parent index body s).Overridden
      (unit kind first last parent index body t) where
  eq := by simp only [unit, h.reads]
  writes := h.writes
  dropped := h.dropped

abbrev OverriddenUnits : List Statement → List Statement → Prop :=
  List.Forall₂ Statement.Overridden

theorem OverriddenUnits.append {as bs as' bs' : List Statement} (h : OverriddenUnits as as')
    (h' : OverriddenUnits bs bs') : OverriddenUnits (as ++ bs) (as' ++ bs') :=
  List.rel_append h h'

/-- Blocks of overridden units. -/
structure OverriddenBlock (a b : Block) : Prop where
  ids : a.1 = b.1
  units : OverriddenUnits a.2 b.2

variable {lines : Option (List String)}

theorem overridden_clauseUnits {keyword : String} {after first owner next : ℕ}
    {block block' : (owner next : ℕ) → Block}
    (h : ∀ owner next, OverriddenBlock (block owner next) (block' owner next)) :
    OverriddenUnits (clauseUnits lines keyword after first block owner next)
      (clauseUnits lines keyword after first block' owner next) := by
  unfold clauseUnits
  split
  · exact (h owner next).units
  · have hblock := h next (next + 1)
    generalize block next (next + 1) = a, block' next (next + 1) = b at hblock ⊢
    obtain ⟨ids, units⟩ := a
    obtain ⟨ids', units'⟩ := b
    obtain ⟨rfl, hunits⟩ := hblock
    exact .cons (overridden_unit (.refl .empty) ..) hunits

theorem overridden_optional {keyword : String} {after first owner next : ℕ} {ss : List Stmt}
    {block block' : (owner next : ℕ) → Block}
    (h : ∀ owner next, OverriddenBlock (block owner next) (block' owner next)) :
    OverriddenUnits
      (if ss.isEmpty then [] else clauseUnits lines keyword after first block owner next)
      (if ss.isEmpty then [] else clauseUnits lines keyword after first block' owner next) := by
  split
  · exact .nil
  · exact overridden_clauseUnits h

variable (lines) (c : Configuration) (rules : List OverrideRule)

theorem overridden_walk_all :
    (∀ s parent next, OverriddenUnits (walk c lines s parent next)
      (walk (c.extended rules) lines s parent next)) ∧
    (∀ hs owner next, OverriddenUnits (walkHandlers c lines hs owner next)
      (walkHandlers (c.extended rules) lines hs owner next)) ∧
    (∀ ss owner next, OverriddenBlock (walkBlock c lines ss owner next)
      (walkBlock (c.extended rules) lines ss owner next)) ∧
    (∀ body ss owner next, OverriddenUnits (walkElse c lines body ss owner next)
      (walkElse (c.extended rules) lines body ss owner next)) := by
  apply walk.mutual_induct
  case case1 | case2 =>
    intro span test body orelse parent next ids units heq hblock helse
    cases heq' : walkBlock (c.extended rules) lines body next (next + 1) with | mk ids' units'
    rw [heq, heq'] at hblock
    obtain ⟨rfl, hunits⟩ := hblock
    simp only [walk, heq, heq', ← hunits.length_eq]
    exact .cons (overridden_unit (overridden_visit c rules test (.refl _)) ..)
      (hunits.append helse)
  case case3 =>
    intro span async target iter body orelse parent next ids units heq hblock helse
    cases heq' : walkBlock (c.extended rules) lines body next (next + 1) with | mk ids' units'
    rw [heq, heq'] at hblock
    obtain ⟨rfl, hunits⟩ := hblock
    simp only [walk, heq, heq', ← hunits.length_eq]
    have hnames := overridden_visit c rules target (overridden_visit c rules iter (.refl .empty))
    exact .cons (overridden_unit hnames ..) (hunits.append helse)
  case case4 =>
    intro span async items body parent next ids units heq hblock
    cases heq' : walkBlock (c.extended rules) lines body next (next + 1) with | mk ids' units'
    rw [heq, heq'] at hblock
    obtain ⟨rfl, hunits⟩ := hblock
    simp only [walk, heq, heq']
    exact .cons (overridden_unit (overridden_visitItems c rules items (.refl _)) ..) hunits
  case case5 =>
    intro span group body handlers orelse final parent next ids units heq hblock hhandlers
      helse hfinal
    cases heq' : walkBlock (c.extended rules) lines body next (next + 1) with | mk ids' units'
    rw [heq, heq'] at hblock
    obtain ⟨rfl, hunits⟩ := hblock
    simp only [walk, heq, heq', List.length_append, ← hunits.length_eq, ← hhandlers.length_eq,
      ← (overridden_optional helse).length_eq]
    exact .cons (overridden_unit (.refl _) ..) (((hunits.append hhandlers).append
      (overridden_optional helse)).append (overridden_optional hfinal))
  case case6 =>
    intro s parent next h1 h2 h3 h4 h5
    rw [walk.eq_6 _ _ _ _ _ h1 h2 h3 h4 h5, walk.eq_6 _ _ _ _ _ h1 h2 h3 h4 h5]
    exact .cons (overridden_unit (overridden_visitStmt c rules s (.refl _)) ..) .nil
  case case7 =>
    intro owner next
    rw [walkBlock, walkBlock]
    exact ⟨rfl, .nil⟩
  case case8 =>
    intro s ss owner next walked ids units heq hs hss
    simp only [walkBlock, ← hs.length_eq]
    exact ⟨congrArg (next :: ·) hss.ids, hs.append hss.units⟩
  case case9 =>
    intro body owner next
    rw [walkElse, walkElse]
    exact .nil
  case case10 =>
    intro body s ss owner next hs hss
    simp only [walkElse]
    refine overridden_clauseUnits fun owner next => ?_
    simp only [← (hs owner next).length_eq]
    exact ⟨congrArg (next :: ·) (hss owner next).ids, (hs owner next).append (hss owner next).units⟩
  case case11 =>
    intro owner next
    rw [walkHandlers, walkHandlers]
    exact .nil
  case case12 =>
    intro span type id body hs owner next ids units heq hblock hhandlers
    cases heq' : walkBlock (c.extended rules) lines body next (next + 1) with | mk ids' units'
    rw [heq, heq'] at hblock
    obtain ⟨rfl, hunits⟩ := hblock
    simp only [walkHandlers, heq, heq', ← hunits.length_eq]
    have hnames := overridden_visitOption c rules type (.refl .empty)
    refine .cons (overridden_unit ?_ ..) (hunits.append hhandlers)
    cases id with
    | none => exact hnames
    | some id => exact hnames.addWrite id

variable {lines c rules}

theorem overridden_walkAll (ss : List Stmt) (next : ℕ) : OverriddenUnits (walkAll c lines ss next)
    (walkAll (c.extended rules) lines ss next) := by
  induction ss generalizing next with
  | nil => exact .nil
  | cons s ss ih =>
    have hs := (overridden_walk_all lines c rules).1 s none next
    simp only [walkAll, ← hs.length_eq]
    exact hs.append (ih _)

theorem overridden_analyzeCell {text : String} {a a' : Analysis} (h : analyzeCell c text = .ok a)
    (h' : analyzeCell (c.extended rules) text = .ok a') :
    OverriddenUnits a.statements a'.statements := by
  obtain ⟨code, hcode, rfl⟩ := analyzeCell_eq_ok.mp h
  obtain ⟨code', hcode', rfl⟩ := analyzeCell_eq_ok.mp h'
  rw [← Except.ok.inj (hcode.symm.trans hcode')]
  exact overridden_walkAll code.statements 0

end NotebookSlice.Flow
