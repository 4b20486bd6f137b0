import Mathlib.Tactic.Common
import NotebookSlice.Flow.Analysis

/-! # The units of a cell form a forest

The walk through a cell numbers its units from the front. A unit is followed by
the units of its block, then by those of its other parts, so that a parent comes
before its children and a block consists of children.
-/

namespace NotebookSlice.Flow

open Syntax

/-- Units numbered from `next` on, in trees whose roots have the given parent. Below a root stand
the trees of its block, whose roots are its body, and then the trees of its other parts. -/
inductive Forest : (parent : Option ℕ) → (next : ℕ) → (roots : List ℕ) → List Statement → Prop

  | nil {parent : Option ℕ} {next : ℕ} : Forest parent next [] []

  | cons {parent : Option ℕ} {next : ℕ} {u : Statement} {parts roots : List ℕ}
      {block others siblings : List Statement} :
      u.index = next → u.parent = parent →
      Forest (some next) (next + 1) u.body block →
      Forest (some next) (next + 1 + block.length) parts others →
      Forest parent (next + 1 + block.length + others.length) roots siblings →
      Forest parent next (next :: roots) (u :: (block ++ others) ++ siblings)

namespace Forest

variable {parent : Option ℕ} {next : ℕ} {roots : List ℕ} {units : List Statement}

theorem tree {u : Statement} {parts : List ℕ} {block others : List Statement}
    (hindex : u.index = next) (hparent : u.parent = parent)
    (hblock : Forest (some next) (next + 1) u.body block)
    (hothers : Forest (some next) (next + 1 + block.length) parts others) :
    Forest parent next [next] (u :: (block ++ others)) := by
  simpa using Forest.cons hindex hparent hblock hothers .nil

theorem append {roots' : List ℕ} {units' : List Statement} (h : Forest parent next roots units)
    (h' : Forest parent (next + units.length) roots' units') :
    Forest parent next (roots ++ roots') (units ++ units') := by
  induction h with
  | nil => exact h'
  | @cons parent next u parts roots block others siblings hindex hparent hblock hothers _ _ _ ih =>
    rw [List.append_assoc]
    refine .cons hindex hparent hblock hothers (ih ?_)
    convert h' using 1
    simp only [List.length_append, List.length_cons]
    omega

theorem map_index (h : Forest parent next roots units) :
    units.map Statement.index = List.range' next units.length := by
  induction h with
  | nil => rfl
  | @cons parent next u parts roots block others siblings hindex _ _ _ _ ihb iho ihs =>
    simp only [List.map_append, List.map_cons, hindex, ihb, iho, ihs, List.length_append,
      List.length_cons, List.cons_append, List.append_assoc]
    rw [List.range'_append_1, List.range'_append_1, List.range'_succ]

theorem index_mem (h : Forest parent next roots units) {u : Statement} (hu : u ∈ units) :
    next ≤ u.index ∧ u.index < next + units.length := by
  have hm : u.index ∈ units.map Statement.index := List.mem_map_of_mem hu
  rw [h.map_index, List.mem_range'_1] at hm
  exact hm

theorem roots_mem (h : Forest parent next roots units) :
    ∀ i ∈ roots, next ≤ i ∧ i < next + units.length := by
  induction h with
  | nil => simp
  | cons _ _ _ _ _ _ _ ihs =>
    simp only [List.mem_cons, forall_eq_or_imp, List.length_append, List.length_cons]
    refine ⟨by omega, fun i hi => ?_⟩
    have := ihs i hi
    omega

theorem parent_lt (h : Forest parent next roots units) :
    ∀ u ∈ units, u.parent = parent ∧ u.index ∈ roots ∨
      ∃ p, u.parent = some p ∧ next ≤ p ∧ p < u.index := by
  induction h with
  | nil => simp
  | @cons parent next u parts roots block others siblings hindex hparent hblock hothers hsiblings
      ihb iho ihs =>
    have below {us : List Statement} {rs : List ℕ} {n : ℕ} (hn : next < n)
        (hus : Forest (some next) n rs us)
        (ih : ∀ u ∈ us, u.parent = some next ∧ u.index ∈ rs ∨
          ∃ p, u.parent = some p ∧ n ≤ p ∧ p < u.index) :
        ∀ u ∈ us, ∃ p, u.parent = some p ∧ next ≤ p ∧ p < u.index := by
      intro v hv
      have := (hus.index_mem hv).1
      rcases ih v hv with ⟨hp, -⟩ | ⟨p, hp, hle, hlt⟩
      · exact ⟨next, hp, Nat.le_refl _, by omega⟩
      · exact ⟨p, hp, by omega, hlt⟩
    intro v hv
    simp only [List.cons_append, List.append_assoc, List.mem_cons, List.mem_append] at hv
    rcases hv with rfl | hv | hv | hv
    · exact Or.inl ⟨hparent, hindex ▸ List.mem_cons_self⟩
    · exact Or.inr (below (by omega) hblock ihb v hv)
    · exact Or.inr (below (by omega) hothers iho v hv)
    · rcases ihs v hv with ⟨hp, hr⟩ | ⟨p, hp, hle, hlt⟩
      · exact Or.inl ⟨hp, List.mem_cons_of_mem _ hr⟩
      · exact Or.inr ⟨p, hp, by omega, hlt⟩

theorem body_mem (h : Forest parent next roots units) :
    ∀ u ∈ units, ∀ i ∈ u.body, u.index < i ∧ i < next + units.length := by
  induction h with
  | nil => simp
  | @cons parent next u parts roots block others siblings hindex _ hblock _ _ ihb iho ihs =>
    intro v hv i hi
    simp only [List.cons_append, List.append_assoc, List.mem_cons, List.mem_append] at hv
    simp only [List.length_append, List.length_cons]
    rcases hv with rfl | hv | hv | hv
    · have := hblock.roots_mem i hi
      omega
    · have := ihb v hv i hi
      omega
    · have := iho v hv i hi
      omega
    · have := ihs v hv i hi
      omega

end Forest

def Parts (owner next : ℕ) (units : List Statement) : Prop :=
  ∃ roots, Forest (some owner) next roots units

theorem Parts.append {owner next n : ℕ} {units units' : List Statement}
    (h : Parts owner next units) (hn : n = next + units.length) (h' : Parts owner n units') :
    Parts owner next (units ++ units') := by
  obtain ⟨roots, h⟩ := h
  obtain ⟨roots', h'⟩ := h'
  exact ⟨roots ++ roots', h.append (hn ▸ h')⟩

theorem Forest.tree_parts {parent : Option ℕ} {next : ℕ} {u : Statement}
    {block others : List Statement} (hindex : u.index = next) (hparent : u.parent = parent)
    (hblock : Forest (some next) (next + 1) u.body block)
    (hothers : Parts next (next + 1 + block.length) others) :
    Forest parent next [next] (u :: (block ++ others)) := by
  obtain ⟨parts, hothers⟩ := hothers
  exact .tree hindex hparent hblock hothers

theorem Forest.tree_block {parent : Option ℕ} {next : ℕ} {u : Statement} {block : List Statement}
    (hindex : u.index = next) (hparent : u.parent = parent)
    (hblock : Forest (some next) (next + 1) u.body block) :
    Forest parent next [next] (u :: block) := by
  have h := Forest.tree hindex hparent hblock .nil
  rwa [List.append_nil] at h

/-! ## The walk -/

variable {lines : Option (List String)} {keyword : String} {after first owner next : ℕ}
  {block : (owner next : ℕ) → Block}

theorem parts_clauseUnits
    (h : ∀ owner next, Forest (some owner) next (block owner next).1 (block owner next).2) :
    Parts owner next (clauseUnits lines keyword after first block owner next) := by
  unfold clauseUnits
  split
  · exact ⟨_, h owner next⟩
  · exact ⟨[next], .tree_block rfl rfl (h next (next + 1))⟩

theorem parts_optional {ss : List Stmt}
    (h : ∀ owner next, Forest (some owner) next (block owner next).1 (block owner next).2) :
    Parts owner next
      (if ss.isEmpty then [] else clauseUnits lines keyword after first block owner next) := by
  split
  · exact ⟨[], .nil⟩
  · exact parts_clauseUnits h

variable (lines) (c : Configuration)

theorem forest_walk_all :
    (∀ s parent next, Forest parent next [next] (walk c lines s parent next)) ∧
    (∀ hs owner next, Parts owner next (walkHandlers c lines hs owner next)) ∧
    (∀ ss owner next, Forest (some owner) next (walkBlock c lines ss owner next).1
      (walkBlock c lines ss owner next).2) ∧
    (∀ body ss owner next, Parts owner next (walkElse c lines body ss owner next)) := by
  apply walk.mutual_induct
  case case1 | case2 =>
    intro span test body orelse parent next ids units heq hblock helse
    rw [heq] at hblock
    simp only [walk, heq]
    exact .tree_parts rfl rfl hblock helse
  case case3 =>
    intro span async target iter body orelse parent next ids units heq hblock helse
    rw [heq] at hblock
    simp only [walk, heq]
    exact .tree_parts rfl rfl hblock helse
  case case4 =>
    intro span async items body parent next ids units heq hblock
    rw [heq] at hblock
    simp only [walk, heq]
    exact .tree_block rfl rfl hblock
  case case5 =>
    intro span group body handlers orelse final parent next ids units heq hblock hhandlers
      helse hfinal
    rw [heq] at hblock
    simp only [walk, heq]
    rw [List.append_assoc units, List.append_assoc units]
    refine .tree_parts rfl rfl hblock
      ((hhandlers.append ?_ (parts_optional helse)).append ?_ (parts_optional hfinal))
    · simp only [List.length_append, Nat.add_assoc]
    · simp only [List.length_append, Nat.add_assoc]
  case case6 =>
    intro s parent next h1 h2 h3 h4 h5
    rw [walk.eq_6 _ _ _ _ _ h1 h2 h3 h4 h5]
    exact .tree_block rfl rfl Forest.nil
  case case7 =>
    intro owner next
    rw [walkBlock]
    exact .nil
  case case8 =>
    intro s ss owner next walked ids units heq hs hss
    rw [heq] at hss
    simp only [walkBlock]
    rw [heq]
    exact hs.append hss
  case case9 =>
    intro body owner next
    rw [walkElse]
    exact ⟨[], .nil⟩
  case case10 =>
    intro body s ss owner next hs hss
    simp only [walkElse]
    exact parts_clauseUnits fun owner next => (hs owner next).append (hss owner next)
  case case11 =>
    intro owner next
    rw [walkHandlers]
    exact ⟨[], .nil⟩
  case case12 =>
    intro span type id body hs owner next ids units heq hblock hhandlers
    rw [heq] at hblock
    simp only [walkHandlers, heq]
    have htree (names : Names) : Parts owner next
        (unit .header span.first (blockFirst body - 1) (some owner) next ids names :: units) :=
      ⟨[next], .tree_block rfl rfl hblock⟩
    exact (htree _).append (by rw [List.length_cons]; omega) hhandlers

theorem forest_walk (s : Stmt) (parent : Option ℕ) (next : ℕ) :
    Forest parent next [next] (walk c lines s parent next) :=
  (forest_walk_all lines c).1 s parent next

theorem forest_walkAll (ss : List Stmt) (next : ℕ) :
    ∃ roots, Forest none next roots (walkAll c lines ss next) := by
  induction ss generalizing next with
  | nil => exact ⟨[], .nil⟩
  | cons s ss ih =>
    obtain ⟨roots, hrest⟩ := ih (next + (walk c lines s none next).length)
    exact ⟨_, (forest_walk lines c s none next).append hrest⟩

theorem forest_analyze (ss : List Stmt) (source : Option String) :
    ∃ roots, Forest none 0 roots (analyze c ss source) :=
  forest_walkAll _ c ss 0

/-! ## Cells -/

variable {c} {text : String} {a : Analysis}

theorem analyzeCell_eq_ok : analyzeCell c text = .ok a ↔ ∃ code, Code.ofText text = .ok code ∧
    (⟨analyze c code.statements (some text), code.diagnostics⟩ : Analysis) = a := by
  rw [analyzeCell]
  cases Code.ofText text with
  | error e => simp [bind, Except.bind]
  | ok code => simp [bind, Except.bind, pure, Except.pure]

theorem forest_of_analyzeCell (h : analyzeCell c text = .ok a) :
    ∃ roots, Forest none 0 roots a.statements := by
  obtain ⟨code, -, rfl⟩ := analyzeCell_eq_ok.mp h
  exact forest_analyze c code.statements (some text)

end NotebookSlice.Flow
