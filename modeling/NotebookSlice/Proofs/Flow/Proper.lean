import Mathlib.Data.Nat.Notation
import NotebookSlice.Flow.Statement
import NotebookSlice.Syntax.Legal

/-! # Proper units

The kind of a unit tells whether it has a block. The grammar has no empty blocks,
so each header and each clause of legal code has a unit in its block.
-/

namespace NotebookSlice.Flow

open Syntax

/-- A unit ends no earlier than it begins, and has a block unless it is a plain statement. -/
structure Statement.Proper (u : Statement) : Prop where
  first_le_last : u.first ≤ u.last
  body_eq_nil_iff : u.body = [] ↔ u.kind = .statement

def ProperUnits (units : List Statement) : Prop := ∀ u ∈ units, u.Proper

namespace ProperUnits

variable {units rest : List Statement}

theorem nil : ProperUnits [] := fun _ hu => absurd hu List.not_mem_nil

theorem append (h : ProperUnits units) (h' : ProperUnits rest) : ProperUnits (units ++ rest) :=
  List.forall_mem_append.mpr ⟨h, h'⟩

theorem cons {kind : Kind} {first last index : ℕ} {parent : Option ℕ} {ids : List ℕ}
    {names : Names} (hkind : ids = [] ↔ kind = .statement) (h : ProperUnits rest) :
    ProperUnits (unit kind first last parent index ids names :: rest) :=
  List.forall_mem_cons.mpr ⟨⟨Nat.le_max_left .., hkind⟩, h⟩

theorem guard {kind : Kind} {first last index : ℕ} {parent : Option ℕ} {ids : List ℕ}
    {names : Names} (hkind : kind ≠ .statement) (hids : ids ≠ []) (h : ProperUnits rest) :
    ProperUnits (unit kind first last parent index ids names :: rest) :=
  .cons ⟨fun hnone => absurd hnone hids, fun hstatement => absurd hstatement hkind⟩ h

end ProperUnits

/-- A block of proper units that has a unit of its own. -/
structure ProperBlock (block : Block) : Prop where
  nonempty : block.1 ≠ []
  units : ProperUnits block.2

variable {lines : Option (List String)} {c : Configuration}

theorem proper_clauseUnits {keyword : String} {after first owner next : ℕ}
    {block : (owner next : ℕ) → Block} (h : ∀ owner next, ProperBlock (block owner next)) :
    ProperUnits (clauseUnits lines keyword after first block owner next) := by
  unfold clauseUnits
  split
  · exact (h owner next).units
  · exact .guard (by decide) (h next (next + 1)).nonempty (h next (next + 1)).units

theorem proper_optional {keyword : String} {after first owner next : ℕ} {ss : List Stmt}
    {block : (owner next : ℕ) → Block}
    (h : ss ≠ [] → ∀ owner next, ProperBlock (block owner next)) :
    ProperUnits
      (if ss.isEmpty then [] else clauseUnits lines keyword after first block owner next) := by
  split
  · exact .nil
  · rename_i hsome
    rw [List.isEmpty_iff] at hsome
    exact proper_clauseUnits (h hsome)

variable (lines c)

theorem proper_walk_all :
    (∀ s parent next, s.Legal → ProperUnits (walk c lines s parent next)) ∧
    (∀ hs owner next, (∀ h ∈ hs, h.body ≠ []) → (∀ h ∈ hs, ∀ s ∈ h.body, s.Legal) →
      ProperUnits (walkHandlers c lines hs owner next)) ∧
    (∀ ss owner next, (∀ s ∈ ss, s.Legal) → ProperUnits (walkBlock c lines ss owner next).2 ∧
      (ss ≠ [] → ProperBlock (walkBlock c lines ss owner next))) ∧
    (∀ body ss owner next, (∀ s ∈ ss, s.Legal) →
      ProperUnits (walkElse c lines body ss owner next)) := by
  apply walk.mutual_induct
  case case1 =>
    intro span test body orelse parent next ids units heq hblock helse hlegal
    cases hlegal
    case simple hs => cases hs
    case «if» hne hb ho =>
      obtain ⟨hids, hunits⟩ := (hblock hb).2 hne
      rw [heq] at hids hunits
      simp only [walk, heq]
      exact .guard (by decide) hids (hunits.append (helse ho))
  case case2 =>
    intro span test body orelse parent next ids units heq hblock helse hlegal
    cases hlegal
    case simple hs => cases hs
    case «while» hne hb ho =>
      obtain ⟨hids, hunits⟩ := (hblock hb).2 hne
      rw [heq] at hids hunits
      simp only [walk, heq]
      exact .guard (by decide) hids (hunits.append (helse ho))
  case case3 =>
    intro span async target iter body orelse parent next ids units heq hblock helse hlegal
    cases hlegal
    case simple hs => cases hs
    case «for» hne hb ho =>
      obtain ⟨hids, hunits⟩ := (hblock hb).2 hne
      rw [heq] at hids hunits
      simp only [walk, heq]
      exact .guard (by decide) hids (hunits.append (helse ho))
  case case4 =>
    intro span async items body parent next ids units heq hblock hlegal
    cases hlegal
    case simple hs => cases hs
    case «with» hne hb =>
      obtain ⟨hids, hunits⟩ := (hblock hb).2 hne
      rw [heq] at hids hunits
      simp only [walk, heq]
      exact .guard (by decide) hids hunits
  case case5 =>
    intro span group body handlers orelse final parent next ids units heq hblock hhandlers
      helse hfinal hlegal
    cases hlegal
    case simple hs => cases hs
    case «try» hne hb hhne hhb ho hf _ =>
      obtain ⟨hids, hunits⟩ := (hblock hb).2 hne
      rw [heq] at hids hunits
      simp only [walk, heq]
      refine .guard (by decide) hids (((hunits.append (hhandlers hhne hhb)).append ?_).append ?_)
      · exact proper_optional fun hsome owner next => (helse owner next ho).2 hsome
      · exact proper_optional fun hsome owner next => (hfinal owner next hf).2 hsome
  case case6 =>
    intro s parent next h1 h2 h3 h4 h5 _
    rw [walk.eq_6 _ _ _ _ _ h1 h2 h3 h4 h5]
    exact .cons ⟨fun _ => rfl, fun _ => rfl⟩ .nil
  case case7 =>
    intro owner next _
    exact ⟨by rw [walkBlock]; exact .nil, fun hsome => absurd rfl hsome⟩
  case case8 =>
    intro s ss owner next walked ids units heq hs hss hlegal
    obtain ⟨hunits, -⟩ := hss fun t ht => hlegal t (List.mem_cons_of_mem _ ht)
    rw [heq] at hunits
    simp only [walkBlock]
    rw [heq]
    have hall := (hs (hlegal s List.mem_cons_self)).append hunits
    exact ⟨hall, fun _ => ⟨List.cons_ne_nil _ _, hall⟩⟩
  case case9 =>
    intro body owner next _
    rw [walkElse]
    exact .nil
  case case10 =>
    intro body s ss owner next hs hss hlegal
    simp only [walkElse]
    refine proper_clauseUnits fun owner next => ⟨List.cons_ne_nil _ _, ?_⟩
    exact (hs owner next (hlegal s List.mem_cons_self)).append
      (hss owner next fun t ht => hlegal t (List.mem_cons_of_mem _ ht)).1
  case case11 =>
    intro owner next _ _
    rw [walkHandlers]
    exact .nil
  case case12 =>
    intro span type id body hs owner next ids units heq hblock hhandlers hne hlegal
    obtain ⟨hids, hunits⟩ :=
      (hblock (hlegal _ List.mem_cons_self)).2 (hne _ List.mem_cons_self)
    rw [heq] at hids hunits
    simp only [walkHandlers, heq]
    exact .guard (by decide) hids (hunits.append
      (hhandlers (fun h hh => hne h (List.mem_cons_of_mem _ hh))
        fun h hh => hlegal h (List.mem_cons_of_mem _ hh)))

theorem proper_walkAll {ss : List Stmt} (hlegal : ∀ s ∈ ss, s.Legal) (next : ℕ) :
    ProperUnits (walkAll c lines ss next) := by
  induction ss generalizing next with
  | nil => exact .nil
  | cons s ss ih =>
    obtain ⟨hs, hss⟩ := List.forall_mem_cons.mp hlegal
    exact ((proper_walk_all lines c).1 s none next hs).append (ih hss _)

theorem proper_analyze {ss : List Stmt} (hlegal : ∀ s ∈ ss, s.Legal) (source : Option String) :
    ProperUnits (analyze c ss source) :=
  proper_walkAll _ c hlegal 0

end NotebookSlice.Flow
