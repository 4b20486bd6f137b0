import NotebookSlice.Proofs.Slice.Kept

/-! # Programs that are kept as a whole

Nothing is missing in a program if all of its units are kept, and nothing is left of
it if none is. What is kept of two programs one after the other is what is kept of
each of them.
-/

namespace NotebookSlice.Flow

open Syntax

variable {lines : Option (List String)} {keep : ℕ → Bool}

/-- What is kept, with the index after its units: all of it, if all of these units are. -/
structure KeptWhole {α : Type} (keep : ℕ → Bool) (next : ℕ) (whole : α) (r : α × ℕ) : Prop where
  le : next ≤ r.2
  eq : (∀ i, next ≤ i → i < r.2 → keep i = true) → r.1 = whole

theorem keptWhole_header {next stop : ℕ} {t t' : Stmt} (hlt : next < stop)
    (h : (∀ i, next ≤ i → i < stop → keep i = true) → t' = t) :
    KeptWhole keep next [t] (if keep next then [t'] else [], stop) where
  le := Nat.le_of_lt hlt
  eq hkeep := by rw [if_pos (hkeep next (Nat.le_refl next) hlt), h hkeep]

theorem keptWhole_clause {keyword : String} {after first next : ℕ} {ss : List Stmt}
    {block : ℕ → List Stmt × ℕ} (h : ∀ next, KeptWhole keep next ss (block next)) :
    KeptWhole keep next ss (keptClause lines keep keyword after first block next) := by
  unfold keptClause
  split
  · exact h next
  · have hle := (h (next + 1)).le
    refine ⟨Nat.le_of_succ_le hle, fun hkeep => ?_⟩
    simp only at hkeep ⊢
    rw [if_pos (hkeep next (Nat.le_refl next) hle)]
    exact (h (next + 1)).eq fun i hi => hkeep i (Nat.le_of_succ_le hi)

theorem keptWhole_optional {keyword : String} {after next : ℕ} {ss : List Stmt}
    {block : ℕ → List Stmt × ℕ} (h : ∀ next, KeptWhole keep next ss (block next)) :
    KeptWhole keep next ss (keptOptional lines keep keyword after ss block next) := by
  unfold keptOptional
  split
  · rename_i hnil
    exact ⟨Nat.le_refl next, fun _ => (List.isEmpty_iff.mp hnil).symm⟩
  · exact keptWhole_clause h

theorem keptWhole_branches {next : ℕ} {body orelse : List Stmt} {rb ro : List Stmt × ℕ}
    {t : List Stmt → List Stmt → Stmt} (hbody : KeptWhole keep (next + 1) body rb)
    (horelse : KeptWhole keep rb.2 orelse ro) :
    KeptWhole keep next [t body orelse] (if keep next then [t rb.1 ro.1] else [], ro.2) := by
  have hle := hbody.le
  have hle' := horelse.le
  refine keptWhole_header (by omega) fun hkeep => ?_
  rw [hbody.eq fun i hi hi' => hkeep i (by omega) (by omega),
    horelse.eq fun i hi hi' => hkeep i (by omega) hi']

theorem keptWhole_all :
    (∀ s next, KeptWhole keep next [s] (kept lines keep s next)) ∧
    (∀ hs next, KeptWhole keep next hs (keptHandlers lines keep hs next)) ∧
    (∀ ss next, KeptWhole keep next ss (keptBlock lines keep ss next)) ∧
    (∀ body ss next, KeptWhole keep next ss (keptElse lines keep body ss next)) := by
  apply kept.mutual_induct lines keep
  case case1 | case2 =>
    intro span test body orelse next body' stop hb orelse' stop' ho hbody horelse
    rw [hb] at hbody
    rw [ho] at horelse
    simp only [kept, hb, ho]
    exact keptWhole_branches hbody horelse
  case case3 =>
    intro span async target iter body orelse next body' stop hb orelse' stop' ho hbody horelse
    rw [hb] at hbody
    rw [ho] at horelse
    simp only [kept, hb, ho]
    exact keptWhole_branches hbody horelse
  case case4 =>
    intro span async items body next body' stop hb hbody
    rw [hb] at hbody
    simp only [kept, hb]
    refine keptWhole_header hbody.le fun hkeep => ?_
    rw [← show body' = body from hbody.eq fun i hi => hkeep i (Nat.le_of_succ_le hi)]
  case case5 =>
    intro span group body handlers orelse final next body' stop hb handlers' stop₁ hh after orelse'
      stop₂ ho afterElse final' stop₃ hf hbody hhandlers horelse hfinal
    rw [hb] at hbody
    rw [hh] at hhandlers
    have horelse : KeptWhole keep stop₁ orelse (orelse', stop₂) := ho ▸ keptWhole_optional horelse
    have hfinal : KeptWhole keep stop₂ final (final', stop₃) := hf ▸ keptWhole_optional hfinal
    obtain ⟨hle, hbody⟩ := hbody
    obtain ⟨hle₁, hhandlers⟩ := hhandlers
    obtain ⟨hle₂, horelse⟩ := horelse
    obtain ⟨hle₃, hfinal⟩ := hfinal
    simp only at hle hle₁ hle₂ hle₃ hbody hhandlers horelse hfinal
    simp only [kept, hb, hh]
    rw [ho, hf]
    refine keptWhole_header (by omega) fun hkeep => ?_
    rw [hbody fun i hi hi' => hkeep i (by omega) (by omega),
      hhandlers fun i hi hi' => hkeep i (by omega) (by omega),
      horelse fun i hi hi' => hkeep i (by omega) (by omega),
      hfinal fun i hi hi' => hkeep i (by omega) hi']
  case case6 =>
    intro s next h1 h2 h3 h4 h5
    rw [kept.eq_6 _ _ _ _ h1 h2 h3 h4 h5]
    exact keptWhole_header (Nat.lt_succ_self next) fun _ => rfl
  case case7 =>
    intro next
    rw [keptBlock]
    exact ⟨Nat.le_refl next, fun _ => rfl⟩
  case case8 =>
    intro s ss next first stop hs rest stop' hss hfirst hrest
    rw [hs] at hfirst
    rw [hss] at hrest
    have hle := hfirst.le
    have hle' := hrest.le
    simp only [keptBlock, hs, hss]
    refine ⟨by omega, fun hkeep => ?_⟩
    rw [show first = [s] from hfirst.eq fun i hi hi' => hkeep i hi (by omega),
      show rest = ss from hrest.eq fun i hi hi' => hkeep i (by omega) hi']
    rfl
  case case9 =>
    intro body next
    rw [keptElse]
    exact ⟨Nat.le_refl next, fun _ => rfl⟩
  case case10 =>
    intro body s ss next hs hss
    rw [keptElse]
    refine keptWhole_clause fun next => ?_
    have hfirst := hs next
    have hrest := hss (kept lines keep s next).2
    have hle := hfirst.le
    have hle' := hrest.le
    refine ⟨by simp only; omega, fun hkeep => ?_⟩
    simp only at hkeep ⊢
    rw [hfirst.eq fun i hi hi' => hkeep i hi (by omega),
      hrest.eq fun i hi hi' => hkeep i (by omega) hi']
    rfl
  case case11 =>
    intro next
    rw [keptHandlers]
    exact ⟨Nat.le_refl next, fun _ => rfl⟩
  case case12 =>
    intro span type id body hs next body' stop hb rest stop' hh hbody hrest
    rw [hb] at hbody
    rw [hh] at hrest
    have hle := hbody.le
    have hle' := hrest.le
    simp only [keptHandlers, hb, hh]
    refine ⟨by simp only at hle hle' ⊢; omega, fun hkeep => ?_⟩
    simp only at hle hle' hkeep ⊢
    rw [if_pos (hkeep next (Nat.le_refl next) (by omega)),
      show body' = body from hbody.eq fun i hi hi' => hkeep i (by omega) (by omega),
      show rest = hs from hrest.eq fun i hi hi' => hkeep i (by omega) hi']

theorem kept_of_not_keep {s : Stmt} {next : ℕ} (h : keep next = false) :
    (kept lines keep s next).1 = [] := by
  cases s <;> simp [kept, h]

theorem keptBlock_append (ss ts : List Stmt) (next : ℕ) :
    (keptBlock lines keep (ss ++ ts) next).1 = (keptBlock lines keep ss next).1 ++
      (keptBlock lines keep ts (keptBlock lines keep ss next).2).1 := by
  induction ss generalizing next with
  | nil => rfl
  | cons s ss ih => simp only [List.cons_append, keptBlock, ih, List.append_assoc]

/-! ## Programs -/

section Programs

variable {c : Configuration} {ss ts : List Stmt} {next : ℕ}

theorem walkAll_append (ss ts : List Stmt) (next : ℕ) : walkAll c lines (ss ++ ts) next =
    walkAll c lines ss next ++ walkAll c lines ts (next + (walkAll c lines ss next).length) := by
  induction ss generalizing next with
  | nil => rfl
  | cons s ss ih =>
    simp only [List.cons_append, walkAll, ih, List.append_assoc, List.length_append, Nat.add_assoc]

theorem exists_index_walkAll {i : ℕ} (hi : next ≤ i)
    (hlt : i < next + (walkAll c lines ss next).length) :
    ∃ w ∈ walkAll c lines ss next, w.index = i := by
  obtain ⟨roots, hforest⟩ := forest_walkAll lines c ss next
  have hmem : i ∈ (walkAll c lines ss next).map Statement.index := by
    rw [hforest.map_index]
    exact List.mem_range'_1.mpr ⟨hi, hlt⟩
  exact List.mem_map.mp hmem

variable (hlegal : ∀ s ∈ ss, s.Legal)
include hlegal

theorem keptBlock_eq_self (h : ∀ w ∈ walkAll c lines ss next, keep w.index = true) :
    (keptBlock lines keep ss next).1 = ss := by
  refine (keptWhole_all.2.2.1 ss next).eq fun i hi hlt => ?_
  rw [(keptOf_walkAll (c := c) hlegal next).stop] at hlt
  obtain ⟨w, hw, rfl⟩ := exists_index_walkAll hi hlt
  exact h w hw

theorem keptBlock_eq_nil (h : ∀ w ∈ walkAll c lines ss next, keep w.index = false) :
    (keptBlock lines keep ss next).1 = [] := by
  induction ss generalizing next with
  | nil => rfl
  | cons s ss ih =>
    obtain ⟨hs, hss⟩ := List.forall_mem_cons.mp hlegal
    obtain ⟨hfirst, hrest⟩ := List.forall_mem_append.mp h
    have hstop : (kept lines keep s next).2 = next + (walk c lines s none next).length :=
      ((keptOf_walk_all lines keep c).1 s none next hs).1.stop
    have hindex : keep next = false := by
      obtain ⟨w, hw, hindex⟩ : ∃ w ∈ walk c lines s none next, w.index = next := by
        cases s <;> exact ⟨_, List.mem_cons_self, rfl⟩
      exact hindex ▸ hfirst w hw
    simp only [keptBlock, kept_of_not_keep hindex, hstop, List.nil_append]
    exact ih hss hrest

end Programs

end NotebookSlice.Flow
