import Mathlib.Data.Nat.Notation
import NotebookSlice.Flow.Statement

/-! # The lines that units have

A header has the lines up to its block, a clause those from its word up to its
block, and any other statement all of its lines. Which lines the units of a
statement have does not depend on how they are numbered.
-/

namespace NotebookSlice.Flow

open Syntax

def ShowsLine (units : List Statement) (n : ℕ) : Prop := ∃ u ∈ units, u.first ≤ n ∧ n ≤ u.last

instance (units : List Statement) (n : ℕ) : Decidable (ShowsLine units n) :=
  inferInstanceAs (Decidable (∃ u ∈ units, u.first ≤ n ∧ n ≤ u.last))

namespace ShowsLine

variable {units rest : List Statement} {n first bound index : ℕ} {kind : Kind}
  {parent : Option ℕ} {ids : List ℕ} {names : Names}

theorem of_subset (h : ShowsLine units n) (hsub : units ⊆ rest) : ShowsLine rest n := by
  obtain ⟨u, hu, hn⟩ := h
  exact ⟨u, hsub hu, hn⟩

theorem append_left (h : ShowsLine units n) : ShowsLine (units ++ rest) n :=
  h.of_subset (List.subset_append_left units rest)

theorem append_right (h : ShowsLine rest n) : ShowsLine (units ++ rest) n :=
  h.of_subset (List.subset_append_right units rest)

theorem cons {u : Statement} (h : ShowsLine rest n) : ShowsLine (u :: rest) n :=
  h.of_subset (List.subset_cons_self u rest)

theorem unit {last : ℕ} (hfirst : first ≤ n) (hlast : n ≤ last) :
    ShowsLine (unit kind first last parent index ids names :: rest) n :=
  ⟨_, List.mem_cons_self, hfirst, Nat.le_trans hlast (Nat.le_max_right first last)⟩

theorem before (hfirst : first ≤ n) (hlast : n < bound) :
    ShowsLine (Flow.unit kind first (bound - 1) parent index ids names :: rest) n :=
  unit hfirst (Nat.le_sub_one_of_lt hlast)

end ShowsLine

variable (c : Configuration) (lines : List String)

def Shows (s : Stmt) (n : ℕ) : Prop :=
  ∀ parent next, ShowsLine (walk c (some lines) s parent next) n

/-- The units of one of the statements have the line. -/
def ShowsIn (ss : List Stmt) (n : ℕ) : Prop := ∃ s ∈ ss, Shows c lines s n

def HandlerShows (h : Handler) (n : ℕ) : Prop :=
  h.span.first ≤ n ∧ n < blockFirst h.body ∨ ShowsIn c lines h.body n

/-- The units of an `else` or `finally` part have the line. -/
def PartShows (keyword : String) (after : ℕ) (ss : List Stmt) (n : ℕ) : Prop :=
  ∀ owner next, ShowsLine (clauseUnits (some lines) keyword after (blockFirst ss)
    (fun owner next => walkBlock c (some lines) ss owner next) owner next) n

/-- Is the statement a unit of its own, whatever blocks it has? -/
def isWhole : Stmt → Bool
  | .if .. | .while .. | .for .. | .with .. | .try .. => false
  | _ => true

variable {c lines} {s : Stmt} {ss body orelse final : List Stmt} {handlers : List Handler}
  {span : Span} {n first after line : ℕ} {keyword : String}

theorem ShowsIn.walkBlock (h : ShowsIn c lines ss n) (owner next : ℕ) :
    ShowsLine (walkBlock c (some lines) ss owner next).2 n := by
  induction ss generalizing next with
  | nil =>
    obtain ⟨s, hs, -⟩ := h
    cases hs
  | cons t ss ih =>
    obtain ⟨s, hs, hn⟩ := h
    rcases List.mem_cons.mp hs with rfl | hs
    · exact (hn (some owner) next).append_left
    · exact (ih ⟨s, hs, hn⟩ _).append_right

theorem ShowsIn.walkAll (h : ShowsIn c lines ss n) (next : ℕ) :
    ShowsLine (walkAll c (some lines) ss next) n := by
  induction ss generalizing next with
  | nil =>
    obtain ⟨s, hs, -⟩ := h
    cases hs
  | cons t ss ih =>
    obtain ⟨s, hs, hn⟩ := h
    rcases List.mem_cons.mp hs with rfl | hs
    · exact (hn none next).append_left
    · exact (ih ⟨s, hs, hn⟩ _).append_right

theorem shows_whole (h : isWhole s = true) (hfirst : firstLine s ≤ n) (hlast : n ≤ s.span.last) :
    Shows c lines s n := by
  intro parent next
  cases s <;> first | exact .unit hfirst hlast | cases h

/-! ## Clauses -/

/-- A line that satisfies the test is found, if not an earlier one. -/
theorem exists_findLine (test : ℕ → Bool) {count : ℕ} (h : test line = true) (hfirst : first ≤ line)
    (hlast : line < first + count) : ∃ l, findLine test first count = some l ∧ l ≤ line := by
  induction count generalizing first with
  | zero => omega
  | succ count ih =>
    unfold findLine
    split
    · exact ⟨first, rfl, hfirst⟩
    · rename_i hfalse
      rcases Nat.eq_or_lt_of_le hfirst with rfl | hlt
      · exact absurd h hfalse
      · exact ih hlt (by omega)

theorem ShowsIn.part (h : ShowsIn c lines ss n) : PartShows c lines keyword after ss n := by
  intro owner next
  unfold clauseUnits
  split
  · exact h.walkBlock owner next
  · exact (h.walkBlock next (next + 1)).cons

theorem partShows_of_line (hline : isClauseLine keyword ((lines[line - 1]?).getD "") = true)
    (hafter : after < line) (hfirst : line ≤ n) (hlast : n < blockFirst ss) :
    PartShows c lines keyword after ss n := by
  intro owner next
  obtain ⟨l, hl, hle⟩ := exists_findLine
    (fun n => isClauseLine keyword ((lines[n - 1]?).getD "")) hline
    (show after + 1 ≤ line from hafter)
    (show line < after + 1 + (blockFirst ss - after) by omega)
  have hclause : clauseLine (some lines) keyword after (blockFirst ss) = some l := hl
  unfold clauseUnits
  rw [hclause]
  exact .before (Nat.le_trans hle hfirst) hlast

/-! ## Statements with blocks -/

theorem shows_header {parent : Option ℕ} {next : ℕ} {names : Names} {rest : List Statement}
    (h : span.first ≤ n ∧ n < blockFirst body ∨ ShowsIn c lines body n) :
    ShowsLine (unit .header span.first (blockFirst body - 1) parent next
      (walkBlock c (some lines) body next (next + 1)).1 names ::
      ((walkBlock c (some lines) body next (next + 1)).2 ++ rest)) n := by
  rcases h with ⟨hfirst, hlast⟩ | h
  · exact .before hfirst hlast
  · exact (h.walkBlock next (next + 1)).append_left.cons

theorem shows_walkElse {owner next : ℕ}
    (h : orelse ≠ [] ∧ PartShows c lines "else" (blockLast body) orelse n) :
    ShowsLine (walkElse c (some lines) body orelse owner next) n := by
  obtain ⟨hne, h⟩ := h
  obtain ⟨s, ss, rfl⟩ := List.exists_cons_of_ne_nil hne
  exact h owner next

section

variable (h : (span.first ≤ n ∧ n < blockFirst body ∨ ShowsIn c lines body n) ∨
  orelse ≠ [] ∧ PartShows c lines "else" (blockLast body) orelse n)
include h

theorem shows_if {test : Expr} : Shows c lines (.if span test body orelse) n := fun _ _ =>
  h.elim shows_header fun h => (shows_walkElse h).append_right.cons

theorem shows_while {test : Expr} : Shows c lines (.while span test body orelse) n := fun _ _ =>
  h.elim shows_header fun h => (shows_walkElse h).append_right.cons

theorem shows_for {async : Bool} {target iter : Expr} :
    Shows c lines (.for span async target iter body orelse) n := fun _ _ =>
  h.elim shows_header fun h => (shows_walkElse h).append_right.cons

end

theorem shows_with {async : Bool} {items : List WithItem}
    (h : span.first ≤ n ∧ n < blockFirst body ∨ ShowsIn c lines body n) :
    Shows c lines (.with span async items body) n := fun parent next => by
  have hshown : ShowsLine (unit .header span.first (blockFirst body - 1) parent next
      (walkBlock c (some lines) body next (next + 1)).1 (visitItems c items .empty) ::
      ((walkBlock c (some lines) body next (next + 1)).2 ++ [])) n := shows_header h
  rwa [List.append_nil] at hshown

theorem shows_walkHandlers (h : ∃ h ∈ handlers, HandlerShows c lines h n) (owner next : ℕ) :
    ShowsLine (walkHandlers c (some lines) handlers owner next) n := by
  induction handlers generalizing next with
  | nil =>
    obtain ⟨h, hh, -⟩ := h
    cases hh
  | cons g handlers ih =>
    obtain ⟨span, type, id, body⟩ := g
    obtain ⟨h, hh, hn⟩ := h
    rcases List.mem_cons.mp hh with rfl | hh
    · exact shows_header hn
    · exact (ih ⟨h, hh, hn⟩ _).append_right.cons

/-- The last line before the `else` part of a `try`. -/
def afterHandlers (body : List Stmt) (handlers : List Handler) : ℕ :=
  handlers.foldl (fun _ h => blockLast h.body) (blockLast body)

theorem shows_try {group : Bool}
    (h : (span.first ≤ n ∧ n < blockFirst body ∨ ShowsIn c lines body n) ∨
      (∃ h ∈ handlers, HandlerShows c lines h n) ∨
      (orelse ≠ [] ∧ PartShows c lines "else" (afterHandlers body handlers) orelse n) ∨
      (final ≠ [] ∧ PartShows c lines "finally"
        (if orelse = [] then afterHandlers body handlers else blockLast orelse) final n)) :
    Shows c lines (.try span group body handlers orelse final) n := by
  intro parent next
  rcases h with h | h | ⟨hne, h⟩ | ⟨hne, h⟩
  · simp only [walk, List.append_assoc]
    exact shows_header h
  · simp only [walk, List.append_assoc]
    exact (shows_walkHandlers h _ _).append_left.append_right.cons
  · simp only [walk, List.append_assoc, List.isEmpty_iff, hne, if_false]
    exact (h _ _).append_left.append_right.append_right.cons
  · simp only [walk, List.isEmpty_iff, hne, if_false]
    exact (h _ _).append_right.cons

end NotebookSlice.Flow
