import Mathlib.Data.List.Induction
import NotebookSlice.Flow.Graph

/-! # Histories

The executions that a graph is built from, and their statements as one sequence
of steps. In an ordered history the steps are sorted by their places, so that the
last writer of a name is the same by place and by order of arrival.
-/

namespace NotebookSlice.Flow

/-- The order of places in the log: by execution, then by index. -/
def Before (u v : Ref) : Prop := u.1 < v.1 ∨ u.1 = v.1 ∧ u.2 < v.2

theorem Before.trans {u v w : Ref} (h : Before u v) (h' : Before v w) : Before u w := by
  unfold Before at *; omega

theorem not_before_self (u : Ref) : ¬ Before u u := by
  unfold Before; omega

theorem Before.asymm {u v : Ref} (h : Before u v) : ¬ Before v u :=
  fun h' => not_before_self u (h.trans h')

/-- Statements that are added to a graph together. -/
structure Execution where
  position : Nat
  statements : List Statement
  defines : Bool

/-- A statement with the execution that it is part of. -/
structure Step where
  position : Nat
  defines : Bool
  statement : Statement
  deriving DecidableEq

namespace Step

def ref (t : Step) : Ref := (t.position, t.statement.index)

def defined (t : Step) : List String := if t.defines then t.statement.writes else []

end Step

def Execution.steps (x : Execution) : List Step :=
  x.statements.map fun s => ⟨x.position, x.defines, s⟩

/-- Executions in the order in which they are added. -/
abbrev History := List Execution

def History.steps (h : History) : List Step := h.flatMap Execution.steps

/-- Positions grow from execution to execution, and indices from statement to statement. -/
structure History.Ordered (h : History) : Prop where
  positions : h.Pairwise fun x y => x.position < y.position
  indices : ∀ x ∈ h, x.statements.Pairwise fun s t => s.index < t.index

theorem Execution.mem_steps {x : Execution} {t : Step} :
    t ∈ x.steps ↔ t.position = x.position ∧ t.defines = x.defines ∧
      t.statement ∈ x.statements := by
  simp only [Execution.steps, List.mem_map]
  constructor
  · rintro ⟨s, hs, rfl⟩
    exact ⟨rfl, rfl, hs⟩
  · rintro ⟨hp, hd, hs⟩
    exact ⟨t.statement, hs, by rw [← hp, ← hd]⟩

theorem History.mem_steps {h : History} {t : Step} :
    t ∈ h.steps ↔ ∃ x ∈ h, t ∈ x.steps := by
  simp [History.steps]

def Sorted (steps : List Step) : Prop := steps.Pairwise fun s t => Before s.ref t.ref

theorem History.Ordered.sorted {h : History} (ok : h.Ordered) : Sorted h.steps := by
  rw [Sorted, History.steps, List.pairwise_flatMap]
  constructor
  · intro x hx
    rw [Execution.steps, List.pairwise_map]
    exact (ok.indices x hx).imp fun hlt => Or.inr ⟨rfl, hlt⟩
  · refine ok.positions.imp fun {x y} hlt s hs t ht => Or.inl ?_
    rw [Execution.mem_steps] at hs ht
    simpa only [Step.ref, hs.1, ht.1] using hlt

/-! ## Last writers -/

/-- The place of the last step that defines a name. -/
def lastWriter? (steps : List Step) (name : String) : Option Ref :=
  (steps.reverse.find? fun t => t.defined.contains name).map Step.ref

@[simp] theorem lastWriter?_nil (name : String) : lastWriter? [] name = none := rfl

@[simp] theorem lastWriter?_concat (steps : List Step) (t : Step) (name : String) :
    lastWriter? (steps ++ [t]) name =
      if name ∈ t.defined then some t.ref else lastWriter? steps name := by
  simp only [lastWriter?, List.reverse_append, List.reverse_singleton, List.singleton_append,
    List.find?_cons]
  by_cases h : name ∈ t.defined <;> simp [h]

theorem mem_of_lastWriter? {steps : List Step} {name : String} {u : Ref}
    (h : lastWriter? steps name = some u) : ∃ s ∈ steps, s.ref = u ∧ name ∈ s.defined := by
  obtain ⟨s, hs, hu⟩ := Option.map_eq_some_iff.mp h
  have hd := List.find?_some hs
  exact ⟨s, by simpa using List.mem_of_find?_eq_some hs, hu, by simpa using hd⟩

/-- In sorted steps the last writer is the one at the greatest place. -/
theorem lastWriter?_eq_some_iff {steps : List Step} (hs : Sorted steps) {name : String} {u : Ref} :
    lastWriter? steps name = some u ↔
      (∃ s ∈ steps, s.ref = u ∧ name ∈ s.defined) ∧
        ∀ t ∈ steps, name ∈ t.defined → t.ref = u ∨ Before t.ref u := by
  induction steps using List.reverseRecOn with
  | nil => simp
  | append_singleton steps t ih =>
    obtain ⟨hs, -, hlt⟩ := List.pairwise_append.mp hs
    simp only [List.mem_singleton, forall_eq] at hlt
    rw [lastWriter?_concat]
    simp only [List.mem_append, List.mem_singleton]
    split
    · rename_i hd
      rw [Option.some_inj]
      constructor
      · rintro rfl
        refine ⟨⟨t, Or.inr rfl, rfl, hd⟩, ?_⟩
        rintro s (hms | rfl) _
        · exact Or.inr (hlt s hms)
        · exact Or.inl rfl
      · rintro ⟨⟨s, hms, rfl, -⟩, hmax⟩
        rcases hms with hms | rfl
        · rcases hmax t (Or.inr rfl) hd with he | hb
          · exact he
          · exact absurd (hlt s hms) hb.asymm
        · rfl
    · rename_i hd
      rw [ih hs]
      constructor
      · rintro ⟨⟨s, hms, he⟩, hmax⟩
        refine ⟨⟨s, Or.inl hms, he⟩, ?_⟩
        rintro r (hr | rfl) hdr
        · exact hmax r hr hdr
        · exact absurd hdr hd
      · rintro ⟨⟨s, hms | rfl, he, hds⟩, hmax⟩
        · exact ⟨⟨s, hms, he, hds⟩, fun r hr => hmax r (Or.inl hr)⟩
        · exact absurd hds hd

end NotebookSlice.Flow
