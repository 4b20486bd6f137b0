import NotebookSlice.Proofs.Cell.Chunks
import NotebookSlice.Proofs.Flow.Forest

/-! # Limited stacks

A stack with a limit changes no analysis, but deep code has none with it.
-/

namespace NotebookSlice

open Syntax

/-- The stack has room for the code of a text: for the parser on all that it is given, and for the
calls of the analysis. -/
structure Stack.Suffices (k : Stack) (source : String) : Prop where
  parses : ∀ t ∈ Code.parsedTexts (blankMagic source), k.parses t = true
  calls : Flow.nestedBlock (some (Text.lines source)) (Code.ofPlain (blankMagic source)).statements ≤
    k.calls

theorem Stack.suffices_iff {k : Stack} {source : String} : k.Suffices source ↔
    (Code.parsedTexts (blankMagic source)).all k.parses = true ∧
      Flow.nestedBlock (some (Text.lines source)) (Code.ofPlain (blankMagic source)).statements ≤
        k.calls :=
  ⟨fun h => ⟨List.all_eq_true.mpr h.parses, h.calls⟩,
    fun h => ⟨List.all_eq_true.mp h.1, h.2⟩⟩

instance (k : Stack) (source : String) : Decidable (k.Suffices source) :=
  decidable_of_iff _ Stack.suffices_iff.symm

theorem Stack.Suffices.calls_of_parse {k : Stack} {source : String} {ss : List Stmt}
    (h : k.Suffices source) (hmagic : ∀ l ∈ Text.lines source, isMagic l = false)
    (hparse : parse 1 source.toList = .ok ss) :
    Flow.nestedBlock (some (Text.lines source)) ss ≤ k.calls := by
  have hcalls := h.calls
  rwa [blankMagic_eq_self hmagic, Code.ofPlain_of_ok hparse] at hcalls

namespace Flow

variable {c : Configuration} {source : String} {a : Analysis}

theorem analyzeCell_some (k : Stack) : analyzeCell c source (some k) =
    (analyzeCell c source).bind fun a => if k.Suffices source then .ok a else .error .tooDeep := by
  simp only [analyzeCell, Code.ofText, Stack.suffices_iff, Option.all_some, Option.all_none, if_true]
  by_cases hnull : (blankMagic source).toList.contains '\x00' = true
  · simp only [hnull, if_true]
    rfl
  · by_cases hparses : (Code.parsedTexts (blankMagic source)).all k.parses = true
    · simp only [hnull, hparses, if_true, true_and, decide_eq_true_eq]
      rfl
    · simp only [hnull, hparses]
      rfl

/-- Text without null characters has an analysis on an unlimited stack. -/
theorem exists_analyzeCell_of_noNull (hnull : '\x00' ∉ source.toList) :
    ∃ a, analyzeCell c source = .ok a :=
  ⟨_, analyzeCell_eq_ok.mpr ⟨_, Code.ofText_eq_ofPlain hnull, rfl⟩⟩

end Flow

end NotebookSlice
