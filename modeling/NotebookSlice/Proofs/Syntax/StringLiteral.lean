import NotebookSlice.Proofs.Syntax.Alike
import NotebookSlice.Syntax.StringLiteral

/-! # String literals on other lines

The value of adjacent literals depends on their lines only in the lines of the
expressions in it.
-/

namespace NotebookSlice.Syntax

open List (Forall₂)

variable {ε α β γ δ : Type}

/-- Where the left side has a value the right side has one that is related to it. -/
def Carries (R : α → β → Prop) (x : Except ε α) (y : Except ε β) : Prop :=
  ∀ a, x = .ok a → ∃ b, y = .ok b ∧ R a b

namespace Carries

variable {R : α → β → Prop} {S : γ → δ → Prop} {x : Except ε α} {y : Except ε β}

theorem ok {a : α} {b : β} (h : R a b) : Carries (ε := ε) R (.ok a) (.ok b) := by
  rintro _ ⟨⟩
  exact ⟨b, rfl, h⟩

theorem error {e : ε} {y : Except ε β} : Carries R (.error e) y := fun _ h => nomatch h

theorem ite {c : Prop} [Decidable c] {x' : Except ε α} {y' : Except ε β} (h : Carries R x y)
    (h' : Carries R x' y') : Carries R (if c then x else x') (if c then y else y') := by
  split
  · exact h
  · exact h'

theorem bind {f : α → Except ε γ} {f' : β → Except ε δ} (h : Carries R x y)
    (hf : ∀ a b, R a b → Carries S (f a) (f' b)) : Carries S (x >>= f) (y >>= f') := by
  intro c hc
  cases x with
  | error e => cases hc
  | ok a =>
    obtain ⟨b, rfl, hR⟩ := h a rfl
    exact hf a b hR c hc

theorem mapError {ε' : Type} {f f' : ε → ε'} (h : Carries R x y) :
    Carries R (x.mapError f) (y.mapError f') := by
  intro a ha
  cases x with
  | error e => cases ha
  | ok a' =>
    obtain ⟨b, rfl, hR⟩ := h a' rfl
    cases ha
    exact ⟨b, rfl, hR⟩

theorem foldlM {f : α → γ → Except ε α} {f' : β → δ → Except ε β}
    (h : ∀ a b c d, R a b → S c d → Carries R (f a c) (f' b d)) {cs : List γ} {ds : List δ}
    (hcs : Forall₂ S cs ds) {a : α} {b : β} (hab : R a b) :
    Carries R (cs.foldlM f a) (ds.foldlM f' b) := by
  induction hcs generalizing a b with
  | nil => exact .ok hab
  | cons hc _ ih =>
    rw [List.foldlM_cons, List.foldlM_cons]
    exact .bind (h _ _ _ _ hab hc) fun _ _ hR => ih hR

end Carries

namespace StringLiteral

variable {same : Nat → Nat → Prop} {read read' : FieldReader}

/-- The parts of two templates, with the lines after them. -/
structure SameParts (same : Nat → Nat → Prop) (x y : List Expr × Nat × List Char) : Prop where
  parts : Forall₂ (Expr.Alike same) x.1 y.1
  last : same x.2.1 y.2.1
  rest : x.2.2 = y.2.2

/-- The format specifications of two fields, with the lines after them. -/
structure SameSpec (same : Nat → Nat → Prop) (x y : Option Expr × Nat × List Char) : Prop where
  spec : Option.Rel (Expr.Alike same) x.1 y.1
  last : same x.2.1 y.2.1
  rest : x.2.2 = y.2.2

theorem carries_closing {parts parts' : List Expr} {e e' : Expr} {rest : List Char}
    {more more' : List Char → Except Misplaced (List Expr × Nat × List Char)}
    (hparts : Forall₂ (Expr.Alike same) parts parts') (he : Expr.Alike same e e')
    (hmore : ∀ r, Carries (SameParts same) (more r) (more' r)) :
    Carries (SameParts same)
      (match rest with
        | '}' :: r => do
          let (after, last, rest) ← more r
          return (parts ++ e :: after, last, rest)
        | _ => .error .here)
      (match rest with
        | '}' :: r => do
          let (after, last, rest) ← more' r
          return (parts' ++ e' :: after, last, rest)
        | _ => .error .here) := by
  split
  · exact .bind (hmore _) fun _ _ h =>
      .ok ⟨List.rel_append hparts (.cons he h.parts), h.last, h.rest⟩
  · exact .error

theorem templateParts_carries (hadd : ∀ {m n : Nat}, same m n → ∀ k, same (m + k) (n + k))
    (hread : ∀ {l l' : Nat} {text : List Char}, same l l' →
      Carries (Expr.Alike same) (read l text) (read' l' text))
    (raw : Bool) (fuel : Nat) : ∀ {depth l l' : Nat} {cs : List Char}, same l l' →
      Carries (SameParts same) (templateParts read raw fuel depth l cs)
        (templateParts read' raw fuel depth l' cs) := by
  induction fuel with
  | zero => exact fun _ => .error
  | succ fuel ih =>
    intro depth l l' cs hl
    unfold templateParts
    cases literalRun raw (depth = 0) false cs with
    | none => exact .error
    | some run =>
      simp only
      split
      · exact .error
      · have hnext := hadd hl (newlines run.text)
        have hliteral : Forall₂ (Expr.Alike same)
            (if run.text.isEmpty then [] else [Expr.literal l (String.ofList run.text)])
            (if run.text.isEmpty then [] else [Expr.literal l' (String.ofList run.text)]) := by
          split
          · exact .nil
          · exact .cons (.literal hl) .nil
        split
        · exact .bind (ih hnext) fun _ _ h =>
            .ok ⟨List.rel_append hliteral h.parts, h.last, h.rest⟩
        · split
          · split
            · exact .error
            · split
              · exact .error
              · rename_i source after _
                split
                · exact .error
                · refine .bind (.mapError (hread hnext)) fun value value' hvalue =>
                    .bind (R := Eq) (fun a h => ⟨a, h, rfl⟩) ?_
                  rintro ⟨conversion, after⟩ _ rfl
                  simp only
                  split
                  · split
                    · exact .error
                    · refine .bind (ih (hadd (hadd hnext _) _)) fun x x' h =>
                        .bind (R := SameSpec same)
                          (.ok ⟨.some (.template hl h.parts), h.last, h.rest⟩) ?_
                      rintro ⟨spec, last, rest⟩ ⟨spec', last', _⟩ ⟨hspec, hlast, rfl⟩
                      exact carries_closing hliteral (.field hnext hvalue hspec) fun _ => ih hlast
                  · refine .bind (R := SameSpec same)
                      (.ok ⟨.none, hadd (hadd hnext _) _, rfl⟩) ?_
                    rintro ⟨spec, last, rest⟩ ⟨spec', last', _⟩ ⟨hspec, hlast, rfl⟩
                    exact carries_closing hliteral (.field hnext hvalue hspec) fun _ => ih hlast
          · exact .ok ⟨hliteral, hnext, rfl⟩

/-- What has been put together from some literals. -/
structure SameProgress (same : Nat → Nat → Prop) (x y : Bool × List Expr) : Prop where
  template : x.1 = y.1
  parts : Forall₂ (Expr.Alike same) x.2 y.2

theorem value_carries (hadd : ∀ {m n : Nat}, same m n → ∀ k, same (m + k) (n + k))
    (hread : ∀ {l l' : Nat} {text : List Char}, same l l' →
      Carries (Expr.Alike same) (read l text) (read' l' text))
    {literals literals' : List (Nat × List Char)}
    (h : Forall₂ (SameText same) literals literals') (hne : literals ≠ []) :
    Carries (Expr.Alike same) (value read literals) (value read' literals') := by
  have htexts : literals'.map (·.2) = literals.map (·.2) := by
    clear hne
    induction h with
    | nil => rfl
    | cons h _ ih => cases h with | mk => rw [List.map_cons, List.map_cons, ih]
  cases h with
  | nil => exact absurd rfl hne
  | @cons x x' xs xs' hx hxs =>
    cases hx with
    | @mk l l' text hl =>
      unfold value
      refine .bind (R := SameProgress same) (.foldlM ?_ (.cons ⟨hl⟩ hxs) ⟨rfl, .nil⟩) ?_
      · rintro ⟨template, parts⟩ ⟨_, parts'⟩ _ _ ⟨rfl, hparts⟩ ⟨hl⟩
        exact .ite .error (.ite .error (.ite .error (.ite
          (.bind (templateParts_carries @hadd @hread _ _ hl) fun _ _ h =>
            .ok ⟨rfl, List.rel_append hparts h.parts⟩)
          (.ok ⟨rfl, List.rel_append hparts (.cons (.literal hl) .nil)⟩))))
      · rintro ⟨template, parts⟩ ⟨_, parts'⟩ ⟨rfl, hparts⟩
        simp only
        split
        · exact .ok (.template hl hparts)
        · rw [htexts]
          exact .ok (.literal hl)

end StringLiteral

end NotebookSlice.Syntax
