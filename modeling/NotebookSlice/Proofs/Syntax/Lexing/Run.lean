import NotebookSlice.Proofs.Syntax.Lexing.Step

/-! # Runs of lexical analysis

The tokens of a text step by step. A text of whole lines that has tokens without a
fault is left fresh and outside brackets, so that any text may follow it.
-/

namespace NotebookSlice.Syntax.Lexer

open Text

/-- The tokens of a text from a state on, and the fault that ends them. -/
inductive Lexes : State → List Char → List Token → Option LexicalFault → Prop
  | done {s : State} {cs : List Char} : s.done cs = true → Lexes s cs [s.token .endmarker] none
  | fault {s : State} {cs : List Char} {f : LexicalFault} : s.done cs = false →
      step s cs = .error f → Lexes s cs [] (some f)
  | step {s s' : State} {cs rest : List Char} {ts us : List Token} {f : Option LexicalFault} :
      s.done cs = false → step s cs = .ok (ts, s', rest) → Lexes s' rest us f →
      Lexes s cs (ts ++ us) f

/-- Steps from one place in a text to another, with the tokens on the way. -/
inductive Runs : State → List Char → List Token → State → List Char → Prop
  | refl {s : State} {cs : List Char} : Runs s cs [] s cs
  | step {s s₁ s' : State} {cs cs₁ cs' : List Char} {ts us : List Token} : s.done cs = false →
      step s cs = .ok (ts, s₁, cs₁) → Runs s₁ cs₁ us s' cs' → Runs s cs (ts ++ us) s' cs'

variable {s s' : State} {cs rest : List Char} {ts us : List Token} {f : Option LexicalFault}

theorem done_eq_false_of_ne_nil (h : cs ≠ []) : s.done cs = false := by
  simp [State.done, h]

theorem Runs.lexes (h : Runs s cs ts s' rest) (hrest : Lexes s' rest us f) :
    Lexes s cs (ts ++ us) f := by
  induction h with
  | refl => exact hrest
  | step hdone hstep _ ih =>
    rw [List.append_assoc]
    exact .step hdone hstep (ih hrest)

theorem Lexes.unique {us : List Token} {f' : Option LexicalFault} (h : Lexes s cs ts f)
    (h' : Lexes s cs us f') : ts = us ∧ f = f' := by
  induction h generalizing us f' with
  | done hdone =>
    cases h' with
    | done => exact ⟨rfl, rfl⟩
    | fault hnot => rw [hdone] at hnot; cases hnot
    | step hnot => rw [hdone] at hnot; cases hnot
  | fault hnot hstep =>
    cases h' with
    | done hdone => rw [hdone] at hnot; cases hnot
    | fault _ hstep' =>
      rw [hstep] at hstep'
      cases hstep'
      exact ⟨rfl, rfl⟩
    | step _ hstep' => rw [hstep] at hstep'; cases hstep'
  | step hnot hstep _ ih =>
    cases h' with
    | done hdone => rw [hdone] at hnot; cases hnot
    | fault _ hstep' => rw [hstep] at hstep'; cases hstep'
    | step _ hstep' hrest =>
      rw [hstep] at hstep'
      cases hstep'
      obtain ⟨rfl, rfl⟩ := ih hrest
      exact ⟨rfl, rfl⟩

theorem of_step_nil (h : step s [] = .ok (ts, s', rest)) :
    s.fresh = true ∧ rest = [] ∧ s'.fresh = false ∧ s'.brackets = s.brackets := by
  unfold step at h
  split at h
  · rename_i hfresh
    simp only [lineStart, measure] at h
    have hcases : (s.enter []).brackets = s.brackets := rfl
    unfold lineHead at h
    split at h
    · cases ‹[] = _›
    · cases ‹[] = _›
    · split at h
      · split at h
        · rename_i hindent
          obtain ⟨stack, rfl⟩ := exists_of_indentation hindent
          cases h
          exact ⟨hfresh, rfl, rfl, rfl⟩
        · cases h
      · cases h
        exact ⟨hfresh, rfl, rfl, rfl⟩
  · cases h

theorem smaller_of_step (hcs : cs = [] ∨ Complete cs) (h : step s cs = .ok (ts, s', rest)) :
    s'.size rest < s.size cs ∧ (rest = [] ∨ Complete rest) := by
  rcases hcs with rfl | hcs
  · obtain ⟨hfresh, rfl, hfresh', -⟩ := of_step_nil h
    simp [State.size, hfresh, hfresh']
  · have htakes := takes_of_step hcs h
    exact ⟨htakes.smaller, htakes.whole.imp_left And.left⟩

theorem exists_lexes (hcs : cs = [] ∨ Complete cs) : ∃ ts f, Lexes s cs ts f := by
  induction hsize : s.size cs using Nat.strong_induction_on generalizing s cs with
  | _ n ih =>
    cases hdone : s.done cs with
    | true => exact ⟨_, _, .done hdone⟩
    | false =>
      cases hstep : step s cs with
      | error f => exact ⟨_, _, .fault hdone hstep⟩
      | ok x =>
        obtain ⟨ts, s', rest⟩ := x
        obtain ⟨hlt, hrest⟩ := smaller_of_step hcs hstep
        obtain ⟨us, f, hlexes⟩ := ih _ (hsize ▸ hlt) hrest rfl
        exact ⟨_, _, .step hdone hstep hlexes⟩

theorem loop_eq (h : Lexes s cs ts f) (hcs : cs = [] ∨ Complete cs) {fuel : Nat}
    (hfuel : s.size cs < fuel) (acc : Array Token) :
    loop fuel s cs acc = ⟨acc ++ ts.toArray, f⟩ := by
  induction h generalizing fuel acc with
  | @done s cs hdone =>
    obtain ⟨fuel, rfl⟩ : ∃ k, fuel = k + 1 := ⟨fuel - 1, by omega⟩
    simp [loop, hdone]
  | @fault s cs f hdone hstep =>
    obtain ⟨fuel, rfl⟩ : ∃ k, fuel = k + 1 := ⟨fuel - 1, by omega⟩
    simp [loop, hdone, hstep]
  | @step s s' cs rest ts us f hdone hstep _ ih =>
    obtain ⟨fuel, rfl⟩ : ∃ k, fuel = k + 1 := ⟨fuel - 1, by omega⟩
    obtain ⟨hlt, hrest⟩ := smaller_of_step hcs hstep
    simp only [loop, hdone, hstep, Bool.false_eq_true, if_false]
    rw [ih hrest (by omega), Lexed.mk.injEq]
    exact ⟨Array.ext' (by simp), rfl⟩

theorem complete_unifyLineEnds (text : List Char) : Complete (unifyLineEnds text) := by
  fun_induction unifyLineEnds text with
  | case1 => rfl
  | case2 cs ih => exact ih.append ['\n']
  | case3 => rfl
  | case4 cs _ _ ih => exact ih.append ['\n']
  | case5 => rfl
  | case6 c cs _ _ _ _ ih => exact ih.append [c]

theorem lex_eq {firstLine : Nat} {text : List Char}
    (h : Lexes (.start firstLine) (unifyLineEnds text) ts f) :
    lex firstLine text = ⟨ts.toArray, f⟩ := by
  rw [lex, loop_eq h (.inr (complete_unifyLineEnds text))]
  · simp
  · simp [State.size, State.start]

/-- Whole lines that have tokens without a fault are left fresh and outside brackets, whatever
follows them. -/
theorem Lexes.exists_runs (h : Lexes s cs ts none) (hcs : cs = [] ∧ s.fresh = true ∨ Complete cs) :
    ∃ us s' vs, ts = us ++ vs ∧ Lexes s' [] vs none ∧ s'.fresh = true ∧ s'.brackets = [] ∧
      s'.next = s.next + cs.count '\n' ∧ ∀ m, Runs s (cs ++ m) us s' m := by
  generalize hf : (none : Option LexicalFault) = f at h
  induction h with
  | done hdone =>
    rcases hcs with ⟨-, hfresh⟩ | hcs
    · simp [State.done, hfresh] at hdone
    · rw [done_eq_false_of_ne_nil hcs.ne_nil] at hdone
      cases hdone
  | fault => cases hf
  | @step s s₁ cs cs₁ ts us f hdone hstep hlexes ih =>
    subst hf
    rcases hcs with ⟨rfl, hfresh⟩ | hcs
    · obtain ⟨-, rfl, hfresh₁, hbrackets₁⟩ := of_step_nil hstep
      refine ⟨[], s, ts ++ us, rfl, .step hdone hstep hlexes, hfresh, ?_, rfl, fun _ => .refl⟩
      cases hlexes with
      | done hdone₁ => simpa [State.done, hfresh₁, hbrackets₁] using hdone₁
      | step _ hstep₁ =>
        obtain ⟨hfresh₂, -⟩ := of_step_nil hstep₁
        rw [hfresh₁] at hfresh₂
        cases hfresh₂
    · have htakes := takes_of_step hcs hstep
      obtain ⟨us', s', vs, rfl, hrest, hfresh', hbrackets', hline, hruns⟩ := ih htakes.whole rfl
      have hline₁ := htakes.line
      refine ⟨ts ++ us', s', vs, (List.append_assoc ..).symm, hrest, hfresh', hbrackets', ?_,
        fun m => ?_⟩
      · omega
      · refine .step (done_eq_false_of_ne_nil ?_) (htakes.append m) (hruns m)
        exact List.append_ne_nil_of_left_ne_nil hcs.ne_nil m

end NotebookSlice.Syntax.Lexer
