import NotebookSlice.Proofs.Syntax.Lexing.Layout

/-! # Lexical analysis on other lines

The lines of a state play no role in what is read. Two states that differ in them
read the same tokens of a text, on other lines.
-/

namespace NotebookSlice.Syntax.Lexer

open Text

/-- States that differ in lines only. -/
structure State.Alike (s s' : State) : Prop where
  fresh : s'.fresh = s.fresh
  indents : s'.indents = s.indents
  brackets : s'.brackets.map Prod.fst = s.brackets.map Prod.fst

/-- Both fail, or both give the same up to lines. -/
inductive Step.Alike : Step → Step → Prop
  | error {f f' : LexicalFault} : Step.Alike (.error f) (.error f')
  | ok {ts ts' : List Token} {s s' : State} {rest : List Char} :
      ts'.map Token.kind = ts.map Token.kind → s.Alike s' →
      Step.Alike (.ok (ts, s, rest)) (.ok (ts', s', rest))

variable {s s' : State}

namespace State.Alike

theorem refl (s : State) : s.Alike s := ⟨rfl, rfl, rfl⟩

variable (h : s.Alike s')
include h

theorem length_brackets : s'.brackets.length = s.brackets.length := by
  simpa using congrArg List.length h.brackets

theorem isEmpty_brackets : s'.brackets.isEmpty = s.brackets.isEmpty := by
  simpa using congrArg List.isEmpty h.brackets

theorem done (cs : List Char) : s'.done cs = s.done cs := by
  rw [State.done, State.done, h.fresh, h.isEmpty_brackets]

theorem measure (n m k : Nat) (cs : List Char) :
    (∃ f f', Lexer.measure s n m k cs = .error f ∧ Lexer.measure s' n m k cs = .error f') ∨
    ∃ t t' column rest, Lexer.measure s n m k cs = .ok (t, column, rest) ∧
      Lexer.measure s' n m k cs = .ok (t', column, rest) ∧ t.Alike t' := by
  fun_induction Lexer.measure s n m k cs generalizing s' with
  | case1 => exact .inr ⟨_, _, _, _, rfl, rfl, h⟩
  | case2 _ _ _ _ _ ih => exact ih h
  | case3 _ _ _ _ _ ih => exact ih h
  | case4 _ _ _ _ _ ih => exact ih h
  | case5 _ _ _ _ _ hempty =>
    exact .inl ⟨_, _, rfl, by rw [Lexer.measure, if_pos hempty]⟩
  | case6 _ _ _ _ _ hmore ih =>
    rw [Lexer.measure, if_neg hmore]
    exact ih ⟨h.fresh, h.indents, h.brackets⟩
  | case7 _ _ _ _ _ _ _ _ _ _ hbackslash =>
    refine .inl ⟨_, s'.yielding, rfl, ?_⟩
    rw [Lexer.measure.eq_6 _ _ _ _ _ _ ‹_› ‹_› ‹_› ‹_›, if_pos hbackslash]
  | case8 _ _ _ _ _ _ _ _ _ _ hother =>
    refine .inr ⟨_, s', _, _, rfl, ?_, h⟩
    rw [Lexer.measure.eq_6 _ _ _ _ _ _ ‹_› ‹_› ‹_› ‹_›, if_neg hother]

theorem indentation (column : Nat × Nat) :
    (∃ f f', Lexer.indentation s column = .error f ∧ Lexer.indentation s' column = .error f') ∨
    ∃ t t' ts ts', Lexer.indentation s column = .ok (t, ts) ∧
      Lexer.indentation s' column = .ok (t', ts') ∧ t.Alike t' ∧
      ts'.map Token.kind = ts.map Token.kind := by
  unfold Lexer.indentation
  rw [h.indents]
  cases s.indents with
  | nil => exact .inl ⟨_, _, rfl, rfl⟩
  | cons top below =>
    simp only
    split
    · split
      · exact .inr ⟨_, _, _, _, rfl, rfl, h, rfl⟩
      · exact .inl ⟨_, _, rfl, rfl⟩
    · split
      · split
        · exact .inl ⟨_, _, rfl, rfl⟩
        · exact .inr ⟨_, _, _, _, rfl, rfl, ⟨h.fresh, rfl, h.brackets⟩, rfl⟩
      · split
        · refine .inr ⟨_, _, _, _, rfl, rfl, ⟨h.fresh, rfl, h.brackets⟩, ?_⟩
          rw [List.map_replicate, List.map_replicate]
          rfl
        · exact .inl ⟨_, _, rfl, rfl⟩

theorem lineHead (column : Nat × Nat) (rest : List Char) :
    Step.Alike (Lexer.lineHead s column rest) (Lexer.lineHead s' column rest) := by
  unfold Lexer.lineHead
  split
  · exact .ok rfl ⟨rfl, h.indents, h.brackets⟩
  · exact .ok rfl ⟨rfl, h.indents, h.brackets⟩
  · rw [h.isEmpty_brackets]
    split
    · rcases h.indentation column with ⟨f, f', hl, hr⟩ | ⟨t, t', ts, ts', hl, hr, ht, hkinds⟩
      · rw [hl, hr]
        exact .error
      · rw [hl, hr]
        exact .ok hkinds ht
    · exact .ok rfl h

theorem lineStart (cs : List Char) : Step.Alike (Lexer.lineStart s cs) (Lexer.lineStart s' cs) := by
  have henter : (s.enter cs).Alike (s'.enter cs) := ⟨rfl, h.indents, h.brackets⟩
  unfold Lexer.lineStart
  rcases henter.measure 0 0 0 cs with ⟨f, f', hl, hr⟩ | ⟨t, t', column, rest, hl, hr, ht⟩
  · rw [hl, hr]
    exact .error
  · rw [hl, hr]
    exact ht.lineHead column rest

theorem stringToken (whole quoted : List Char) :
    Step.Alike (Lexer.stringToken s whole quoted) (Lexer.stringToken s' whole quoted) := by
  unfold Lexer.stringToken
  split
  · exact .error
  · exact .ok rfl ⟨h.fresh, h.indents, h.brackets⟩

theorem afterMark (c : Char) :
    (Lexer.afterMark s c = none ∧ Lexer.afterMark s' c = none) ∨
    ∃ t t', Lexer.afterMark s c = some t ∧ Lexer.afterMark s' c = some t' ∧ t.Alike t' := by
  have hlength := h.length_brackets
  obtain ⟨line, fresh, indents, brackets⟩ := s
  obtain ⟨line', fresh', indents', brackets'⟩ := s'
  obtain ⟨rfl, rfl, hbrackets⟩ := h
  simp only at hbrackets hlength
  unfold Lexer.afterMark afterBracket
  simp only [hlength]
  split
  · split
    · split
      · exact .inl ⟨rfl, rfl⟩
      · exact .inr ⟨_, _, rfl, rfl, rfl, rfl, by simp [hbrackets]⟩
    · cases brackets with
      | nil =>
        rw [List.map_nil, List.map_eq_nil_iff] at hbrackets
        subst hbrackets
        exact .inl ⟨rfl, rfl⟩
      | cons b below =>
        obtain ⟨b', below', rfl⟩ : ∃ b' below', brackets' = b' :: below' :=
          List.exists_cons_of_length_pos (by simp [hlength])
        obtain ⟨hfst, hbelow⟩ := List.cons.inj hbrackets
        simp only [hfst]
        split
        · exact .inr ⟨_, _, rfl, rfl, rfl, rfl, hbelow⟩
        · exact .inl ⟨rfl, rfl⟩
  · split
    · exact .inl ⟨rfl, rfl⟩
    · exact .inr ⟨_, _, rfl, rfl, rfl, rfl, hbrackets⟩

theorem punctToken (c : Char) (cs : List Char) :
    Step.Alike (Lexer.punctToken s c cs) (Lexer.punctToken s' c cs) := by
  unfold Lexer.punctToken
  split
  · exact .ok rfl h
  · rcases h.afterMark c with ⟨hl, hr⟩ | ⟨t, t', hl, hr, ht⟩
    · rw [hl, hr]
      exact .error
    · rw [hl, hr]
      exact .ok rfl ht

theorem codeToken (c : Char) (more : List Char) :
    Step.Alike (Lexer.codeToken s c more) (Lexer.codeToken s' c more) := by
  unfold Lexer.codeToken
  split
  · split
    · exact h.stringToken _ _
    · unfold nameToken
      split
      · exact .ok rfl h
      · exact .error
  · split
    · unfold numberToken
      split
      · exact .error
      · exact .ok rfl h
    · split
      · exact h.stringToken _ _
      · exact h.punctToken c more

theorem step (cs : List Char) : Step.Alike (Lexer.step s cs) (Lexer.step s' cs) := by
  unfold Lexer.step
  rw [h.fresh]
  split
  · exact h.lineStart cs
  · unfold inLine tokenStep
    split
    · exact .error
    · exact .ok rfl h
    · refine .ok ?_ ⟨rfl, h.indents, h.brackets⟩
      rw [h.isEmpty_brackets]
      split <;> rfl
    · split
      · exact .error
      · exact .ok rfl ⟨h.fresh, h.indents, h.brackets⟩
    · exact .error
    · exact h.codeToken _ _

end State.Alike

theorem Lexes.exists_alike {cs : List Char} {ts : List Token} {f : Option LexicalFault}
    (hlexes : Lexes s cs ts f) (h : s.Alike s') : ∃ ts' f', Lexes s' cs ts' f' ∧
      ts'.map Token.kind = ts.map Token.kind ∧ f'.isSome = f.isSome := by
  induction hlexes generalizing s' with
  | done hdone => exact ⟨_, _, .done ((h.done _).trans hdone), rfl, rfl⟩
  | @fault s cs f hdone hstep =>
    have hsteps := h.step cs
    rw [hstep] at hsteps
    generalize hright : Lexer.step s' cs = r at hsteps
    cases hsteps with
    | error => exact ⟨_, _, .fault ((h.done _).trans hdone) hright, rfl, rfl⟩
  | @step s₁ s₂ cs rest ts us f hdone hstep _ ih =>
    have hsteps := h.step cs
    rw [hstep] at hsteps
    generalize hright : Lexer.step s' cs = r at hsteps
    cases hsteps with
    | ok hkinds ht =>
      obtain ⟨us', f', hus, hmore, hfault⟩ := ih ht
      refine ⟨_, f', .step ((h.done _).trans hdone) hright hus, ?_, hfault⟩
      rw [List.map_append, List.map_append, hkinds, hmore]

end NotebookSlice.Syntax.Lexer
