import NotebookSlice.Proofs.Syntax.Frame
import NotebookSlice.Proofs.Syntax.Lexing.Run

/-! # Layout tokens

Where a line starts outside brackets the last token is layout, and as many blocks
are open as there are indentations above the outermost one.
-/

namespace NotebookSlice.Syntax.Lexer

/-- What a step does to lines, blocks and brackets, with its tokens. -/
inductive Emits (s : State) (ts : List Token) (s' : State) : Prop
  | nothing : ts = [] → s'.indents = s.indents → s'.brackets = s.brackets →
      (s'.fresh = true → s.fresh = true ∨ s.brackets ≠ []) → Emits s ts s'
  | newline : ts = [s.token .newline] → s'.indents = s.indents → Emits s ts s'
  | indent (column : Nat × Nat) : ts = [s'.token .indent] → s'.indents = column :: s.indents →
      0 < column.1 → s'.fresh = false → Emits s ts s'
  | dedent (popped : List (Nat × Nat)) : popped ≠ [] →
      ts = popped.map (fun _ => s'.token .dedent) → s.indents = popped ++ s'.indents →
      s'.indents ≠ [] → s'.fresh = false → Emits s ts s'
  | token (t : Token) : s.fresh = false → ts = [t] → t.kind.isPlain = true →
      s'.indents = s.indents → s'.fresh = false → Emits s ts s'

variable {s s' : State} {cs rest : List Char} {ts : List Token}

theorem exists_of_dedent (column : Nat) (stack : List (Nat × Nat)) :
    ∃ popped, stack = popped ++ (dedent column stack).2 ∧
      popped.length = (dedent column stack).1 ∧ (stack ≠ [] → (dedent column stack).2 ≠ []) := by
  fun_induction dedent column stack with
  | case1 top next rest hlt n stack' heq ih =>
    obtain ⟨popped, happend, hlen, hne⟩ := ih
    rw [heq] at happend hlen hne
    exact ⟨top :: popped, by rw [happend]; rfl, by rw [List.length_cons, hlen],
      fun _ => hne (List.cons_ne_nil _ _)⟩
  | case2 => exact ⟨[], rfl, rfl, id⟩
  | case3 => exact ⟨[], rfl, rfl, id⟩

theorem emits_of_indentation {s₀ : State} {column : Nat × Nat} (hfresh : s.fresh = false)
    (hfresh₀ : s₀.fresh = true) (hindents₀ : s₀.indents = s.indents)
    (hbrackets₀ : s₀.brackets = s.brackets) (h : indentation s column = .ok (s', ts)) :
    Emits s₀ ts s' := by
  unfold indentation at h
  split at h
  · cases h
  · rename_i top topWide below hindents
    split at h
    · split at h
      · cases h
        exact .nothing rfl hindents₀.symm hbrackets₀.symm fun _ => .inl hfresh₀
      · cases h
    · split at h
      · rename_i hlt
        split at h
        · cases h
        · cases h
          refine .indent column rfl ?_ (by omega) hfresh
          rw [hindents₀]
      · obtain ⟨popped, happend, hlen, hne⟩ := exists_of_dedent column.1 s.indents
        simp only at h
        split at h
        · rename_i hhead
          cases h
          have hpopped : popped ≠ [] := by
            rintro rfl
            rw [hindents] at happend hhead
            rw [← List.nil_append (dedent _ _).2, ← happend] at hhead
            have := congrArg Prod.fst (Option.some.inj hhead)
            simp only at this
            omega
          refine .dedent popped hpopped ?_ (hindents₀.trans happend)
            (hne (by rw [hindents]; exact List.cons_ne_nil _ _)) hfresh
          rw [List.map_const', hlen]
          rfl
        · cases h

theorem exists_of_measure {n m k : Nat} {column : Nat × Nat}
    (h : measure s n m k cs = .ok (s', column, rest)) :
    ∃ j, s' = { s with line := s.line + j } := by
  fun_induction measure s n m k cs with
  | case1 => cases h; exact ⟨0, rfl⟩
  | case2 _ _ _ _ _ ih => exact ih h
  | case3 _ _ _ _ _ ih => exact ih h
  | case4 _ _ _ _ _ ih => exact ih h
  | case5 => cases h
  | case6 s _ _ _ _ _ ih =>
    obtain ⟨j, rfl⟩ := ih h
    exact ⟨1 + j, by simp only [Nat.add_assoc]⟩
  | case7 => cases h
  | case8 => cases h; exact ⟨0, rfl⟩

theorem emits_of_lineStart (hfresh : s.fresh = true) (h : lineStart s cs = .ok (ts, s', rest)) :
    Emits s ts s' := by
  unfold lineStart at h
  split at h
  · rename_i s₁ column cs₁ hmeasure
    obtain ⟨j, rfl⟩ := exists_of_measure hmeasure
    unfold lineHead at h
    split at h
    · cases h
      exact .nothing rfl rfl rfl fun _ => .inl hfresh
    · cases h
      exact .nothing rfl rfl rfl fun _ => .inl hfresh
    · split at h
      · split at h
        · rename_i hindent
          cases h
          refine emits_of_indentation ?_ hfresh ?_ ?_ hindent <;> rfl
        · cases h
      · cases h
        exact .nothing rfl rfl rfl fun _ => .inl hfresh
  · cases h

theorem eq_of_afterMark {c : Char} (h : afterMark s c = some s') :
    ∃ brackets, s' = { s with brackets := brackets } := by
  unfold afterMark afterBracket at h
  split at h
  · split at h
    · split at h
      · cases h
      · cases h
        exact ⟨_, rfl⟩
    · split at h
      · cases h
      · split at h
        · cases h
          exact ⟨_, rfl⟩
        · cases h
  · split at h
    · cases h
    · cases h
      exact ⟨_, rfl⟩

theorem exists_of_codeToken {c : Char} (h : codeToken s c cs = .ok (ts, s', rest)) :
    ∃ t, ts = [t] ∧ t.kind.isPlain = true ∧ t.line = s.line ∧ s'.indents = s.indents ∧
      s'.fresh = s.fresh := by
  have hstring {whole quoted : List Char} (h : stringToken s whole quoted = .ok (ts, s', rest)) :
      ∃ t, ts = [t] ∧ t.kind.isPlain = true ∧ t.line = s.line ∧ s'.indents = s.indents ∧
        s'.fresh = s.fresh := by
    unfold stringToken at h
    split at h
    · cases h
    · cases h
      exact ⟨_, rfl, rfl, rfl, rfl, rfl⟩
  unfold codeToken at h
  split at h
  · split at h
    · exact hstring h
    · unfold nameToken at h
      split at h
      · rename_i kind hkind
        cases h
        refine ⟨_, rfl, ?_, rfl, rfl, rfl⟩
        unfold nameKind at hkind
        split at hkind
        · split at hkind
          · cases hkind
            rfl
          · cases hkind
        · split at hkind <;> cases hkind <;> rfl
      · cases h
  · split at h
    · unfold numberToken at h
      split at h
      · cases h
      · cases h
        exact ⟨_, rfl, rfl, rfl, rfl, rfl⟩
    · split at h
      · exact hstring h
      · unfold punctToken at h
        split at h
        · cases h
          exact ⟨_, rfl, rfl, rfl, rfl, rfl⟩
        · split at h
          · rename_i hafter
            obtain ⟨brackets, rfl⟩ := eq_of_afterMark hafter
            cases h
            exact ⟨_, rfl, rfl, rfl, rfl, rfl⟩
          · cases h

theorem emits_of_step (h : step s cs = .ok (ts, s', rest)) : Emits s ts s' := by
  unfold step at h
  split at h
  · rename_i hfresh
    exact emits_of_lineStart hfresh h
  · rename_i hfresh
    have hfalse : s.fresh = false := by simpa using hfresh
    unfold inLine tokenStep at h
    split at h
    · cases h
    · cases h
      exact .nothing rfl rfl rfl .inl
    · cases h
      rcases eq_or_ne s.brackets [] with hempty | hopen
      · exact .newline (by simp [hempty]) rfl
      · exact .nothing (by simp [hopen]) rfl rfl fun _ => .inr hopen
    · split at h
      · cases h
      · cases h
        exact .nothing rfl rfl rfl .inl
    · cases h
    · obtain ⟨t, hts, hplain, -, hindents, hfresh'⟩ := exists_of_codeToken h
      exact .token t hfalse hts hplain hindents (hfresh'.trans hfalse)

theorem Lexes.ending (h : Lexes s cs ts none) (hcs : cs = [] ∨ Complete cs) :
    ∃ us e, ts = us ++ [e] ∧ e.kind = .endmarker ∧ (∀ t ∈ us.getLast?, t.isLayout = true) ∧
      (s.fresh = false ∧ Complete cs ∨ s.brackets ≠ [] → us ≠ []) := by
  generalize hf : (none : Option LexicalFault) = f at h
  induction h with
  | @done s cs hdone =>
    refine ⟨[], _, rfl, rfl, by simp, ?_⟩
    simp only [State.done, Bool.and_eq_true, List.isEmpty_iff] at hdone
    rintro (⟨-, hcomplete⟩ | hopen)
    · exact absurd hdone.1.2 hcomplete.ne_nil
    · exact absurd hdone.2 hopen
  | fault => cases hf
  | @step s s' cs rest ts us f hdone hstep _ ih =>
    subst hf
    obtain ⟨-, hrest⟩ := smaller_of_step hcs hstep
    obtain ⟨vs, e, rfl, he, hlast, hmore⟩ := ih hrest rfl
    have hinside (hfresh : s.fresh = false) (hfresh' : s'.fresh = false) : vs ≠ [] := by
      rcases hcs with rfl | hcs
      · rw [(of_step_nil hstep).1] at hfresh
        cases hfresh
      · rcases (takes_of_step hcs hstep).whole with ⟨-, hend⟩ | hcomplete
        · rw [hend] at hfresh'
          cases hfresh'
        · exact hmore (.inl ⟨hfresh', hcomplete⟩)
    refine ⟨ts ++ vs, e, (List.append_assoc ..).symm, he, ?_, fun hpending => ?_⟩
    · rcases eq_or_ne vs [] with rfl | hvs
      · rw [List.append_nil]
        cases emits_of_step hstep with
        | nothing hts => simp [hts]
        | newline hts => simp [hts, State.token, Token.isLayout]
        | indent column hts => simp [hts, State.token, Token.isLayout]
        | dedent popped _ hts =>
          intro t ht
          obtain ⟨-, -, rfl⟩ := List.mem_map.mp (hts ▸ List.mem_of_getLast? ht)
          rfl
        | token t hfresh _ _ _ hfresh' => exact absurd rfl (hinside hfresh hfresh')
      · rwa [List.getLast?_append_of_ne_nil _ hvs]
    · cases emits_of_step hstep with
      | nothing hts _ hbrackets hfresh =>
        refine List.append_ne_nil_of_right_ne_nil _ ?_
        rcases hpending with ⟨hline, -⟩ | hopen
        · cases hfresh' : s'.fresh with
          | false => exact hinside hline hfresh'
          | true =>
            refine hmore (.inr (hbrackets ▸ (hfresh hfresh').resolve_left ?_))
            simp [hline]
        · exact hmore (.inr (hbrackets ▸ hopen))
      | newline hts => simp [hts]
      | indent column hts => simp [hts]
      | dedent popped hpopped hts => simp [hts, hpopped]
      | token t _ hts => simp [hts]

end NotebookSlice.Syntax.Lexer
