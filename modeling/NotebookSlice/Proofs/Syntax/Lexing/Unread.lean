import NotebookSlice.Proofs.Syntax.Lexing.Thin

/-! # Lines without tokens

Nothing is left out of the tokens but blanks, comments, and the backslashes that join
lines. A line that no backslash joins to another one, and that no token lies on, has
no code.
-/

namespace NotebookSlice.Syntax.Lexer

variable {s s' : State} {cs rest : List Char} {ts : List Token}

/-- One line at most is read as layout, so whole lines before its end are none. -/
theorem eq_nil_of_complete {u a b : List Char} (hu : Complete u) (hcount : u.count '\n' ≤ 1)
    (ha : Complete a) (heq : u = a ++ b) : b = [] := by
  subst heq
  by_contra hb
  have hlast := List.count_pos_iff.mpr (List.mem_of_getLast? ha)
  have hlast' := List.count_pos_iff.mpr (List.mem_of_getLast? (hu.of_append hb))
  rw [List.count_append] at hcount
  omega

/-- A step reads up to the end of a line, or the line goes on with the next one. -/
theorem Reads.fresh_of_complete {u : List Char} (h : Reads s u ts s' rest) (hu : Complete u)
    (hjoin : OnJoins (fun n => n ≠ s.next + u.count '\n') s.next (u ++ rest)) :
    s'.fresh = true := by
  cases h with
  | idle hfresh => exact hfresh
  | head _ hlead =>
    exact absurd rfl (hjoin.of_lead hlead (List.mem_of_getLast? hu) (Nat.le_add_right _ _)
      (Nat.le_refl _))
  | finish => cases hu
  | comment _ hw hv =>
    have := List.mem_of_getLast? hu
    simp [hw.not_mem_newline, hv] at this
  | @join w rest _ _ =>
    refine absurd ?_ (hjoin w rest (by simp)).2
    simp [Nat.add_assoc]
  | newline => rfl
  | token _ _ htoken =>
    obtain ⟨v', d, rfl, hd⟩ := htoken.last
    rw [← List.append_assoc] at hu
    exact absurd (show d = '\n' by simpa [Complete] using hu) hd

/-- What a step reads up to the end of a line, if it begins at the line. -/
theorem Reads.idle_of_first {u w m : List Char} (h : Reads s u ts s' rest) (hfresh : s.fresh = true)
    (hw : '\n' ∉ w) (heq : u ++ rest = w ++ '\n' :: m)
    (hjoin : OnJoins (fun n => n ≠ s.next) s.next (u ++ rest)) :
    Idle w ∨ s'.fresh = false ∧ s'.line = s.line + 1 ∧
      ∃ c cs, rest = c :: cs ∧ startsCode c = true := by
  have hline {u v : List Char} (hjoin : OnJoins (fun n => n ≠ s.next) s.next (u ++ v))
      (hu : Lead u) : '\n' ∉ u := fun hmem =>
    absurd rfl (hjoin.of_lead hu hmem (Nat.le_refl _) (Nat.le_add_right _ _))
  cases h with
  | @idle u v _ _ hu hv hcomment =>
    left
    rw [List.append_assoc, List.append_assoc] at hjoin
    have hlead := hline hjoin hu
    have hone : '\n' ∉ u ++ v := fun hmem => (List.mem_append.mp hmem).elim hlead hv
    rw [List.append_assoc] at heq
    rw [← (line_unique hone hw heq).1]
    exact ⟨hone, u, v, rfl, hu.blanks hlead, hcomment⟩
  | @head u code _ _ c _ hu hc =>
    have hcount : u.count '\n' = 0 := List.count_eq_zero.mpr (hline hjoin hu)
    exact .inr ⟨rfl, by rw [hcount], c, _, rfl, hc⟩
  | finish => simp at heq
  | comment hnot | join hnot | newline hnot | token hnot =>
    rw [hfresh] at hnot
    cases hnot

/-- What a step reads beyond the end of a line is the rest of a token. -/
theorem Reads.exists_token {u a b : List Char} (h : Reads s u ts s' rest) (heq : u = a ++ b)
    (ha : Complete a) (hb : b ≠ [])
    (hjoin : OnJoins (fun n => n ≠ s.next + a.count '\n') s.next (u ++ rest)) :
    ∃ t, ts = [t] ∧ t.isLayout = false ∧ t.line = s.next ∧
      t.lastLine = s.next + u.count '\n' := by
  have hcount {w : List Char} (hw : '\n' ∉ w) : w.count '\n' = 0 := List.count_eq_zero.mpr hw
  have hends {w : List Char} (hw : '\n' ∉ w) (heq : w ++ ['\n'] = a ++ b) : b = [] :=
    eq_nil_of_complete (complete_newline.append w) (by simp [hcount hw]) ha heq
  have hplain {w : List Char} (hw : '\n' ∉ w) (heq : w = a ++ b) : b = [] :=
    absurd (heq ▸ List.mem_append_left b (List.mem_of_getLast? ha)) hw
  have hlead {u v : List Char}
      (hjoin : OnJoins (fun n => n ≠ s.next + a.count '\n') s.next (u ++ v)) (hu : Lead u)
      (hmem : '\n' ∈ u) (hle : a.count '\n' ≤ u.count '\n') : False :=
    hjoin.of_lead hu hmem (Nat.le_add_right _ _) (Nat.add_le_add_left hle _) rfl
  cases h with
  | @idle u v _ _ hu hv =>
    have hone : '\n' ∉ u ++ v := by
      rw [List.append_assoc, List.append_assoc] at hjoin
      refine fun hmem => hlead hjoin hu ((List.mem_append.mp hmem).resolve_right hv) ?_
      have hwhole : Complete (a ++ b) := heq ▸ complete_newline.append _
      have hlast := List.count_pos_iff.mpr (List.mem_of_getLast? (hwhole.of_append hb))
      have := congrArg (List.count '\n') heq
      simp only [List.count_append, hcount hv, List.count_singleton_self] at this
      omega
    exact absurd (hends hone heq) hb
  | head _ hu =>
    refine (hlead hjoin hu ?_ ?_).elim
    · exact heq ▸ List.mem_append_left b (List.mem_of_getLast? ha)
    · rw [heq, List.count_append]
      exact Nat.le_add_right _ _
  | finish => exact absurd (hplain List.not_mem_nil heq) hb
  | comment _ hw hv =>
    refine absurd (hplain ?_ heq) hb
    simp [hw.not_mem_newline, hv]
  | @join w _ _ hw =>
    refine absurd (hends (w := w ++ ['\\']) (by simp [hw.not_mem_newline]) ?_) hb
    simpa using heq
  | newline _ hw => exact absurd (hends hw.not_mem_newline heq) hb
  | @token w v _ t _ hfresh hw htoken =>
    have hn : s.next = s.line := if_neg (by simp [hfresh])
    refine ⟨t, rfl, ?_, htoken.line.trans hn.symm, ?_⟩
    · rw [Token.isLayout_eq, htoken.plain]
      rfl
    · rw [htoken.lastLine, hn, List.count_append, hcount hw.not_mem_newline, Nat.zero_add]

/-- A line that no token lies on, and that is joined to no other one, has no code. There are whole
lines `a` before it. -/
theorem Lexes.idle_of_unread (h : Lexes s cs ts none) (hcs : cs = [] ∨ Complete cs)
    {a w m : List Char} (hjoin : OnJoins (fun n => n ≠ s.next + a.count '\n') s.next cs)
    (heq : cs = a ++ (w ++ '\n' :: m)) (ha : a = [] ∧ s.fresh = true ∨ Complete a)
    (hw : '\n' ∉ w)
    (hunread : ∀ t ∈ ts, t.isLayout = false → t.line ≤ s.next + a.count '\n' →
      t.lastLine < s.next + a.count '\n') : Idle w := by
  generalize hf : (none : Option LexicalFault) = f at h
  induction h generalizing a with
  | done hdone => simp [State.done, heq] at hdone
  | fault => cases hf
  | @step s s' cs rest ts us f hdone hstep hlexes ih =>
    subst hf
    have hcomplete : Complete cs := hcs.resolve_left (by simp [heq])
    have hrest := (smaller_of_step hcs hstep).2
    obtain ⟨u, rfl, hreads, -⟩ := reading_of_step hcs hstep
    have hnext := next_of_step hcomplete hstep
    rcases ha with ⟨rfl, hfresh⟩ | ha
    · refine (hreads.idle_of_first hfresh hw heq (by simpa using hjoin)).resolve_right ?_
      rintro ⟨hfresh', hline, c, code, rfl, hc⟩
      obtain ⟨v, t, us', s'', rest', rfl, -, htoken, -⟩ := hlexes.exists_token hfresh' hc
        (hrest.resolve_left (List.cons_ne_nil c code))
      have hn : s.next = s.line + 1 := if_pos hfresh
      have hlayout : t.isLayout = false := by
        rw [Token.isLayout_eq, htoken.plain]
        rfl
      have := hunread t (by simp) hlayout (by simp [htoken.line, hline, hn])
      simp only [htoken.lastLine, hline, hn, List.count_nil] at this
      omega
    · have hafter {b : List Char} (hb : a = u ++ b) (heq' : rest = b ++ (w ++ '\n' :: m))
          (hwhole : b = [] ∧ s'.fresh = true ∨ Complete b) : Idle w := by
        have hline : s'.next + b.count '\n' = s.next + a.count '\n' := by
          rw [hnext, hb, List.count_append, Nat.add_assoc]
        exact ih hrest (hline ▸ hjoin.of_step hcs hstep) heq' hwhole
          (hline ▸ fun t ht => hunread t (List.mem_append_right ts ht)) rfl
      have hfresh (hu : u = a) : s'.fresh = true :=
        hreads.fresh_of_complete (hu ▸ ha) (hu ▸ hjoin)
      rcases List.append_eq_append_iff.mp heq with ⟨b, hb, heq'⟩ | ⟨b, hb, heq'⟩
      · refine hafter hb heq' ?_
        rcases eq_or_ne b [] with rfl | hne
        · rw [List.append_nil] at hb
          exact .inl ⟨rfl, hfresh hb.symm⟩
        · exact .inr ((hb ▸ ha).of_append hne)
      · rcases eq_or_ne b [] with rfl | hne
        · rw [List.append_nil] at hb
          exact hafter (b := []) (by rw [hb, List.append_nil]) heq'.symm (.inl ⟨rfl, hfresh hb⟩)
        · obtain ⟨t, rfl, hlayout, hline, hlast⟩ := hreads.exists_token hb ha hne hjoin
          have := hunread t (by simp) hlayout (by omega)
          rw [hlast, hb, List.count_append] at this
          omega

/-- The last line of a token has a part of it. -/
theorem Lexes.exists_last (h : Lexes s cs ts none) (hcs : cs = [] ∨ Complete cs) {t : Token}
    (ht : t ∈ ts) (hplain : t.isLayout = false) :
    ∃ a c b, cs = a ++ c :: b ∧ c ≠ '\n' ∧ t.lastLine = s.next + a.count '\n' := by
  generalize hf : (none : Option LexicalFault) = f at h
  induction h with
  | done =>
    obtain rfl := List.mem_singleton.mp ht
    cases hplain
  | fault => cases hf
  | @step s s' cs rest ts us f hdone hstep hlexes ih =>
    subst hf
    obtain ⟨u, rfl, hreads, -⟩ := reading_of_step hcs hstep
    rcases List.mem_append.mp ht with ht | ht
    · have hmargin {n d : ℕ} (h : ∀ t ∈ ts, IsMargin n d t) : False := by
        rw [(h t ht).isLayout] at hplain
        cases hplain
      cases hreads with
      | idle | comment | join => cases ht
      | head _ _ _ h => exact (hmargin h).elim
      | finish _ h => exact (hmargin h).elim
      | newline =>
        split at ht
        · obtain rfl := List.mem_singleton.mp ht
          cases hplain
        · cases ht
      | @token w v _ t' _ hfresh hw htoken =>
        obtain rfl := List.mem_singleton.mp ht
        obtain ⟨v', c, rfl, hc⟩ := htoken.last
        refine ⟨w ++ v', c, rest, by simp, hc, ?_⟩
        rw [htoken.lastLine, show s.next = s.line from if_neg (by simp [hfresh])]
        simp [List.count_append, List.count_eq_zero.mpr hw.not_mem_newline, hc]
    · obtain ⟨a, c, b, rfl, hc, hlast⟩ := ih (smaller_of_step hcs hstep).2 ht rfl
      refine ⟨u ++ a, c, b, by simp, hc, ?_⟩
      rw [hlast, next_of_step (hcs.resolve_left (by simp)) hstep, List.count_append,
        Nat.add_assoc]

end NotebookSlice.Syntax.Lexer
