import NotebookSlice.Proofs.Syntax.Lexing.Order

/-! # Words that begin a line

A word after layout is the first of its line. If a colon comes next, outside
brackets, it stands on the same line with nothing but blanks before it, unless a
backslash joins the line of the word to another one.
-/

namespace NotebookSlice.Syntax.Lexer

open Text

variable {P : Nat → Prop} {s : State} {cs : List Char} {ts us vs rest : List Token} {t t' : Token}

/-- The text begins with a word and a colon, up to blanks. -/
def BeginsClause (k : Keyword) (cs : List Char) : Prop :=
  ∃ w v w' rest, cs = w ++ v ++ w' ++ ':' :: rest ∧ Blanks w ∧ Blanks w' ∧
    Keyword.ofSpelling? v = some k

theorem not_mem_of_ofSpelling? {v : List Char} {k : Keyword} (h : Keyword.ofSpelling? v = some k) :
    '\n' ∉ v := by
  rw [← Keyword.spelling_of_ofSpelling? h]
  cases k <;> decide

/-- A colon that comes next is the next character that is not blank. -/
theorem Lexes.exists_colon (h : Lexes s cs (t :: us) none) (hfresh : s.fresh = false)
    (hempty : s.brackets = []) (hcs : Complete cs) (hjoin : OnJoins P s.next cs)
    (ht : t.kind = .punct .colon) :
    (∃ w rest, cs = w ++ ':' :: rest ∧ Blanks w) ∨ P s.line := by
  have hlayout : t.isLayout = false := by rw [Token.isLayout_eq, ht]; rfl
  generalize hts : t :: us = ts, hf : (none : Option LexicalFault) = f at h
  induction h with
  | done hdone =>
    obtain ⟨rfl, -⟩ := List.cons.inj hts
    cases ht
  | fault => cases hf
  | @step s s' cs rest ts us' f hdone hstep hlexes ih =>
    subst hf
    obtain ⟨u, rfl, hreads, -⟩ := reading_of_step (.inr hcs) hstep
    cases hreads with
    | idle hfresh' | head hfresh' | finish hfresh' =>
      rw [hfresh] at hfresh'
      cases hfresh'
    | @comment w v rest _ hw hv =>
      have hcomplete := hcs.of_append (List.cons_ne_nil '\n' rest)
      refine (ih hfresh hempty hcomplete (hjoin.of_step (.inr hcs) hstep) hts rfl).imp_left ?_
      rintro ⟨w', rest', heq, hw'⟩
      cases w' with
      | nil => simp at heq
      | cons d w' =>
        rw [← (List.cons.inj heq).1] at hw'
        exact absurd List.mem_cons_self hw'.not_mem_newline
    | @join w rest _ hw =>
      have hcount : w.count '\n' = 0 := List.count_eq_zero.mpr hw.not_mem_newline
      have hn : s.next = s.line := if_neg (by simp [hfresh])
      exact .inr (by simpa [hn, hcount] using (hjoin w rest (by simp)).1)
    | newline =>
      simp only [hempty, List.isEmpty_nil, if_true] at hts
      obtain ⟨rfl, -⟩ := List.cons.inj hts
      cases ht
    | @token w v _ t' _ _ hw htoken =>
      obtain ⟨rfl, -⟩ := List.cons.inj hts
      exact .inl ⟨w, rest, by rw [htoken.colon ht]; simp, hw⟩

theorem exists_of_layout_append (h : ts ++ us = vs ++ t :: rest) (hts : ∀ l ∈ ts, l.isLayout = true)
    (ht : t.isLayout = false) : ∃ as, vs = ts ++ as ∧ us = as ++ t :: rest := by
  induction ts generalizing vs with
  | nil => exact ⟨vs, rfl, h⟩
  | cons l ts ih =>
    obtain ⟨hl, hts⟩ := List.forall_mem_cons.mp hts
    cases vs with
    | nil =>
      rw [(List.cons.inj h).1, ht] at hl
      cases hl
    | cons v vs =>
      obtain ⟨rfl, hrest⟩ := List.cons.inj h
      obtain ⟨as, rfl, rfl⟩ := ih hrest hts
      exact ⟨as, rfl, rfl⟩

theorem Lexes.exists_clause (h : Lexes s cs ts none) (hcs : cs = [] ∨ Complete cs)
    (hjoin : OnJoins P s.next cs) {k : Keyword} (hts : ts = us ++ t :: t' :: vs)
    (ht : t.kind = .keyword k) (ht' : t'.kind = .punct .colon) (hdepth : t.depth = 0)
    (hlayout : us = [] ∧ s.fresh = true ∨ ∃ l ∈ us.getLast?, l.isLayout = true) :
    (∃ m line, cs = m ++ line ∧ BeginsClause k line ∧ t.line = s.next + m.count '\n' ∧
      (m = [] ∧ s.fresh = true ∨ Complete m)) ∨ P t.line := by
  have htplain : t.isLayout = false := by rw [Token.isLayout_eq, ht]; rfl
  have hplain : t'.isLayout = false := by rw [Token.isLayout_eq, ht']; rfl
  generalize hf : (none : Option LexicalFault) = f at h
  induction h generalizing us with
  | done hdone =>
    have hlength := congrArg List.length hts
    simp only [List.length_append, List.length_cons, List.length_nil] at hlength
    omega
  | fault => cases hf
  | @step s s' cs rest ts ts' f hdone hstep hlexes ih =>
    subst hf
    obtain ⟨u, rfl, hreads, -⟩ := reading_of_step hcs hstep
    have hrest := (smaller_of_step hcs hstep).2
    have hlater {us' : List Token} (hts' : ts' = us' ++ t :: t' :: vs)
        (hlayout' : us' = [] ∧ s'.fresh = true ∨ ∃ l ∈ us'.getLast?, l.isLayout = true)
        (hnext : s'.next = s.next + u.count '\n')
        (hbegin : s'.fresh = true → s.fresh = true ∧ u = [] ∨ Complete u) :
        (∃ m line, u ++ rest = m ++ line ∧ BeginsClause k line ∧
          t.line = s.next + m.count '\n' ∧ (m = [] ∧ s.fresh = true ∨ Complete m)) ∨
          P t.line := by
      refine (ih hrest (hjoin.of_step hcs hstep) hts' hlayout' rfl).imp_left ?_
      rintro ⟨m, line, rfl, hline, hcount, hm⟩
      refine ⟨u ++ m, line, (List.append_assoc ..).symm, hline, ?_, ?_⟩
      · rw [hcount, hnext, List.count_append, Nat.add_assoc]
      · rcases hm with ⟨rfl, hfresh'⟩ | hm
        · rw [List.append_nil]
          exact (hbegin hfresh').imp And.symm id
        · exact .inr (hm.append u)
    have hlast {us' as : List Token} (hus : us = us' ++ as) (has : as ≠ []) :
        ∃ l ∈ as.getLast?, l.isLayout = true := by
      rw [hus, List.getLast?_append_of_ne_nil _ has] at hlayout
      exact hlayout.resolve_left fun h => has (List.append_eq_nil_iff.mp h.1).2
    cases hreads with
    | @idle u v _ hfresh hu hv =>
      have hcount : v.count '\n' = 0 := List.count_eq_zero.mpr hv
      refine hlater hts hlayout ?_ fun _ => .inr (complete_newline.append _)
      simp only [State.next, hfresh, if_true, List.count_append, hcount, List.count_singleton_self]
      omega
    | @head u code _ stack c hfresh hu hc hmargin =>
      have hnext : s.next = s.line + 1 := if_pos hfresh
      have hcomplete : Complete (c :: code) := hrest.resolve_left (List.cons_ne_nil c code)
      obtain ⟨as, hus, hts'⟩ :=
        exists_of_layout_append hts (fun l hl => (hmargin l hl).isLayout) htplain
      rcases eq_or_ne as [] with rfl | has
      · -- the word is the first token of this line
        obtain ⟨v, t₁, us', s'', rest', hus', hcode, htoken, hcomplete', hmore⟩ :=
          hlexes.exists_token rfl hc hcomplete
        obtain ⟨rfl, rfl⟩ := List.cons.inj (hts'.symm.trans hus')
        obtain ⟨brackets, rfl⟩ := htoken.state
        have hempty : brackets = [] := List.length_eq_zero_iff.mp (htoken.depth.symm.trans hdepth)
        have hline : t.line = s.line + 1 + u.count '\n' := htoken.line
        by_cases hjoined : '\n' ∈ u
        · exact .inr (hjoin.of_lead hu hjoined (by omega) (by omega))
        have hcount : u.count '\n' = 0 := List.count_eq_zero.mpr hjoined
        have hvcount : v.count '\n' = 0 :=
          List.count_eq_zero.mpr (not_mem_of_ofSpelling? (htoken.keyword k ht))
        have hsame : t.lastLine = t.line := by
          rw [htoken.lastLine, hvcount, hline, Nat.add_zero]
        have hjoin' := hjoin.of_append
        rw [hcode] at hjoin'
        have hjoin'' := hjoin'.of_append
        rw [hnext, hvcount, Nat.add_zero, ← hline, ← hsame] at hjoin''
        refine (hmore.exists_colon rfl hempty hcomplete' hjoin'' ht').imp ?_
          fun hP => hsame ▸ hP
        rintro ⟨w, rest'', rfl, hw⟩
        refine ⟨[], u ++ c :: code, rfl, ⟨u, v, w, rest'', ?_, hu.blanks hjoined, hw,
          htoken.keyword k ht⟩, ?_, .inl ⟨rfl, hfresh⟩⟩
        · rw [hcode]
          simp
        · rw [hline, hnext, hcount]
          rfl
      · exact hlater hts' (.inr (hlast hus has)) (by rw [hnext]; rfl) fun h => by cases h
    | finish hfresh hmargin =>
      obtain ⟨as, -, hts'⟩ :=
        exists_of_layout_append hts (fun l hl => (hmargin l hl).isLayout) htplain
      cases hlexes with
      | done =>
        have hlength := congrArg List.length hts'
        simp only [List.length_append, List.length_cons, List.length_nil] at hlength
        omega
      | step _ hstep' => cases (of_step_nil hstep').1
    | @comment w v rest hfresh hw hv =>
      refine hlater hts (hlayout.imp_left fun h => ?_) ?_ fun h => ?_
      · rw [hfresh] at h
        cases h.2
      · simp [hw.not_mem_newline, hv, List.count_eq_zero.mpr]
      · rw [hfresh] at h
        cases h
    | @join w rest hfresh hw =>
      refine hlater hts (hlayout.imp_left fun h => ?_) ?_ fun h => ?_
      · rw [hfresh] at h
        cases h.2
      · simp [State.next, hfresh, List.count_eq_zero.mpr hw.not_mem_newline]
      · rw [show s.fresh = true from h] at hfresh
        cases hfresh
    | @newline w rest hfresh hw =>
      have hcount : w.count '\n' = 0 := List.count_eq_zero.mpr hw.not_mem_newline
      have hnext : ({ s with fresh := true } : State).next = s.next + (w ++ ['\n']).count '\n' := by
        simp [State.next, hfresh, hcount]
      have hcomplete : Complete (w ++ ['\n']) := complete_newline.append w
      obtain ⟨as, hus, hts'⟩ := exists_of_layout_append hts (fun l hl => by
        split at hl
        · exact List.mem_singleton.mp hl ▸ rfl
        · cases hl) htplain
      refine hlater hts' ?_ hnext fun _ => .inr hcomplete
      rcases eq_or_ne as [] with rfl | has
      · exact .inl ⟨rfl, rfl⟩
      · exact .inr (hlast hus has)
    | @token w v rest t₁ _ hfresh hw htoken hcomplete =>
      obtain ⟨brackets, rfl⟩ := htoken.state
      have hlayout' := hlayout.resolve_left fun h => by rw [hfresh] at h; cases h.2
      obtain ⟨l, hl, hllayout⟩ := hlayout'
      cases us with
      | nil => cases hl
      | cons u us =>
        obtain ⟨rfl, hts'⟩ := List.cons.inj hts
        have hus : us ≠ [] := by
          rintro rfl
          obtain rfl : t₁ = l := by simpa using hl
          rw [Token.isLayout_eq, htoken.plain] at hllayout
          cases hllayout
        refine hlater hts' (.inr (hlast (List.singleton_append : [t₁] ++ us = _).symm hus)) ?_
          fun h => ?_
        · rw [List.count_append, List.count_eq_zero.mpr hw.not_mem_newline]
          simp [State.next, hfresh, htoken.lastLine]
        · rw [hfresh] at h
          cases h

end NotebookSlice.Syntax.Lexer
