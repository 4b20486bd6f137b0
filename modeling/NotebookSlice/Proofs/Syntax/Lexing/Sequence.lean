import NotebookSlice.Proofs.Syntax.Lexing.Thin
import NotebookSlice.Proofs.Text.Returns

/-! # Texts one after the other

Whole lines that have tokens without a fault leave nothing open but blocks. If the text
after them begins at the margin its first line closes these blocks, as the end of the
text would have done, and the tokens go on as if nothing stood above.
-/

namespace NotebookSlice.Syntax

open Text
open List (Forall₂)

/-- A line feed between two texts ends the last line of the first one. If this line has been ended
there is an empty line more. -/
theorem exists_unifyLineEnds_append (text : List Char) {more : List Char} (hmore : more ≠ []) :
    ∃ w, (w = [] ∨ w = ['\n']) ∧
      unifyLineEnds (text ++ '\n' :: more) = unifyLineEnds text ++ (w ++ unifyLineEnds more) ∧
      (ReturnsEndLines text → (unifyLineEnds text ++ w).count '\n' = text.count '\n' + 1) := by
  fun_induction unifyLineEnds text with
  | case1 => exact ⟨[], .inl rfl, by simp [unifyLineEnds, hmore], fun _ => rfl⟩
  | case2 cs ih =>
    obtain ⟨w, hw, heq, hcount⟩ := ih
    refine ⟨w, hw, by simp [unifyLineEnds, heq], fun hreturn => ?_⟩
    have := hcount (List.isChain_cons.mp (List.isChain_cons.mp hreturn).2).2
    simp only [List.cons_append, List.count_cons_self, this]
    simp
  | case3 => exact ⟨[], .inl rfl, by simp [unifyLineEnds], fun _ => rfl⟩
  | case4 cs hfeed hnil ih =>
    obtain ⟨w, hw, heq, -⟩ := ih
    obtain ⟨c, cs, rfl⟩ := List.exists_cons_of_ne_nil fun h => hnil h
    have hc : c ≠ '\n' := by
      rintro rfl
      exact hfeed cs rfl
    refine ⟨w, hw, ?_, fun hreturn => absurd ((List.isChain_cons.mp hreturn).1 c rfl rfl) hc⟩
    rw [List.cons_append, unifyLineEnds.eq_4 _ ?_ ?_, heq, List.cons_append]
    · simpa using hc
    · simp
  | case5 => exact ⟨['\n'], .inr rfl, by simp [unifyLineEnds, hmore], fun _ => rfl⟩
  | case6 c cs _ _ hreturn _ ih =>
    obtain ⟨w, hw, heq, hcount⟩ := ih
    refine ⟨w, hw, ?_, fun hends => ?_⟩
    · rw [List.cons_append, unifyLineEnds.eq_6 _ _ (fun _ h _ => hreturn h) (fun h _ => hreturn h)
        hreturn (by simp), heq, List.cons_append]
    · rw [List.cons_append, List.count_cons, List.count_cons,
        hcount (List.isChain_cons.mp hends).2]
      omega

namespace Lexer

variable {s s' : State} {cs rest : List Char} {ts us vs : List Token} {n : ℕ}
  {inner : List (ℕ × ℕ)}

/-! ## Open blocks -/

/-- How many blocks more are open after the tokens. -/
def blocks (ts : List Token) : ℤ :=
  ts.foldr (fun t n => (match t.kind with
    | .indent => 1
    | .dedent => -1
    | _ => 0) + n) 0

@[simp] theorem blocks_nil : blocks [] = 0 := rfl

theorem blocks_append (ts us : List Token) : blocks (ts ++ us) = blocks ts + blocks us := by
  induction ts with
  | nil => exact (Int.zero_add _).symm
  | cons t ts ih =>
    change _ + blocks (ts ++ us) = (_ + blocks ts) + blocks us
    rw [ih, Int.add_assoc]

theorem blocks_dedent {α : Type} (popped : List α) (line last depth : ℕ) :
    blocks (popped.map fun _ => ⟨.dedent, line, last, depth⟩) = -popped.length := by
  induction popped with
  | nil => rfl
  | cons _ popped ih =>
    change -1 + blocks _ = _
    rw [ih, List.length_cons]
    omega

theorem blocks_of_plain {t : Token} (h : t.kind.isPlain = true) : blocks [t] = 0 := by
  unfold Token.Kind.isPlain at h
  unfold blocks
  split at h <;> simp_all

/-- The outermost line begins at the margin, and the lines of blocks do not. -/
def Stacked (s : State) : Prop :=
  ∃ inner, s.indents = inner ++ [(0, 0)] ∧ ∀ column ∈ inner, 0 < column.1

/-- There are as many blocks open as there are indentations, and never fewer than none. -/
structure Balanced (s : State) (ts : List Token) (s' : State) : Prop where
  stacked : Stacked s'
  length : (s'.indents.length : ℤ) = s.indents.length + blocks ts
  pos : ∀ us vs, ts = us ++ vs → 0 < s.indents.length + blocks us

theorem Stacked.pos (h : Stacked s) : 0 < s.indents.length := by
  obtain ⟨inner, hindents, -⟩ := h
  rw [hindents]
  simp

theorem Emits.balanced (h : Emits s ts s') (hs : Stacked s) : Balanced s ts s' := by
  have hpos := hs.pos
  have hsingle {t : Token} (ht : 0 ≤ blocks [t]) (us vs : List Token) (hts : [t] = us ++ vs) :
      0 < s.indents.length + blocks us := by
    rcases List.append_eq_singleton_iff.mp hts.symm with ⟨rfl, -⟩ | ⟨rfl, -⟩
    · rw [blocks_nil]
      omega
    · omega
  cases h with
  | nothing hts hindents =>
    subst hts
    refine ⟨by rwa [Stacked, hindents], by rw [hindents]; simp, fun us vs hus => ?_⟩
    rw [(List.append_eq_nil_iff.mp hus.symm).1, blocks_nil]
    omega
  | newline hts hindents =>
    subst hts
    exact ⟨by rwa [Stacked, hindents], by rw [hindents]; exact (Int.add_zero _).symm,
      hsingle (Int.le_refl 0)⟩
  | indent column hts hindents hcolumn =>
    subst hts
    refine ⟨?_, by rw [hindents]; rfl, hsingle (show (0 : ℤ) ≤ 1 by decide)⟩
    obtain ⟨inner, hinner, hall⟩ := hs
    exact ⟨column :: inner, by rw [hindents, hinner, List.cons_append],
      List.forall_mem_cons.mpr ⟨hcolumn, hall⟩⟩
  | dedent popped _ hts hindents hne =>
    subst hts
    have hlength : s.indents.length = popped.length + s'.indents.length := by
      rw [hindents, List.length_append]
    have hpos' := List.length_pos_iff.mpr hne
    refine ⟨?_, ?_, fun us vs hus => ?_⟩
    · obtain ⟨inner, hinner, hall⟩ := hs
      rw [hinner] at hindents
      obtain ⟨left, c, hleft⟩ := (List.eq_nil_or_concat' s'.indents).resolve_left hne
      rw [hleft, ← List.append_assoc] at hindents
      obtain ⟨rfl, hc⟩ := List.append_inj' hindents rfl
      exact ⟨left, by rw [hleft, ← hc], fun column h => hall column (List.mem_append_right _ h)⟩
    · rw [State.token, blocks_dedent]
      omega
    · obtain ⟨first, second, rfl, rfl, -⟩ := List.map_eq_append_iff.mp hus
      rw [State.token, blocks_dedent]
      rw [List.length_append] at hlength
      omega
  | token t _ hts hplain hindents =>
    subst hts
    refine ⟨by rwa [Stacked, hindents], ?_, hsingle (Int.le_of_eq (blocks_of_plain hplain).symm)⟩
    rw [hindents, blocks_of_plain hplain, Int.add_zero]

theorem Runs.balanced (h : Runs s cs ts s' rest) (hs : Stacked s) : Balanced s ts s' := by
  induction h with
  | refl =>
    refine ⟨hs, (Int.add_zero _).symm, fun us vs hus => ?_⟩
    have := hs.pos
    rw [(List.append_eq_nil_iff.mp hus.symm).1, blocks_nil]
    omega
  | @step s s₁ s' cs cs₁ cs' ts us _ hstep _ ih =>
    have hfirst := (emits_of_step hstep).balanced hs
    have hrest := ih hfirst.stacked
    have hlength := hfirst.length
    refine ⟨hrest.stacked, ?_, fun as bs has => ?_⟩
    · rw [hrest.length, hlength, blocks_append, Int.add_assoc]
    · rcases List.append_eq_append_iff.mp has with ⟨as', rfl, hus⟩ | ⟨bs', hts, -⟩
      · have := hrest.pos as' bs hus
        rw [blocks_append]
        omega
      · exact hfirst.pos as bs' hts

/-! ## Closing blocks -/

/-- The state at the start of a line of the given number, with some blocks open. -/
def State.within (n : ℕ) (inner : List (ℕ × ℕ)) : State := ⟨n, true, inner ++ [(0, 0)], []⟩

theorem measure_indents (indents : List (ℕ × ℕ)) (s : State) (n m k : ℕ) (cs : List Char) :
    measure { s with indents := indents } n m k cs = (measure s n m k cs).map
      fun (s', column, rest) => ({ s' with indents := indents }, column, rest) := by
  fun_induction measure s n m k cs with
  | case1 => rfl
  | case2 _ _ _ _ _ ih => exact ih
  | case3 _ _ _ _ _ ih => exact ih
  | case4 _ _ _ _ _ ih => exact ih
  | case5 _ _ _ _ _ hempty => rw [measure, if_pos hempty]; rfl
  | case6 _ _ _ _ _ hmore ih =>
    rw [measure, if_neg hmore]
    exact ih
  | case7 _ _ _ _ _ _ _ _ _ _ hbackslash =>
    rw [measure.eq_6 _ _ _ _ _ _ ‹_› ‹_› ‹_› ‹_›, if_pos hbackslash]
    rfl
  | case8 _ _ _ _ _ _ _ _ _ _ hother =>
    rw [measure.eq_6 _ _ _ _ _ _ ‹_› ‹_› ‹_› ‹_›, if_neg hother]
    rfl

theorem dedent_margin (hinner : ∀ column ∈ inner, 0 < column.1) :
    dedent 0 (inner ++ [(0, 0)]) = (inner.length, [(0, 0)]) := by
  induction inner with
  | nil => rfl
  | cons column inner ih =>
    obtain ⟨hcolumn, hinner⟩ := List.forall_mem_cons.mp hinner
    obtain ⟨next, below, hbelow⟩ := List.exists_cons_of_ne_nil
      (List.append_ne_nil_of_right_ne_nil inner (List.cons_ne_nil (0, 0) []))
    rw [List.cons_append, hbelow, dedent, if_pos hcolumn, ← hbelow, ih hinner]
    rfl

theorem indentation_margin (hindents : s.indents = inner ++ [(0, 0)])
    (hinner : ∀ column ∈ inner, 0 < column.1) :
    indentation s (0, 0) = .ok ({ s with indents := [(0, 0)] },
      inner.map fun _ => s.token .dedent) := by
  unfold indentation
  cases inner with
  | nil =>
    simp only [hindents, List.nil_append, if_true]
    rw [← List.nil_append [(0, 0)], ← hindents]
    rfl
  | cons column inner =>
    obtain ⟨hcolumn, -⟩ := List.forall_mem_cons.mp hinner
    rw [hindents, List.cons_append]
    simp only [show ¬ 0 = column.1 by omega, show ¬ column.1 < 0 by omega, if_false]
    rw [← List.cons_append, dedent_margin hinner]
    simp [List.map_const', List.replicate_succ]

/-- Outside blocks a line begins at the margin, or it opens a block. -/
theorem indentation_outside {column : ℕ × ℕ} (hindents : s.indents = [(0, 0)])
    (h : indentation s column = .ok (s', ts)) (hfirst : ∀ t ∈ ts.head?, t.kind ≠ .indent) :
    column = (0, 0) ∧ s' = s ∧ ts = [] := by
  obtain ⟨n, m⟩ := column
  simp only [indentation, hindents] at h
  split at h
  · rename_i hn
    split at h
    · rename_i hm
      cases h
      exact ⟨by rw [show n = 0 from hn, show m = 0 from hm], rfl, rfl⟩
    · cases h
  · rename_i hn
    rw [if_pos (Nat.pos_of_ne_zero hn)] at h
    split at h
    · cases h
    · cases h
      exact absurd rfl (hfirst _ rfl)

/-- What is read at the start of a line, whatever blocks are open: no code, or code at the margin,
which closes them. -/
theorem step_within (h : step (.within n []) cs = .ok (ts, s', rest))
    (hfirst : ∀ t ∈ ts.head?, t.kind ≠ .indent) : ts = [] ∧
      ((∃ m, s' = .within m [] ∧ ∀ inner, step (.within n inner) cs =
        .ok ([], .within m inner, rest)) ∨
      ∀ inner, (∀ column ∈ inner, 0 < column.1) → step (.within n inner) cs =
        .ok (inner.map (fun _ => ⟨.dedent, s'.line, s'.line, 0⟩), s', rest)) := by
  have hstep (inner : List (ℕ × ℕ)) : step (.within n inner) cs =
      match (measure ((State.within n []).enter cs) 0 0 0 cs).map fun (s', column, rest) =>
        ({ s' with indents := inner ++ [(0, 0)] }, column, rest) with
      | .ok (s, column, rest) => lineHead s column rest
      | .error fault => .error fault := by
    rw [← measure_indents]
    rfl
  rw [hstep] at h
  simp only [hstep]
  cases hmeasure : measure ((State.within n []).enter cs) 0 0 0 cs with
  | error fault =>
    rw [hmeasure] at h
    cases h
  | ok answer =>
    obtain ⟨s₁, column, rest₁⟩ := answer
    obtain ⟨j, rfl⟩ := exists_of_measure hmeasure
    rw [hmeasure] at h
    simp only [Except.map] at h ⊢
    by_cases hnewline : ∃ more, rest₁ = '\n' :: more
    · obtain ⟨more, rfl⟩ := hnewline
      cases h
      exact ⟨rfl, .inl ⟨_, rfl, fun _ => rfl⟩⟩
    by_cases hcomment : ∃ more, rest₁ = '#' :: more
    · obtain ⟨more, rfl⟩ := hcomment
      cases h
      exact ⟨rfl, .inl ⟨_, rfl, fun _ => rfl⟩⟩
    have hcode {t : State} (ht : t.brackets = []) : lineHead t column rest₁ =
        (indentation t column).map fun answer => (answer.2, answer.1, rest₁) := by
      unfold lineHead
      split
      · exact absurd ⟨_, rfl⟩ hnewline
      · exact absurd ⟨_, rfl⟩ hcomment
      · rw [ht]
        cases indentation t column <;> rfl
    rw [hcode rfl] at h
    generalize hindent : indentation _ column = answer at h
    cases answer with
    | error fault => cases h
    | ok answer =>
      cases h
      obtain ⟨rfl, hs, hts⟩ := indentation_outside rfl hindent hfirst
      refine ⟨hts, .inr fun inner hinner => ?_⟩
      rw [hcode rfl, indentation_margin rfl hinner, hs]
      rfl

/-- The first line of code closes the blocks that are open above it. -/
theorem Lexes.within (h : Lexes (.within n []) cs ts none)
    (hfirst : ∀ t ∈ ts.head?, t.kind ≠ .indent) (hinner : ∀ column ∈ inner, 0 < column.1) :
    ∃ line, Lexes (.within n inner) cs (inner.map (fun _ => ⟨.dedent, line, line, 0⟩) ++ ts)
      none := by
  generalize hs : State.within n [] = s, hf : (none : Option LexicalFault) = f at h
  induction h generalizing n with
  | @done s cs hdone =>
    subst hs
    simp [State.done, State.within] at hdone
  | fault => cases hf
  | @step s s' cs rest ts us f hdone hstep hlexes ih =>
    subst hs hf
    have hopen : (State.within n inner).done cs = false := rfl
    have hhead : ∀ t ∈ ts.head?, t.kind ≠ .indent := fun t ht =>
      hfirst t (by rw [List.head?_append, Option.mem_def.mp ht]; rfl)
    obtain ⟨rfl, ⟨m, rfl, hidle⟩ | hcode⟩ := step_within hstep hhead
    · obtain ⟨line, hmore⟩ := ih hfirst rfl rfl
      exact ⟨line, (Lexes.step hopen (hidle inner) hmore :)⟩
    · exact ⟨s'.line, .step hopen (hcode inner hinner) hlexes⟩

theorem exists_lexes_within_nil (n : ℕ) (hinner : ∀ column ∈ inner, 0 < column.1) :
    ∃ line e, Lexes (.within n inner) [] (inner.map (fun _ => ⟨.dedent, line, line, 0⟩) ++ [e])
      none ∧ e.kind = .endmarker := by
  have hlexes : Lexes (.within n []) [] [⟨.endmarker, n, n, 0⟩] none :=
    .step rfl (show step (.within n []) [] = .ok ([], ⟨n, false, [(0, 0)], []⟩, []) from rfl)
      (.done rfl)
  obtain ⟨line, h⟩ := hlexes.within (by simp) hinner
  exact ⟨line, _, h, rfl⟩

theorem step_newline {s : State} (hfresh : s.fresh = true) (cs : List Char) :
    step s ('\n' :: cs) = .ok ([], { s with line := s.line + 1 }, cs) := by
  rw [step, if_pos hfresh, lineStart, enter_of_ne_nil (List.cons_ne_nil _ _), measure]
  · simp [lineHead, hfresh]
  all_goals simp

theorem runs_newline {w : List Char} (hw : w = [] ∨ w = ['\n']) (m : List Char) :
    Runs (.within n inner) (w ++ m) [] (.within (n + w.count '\n') inner) m := by
  rcases hw with rfl | rfl
  · exact .refl
  · exact .step rfl (step_newline rfl m) .refl

end Lexer

/-! ## Two texts -/

/-- The tokens of `c` are those of `a`, but for its end, and then those of `b`. As many blocks are
closed in `a` as are opened. -/
structure Lexed.Joins (a b c : Lexed) (as as' : List Token) : Prop where
  left : ∃ e, a.tokens.toList = as ++ [e] ∧ e.kind = .endmarker
  whole : c.tokens.toList = as' ++ b.tokens.toList
  alike : Forall₂ (Token.Alike Eq) as as'
  blocks : Lexer.blocks as = 0
  blocks_nonneg : ∀ us vs, as = us ++ vs → 0 ≤ Lexer.blocks us

open Lexer

/-- The tokens of two texts with a line feed between them. The second one begins `k` lines below the
first one. -/
theorem exists_joins {l : ℕ} {text more : List Char} (hl : 1 ≤ l) (hmore : more ≠ [])
    (hfault : (lex l text).fault = none) :
    ∃ k, (ReturnsEndLines text → k = text.count '\n' + 1) ∧
      ((lex (l + k) more).fault = none →
        (∀ t ∈ (lex (l + k) more).tokens.toList.head?, t.kind ≠ .indent) →
        ∃ as as', (lex l text).Joins (lex (l + k) more) (lex l (text ++ '\n' :: more)) as as') := by
  obtain ⟨w, hw, hends, hcount⟩ := exists_unifyLineEnds_append text hmore
  refine ⟨(unifyLineEnds text ++ w).count '\n', hcount, fun hfault' hfirst => ?_⟩
  generalize hline : l + (unifyLineEnds text ++ w).count '\n' = l' at hfault' hfirst ⊢
  obtain ⟨ts, f, hlexes⟩ := exists_lexes (s := .start l) (.inr (complete_unifyLineEnds text))
  obtain ⟨ms, f', hlexes'⟩ := exists_lexes (s := .start l') (.inr (complete_unifyLineEnds more))
  rw [lex_eq hlexes] at hfault ⊢
  rw [lex_eq hlexes'] at hfault' hfirst ⊢
  simp only at hfault hfault' hfirst
  subst hfault hfault'
  obtain ⟨us, s', vs, rfl, hend, hfresh, hbrackets, hnext, hruns⟩ :=
    hlexes.exists_runs (.inr (complete_unifyLineEnds text))
  have hbalanced := (hruns []).balanced ⟨[], rfl, List.forall_mem_nil _⟩
  obtain ⟨inner, hindents, hinner⟩ := hbalanced.stacked
  obtain ⟨n, rfl⟩ : ∃ n, s' = .within n inner := by
    obtain ⟨n, fresh, indents, brackets⟩ := s'
    exact ⟨n, by rw [State.within, ← hindents, ← hfresh, ← hbrackets]⟩
  have hopen : (inner.length : ℤ) = blocks us := by
    have := hbalanced.length
    simp only [State.within, State.start, List.length_append, List.length_singleton] at this
    omega
  have hmargin : n + w.count '\n' = l' - 1 := by
    rw [List.count_append] at hline
    simp only [State.next, State.within, State.start, if_true] at hnext
    omega
  obtain ⟨line, e, hclosed, he⟩ := exists_lexes_within_nil n hinner
  obtain ⟨line', hclosed'⟩ := Lexes.within (n := l' - 1) hlexes' hfirst hinner
  obtain ⟨rfl, -⟩ := hend.unique hclosed
  have hwhole := (hruns (w ++ unifyLineEnds more)).lexes
    ((runs_newline hw _).lexes (hmargin ▸ hclosed'))
  rw [← hends, List.nil_append] at hwhole
  rw [lex_eq hwhole]
  refine ⟨us ++ inner.map fun _ => ⟨.dedent, line, line, 0⟩,
    us ++ inner.map fun _ => ⟨.dedent, line', line', 0⟩, ⟨e, by simp, he⟩, by simp, ?_, ?_, ?_⟩
  · refine List.rel_append (List.forall₂_same.mpr fun _ _ => ⟨rfl, fun _ => rfl, fun _ => rfl⟩) ?_
    exact List.forall₂_map_left_iff.mpr (List.forall₂_map_right_iff.mpr
      (List.forall₂_same.mpr fun _ _ => ⟨rfl, by simp [Token.isLayout], by simp [Token.isLayout]⟩))
  · rw [blocks_append, blocks_dedent]
    omega
  · intro as bs has
    rcases List.append_eq_append_iff.mp has with ⟨as', rfl, hpopped⟩ | ⟨bs', hus, -⟩
    · obtain ⟨first, second, rfl, rfl, -⟩ := List.map_eq_append_iff.mp hpopped
      rw [List.length_append] at hopen
      rw [blocks_append, blocks_dedent]
      omega
    · have := hbalanced.pos as bs' hus
      simp only [State.start, List.length_singleton] at this
      omega

end NotebookSlice.Syntax
