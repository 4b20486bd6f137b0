import Mathlib.Data.List.Chain
import NotebookSlice.Proofs.Syntax.Lexing.Thin

/-! # The order of tokens

Tokens stand on the lines of a text in their order. Outside brackets a line ends
between two tokens only if a token says so, or if a backslash joins it to the next.
-/

namespace NotebookSlice.Syntax.Lexer

open Text

/-- How many brackets more are open after the tokens. -/
def turns (ts : List Token) : Int := ts.foldr (fun t n => t.kind.turn + n) 0

/-- A token after another one. The end of a line separates what is no layout. -/
structure Precedes (t t' : Token) : Prop where
  le : t.lastLine ≤ t'.line
  lt : t.kind = .newline → t'.isLayout = false → t.lastLine < t'.line

/-- Outside brackets the next token stands on the same line if both are no layout, or on a line with
the property. -/
def Adjoins (P : Nat → Prop) (t t' : Token) : Prop :=
  t.isLayout = false → t'.isLayout = false → t.depth = 0 → t'.line = t.lastLine ∨ P t'.line

/-- The order of the tokens that are read from a state on. -/
structure Ordered (P : Nat → Prop) (s : State) (ts : List Token) : Prop where
  le : ∀ t ∈ ts, t.line ≤ t.lastLine
  line_le : ∀ t ∈ ts, s.line ≤ t.line
  next_le : ∀ t ∈ ts, t.isLayout = false → s.next ≤ t.line
  precedes : ts.Pairwise Precedes
  first : s.fresh = false → s.brackets = [] → ∀ t ∈ ts.head?, t.isLayout = false →
    t.line = s.line ∨ P t.line
  adjoins : ts.IsChain (Adjoins P)
  depth : ∀ us t vs, ts = us ++ t :: vs → (t.depth : Int) = s.brackets.length + turns (us ++ [t])
  newline : ∀ t ∈ ts, t.kind = .newline → t.depth = 0
  mark : ∀ t ∈ ts, IsMark t → t.lastLine = t.line

variable {P : Nat → Prop} {s s' : State} {cs rest : List Char} {ts us : List Token} {t : Token}
  {n : Nat}

theorem turns_cons (t : Token) (ts : List Token) : turns (t :: ts) = t.kind.turn + turns ts := rfl

theorem turns_append (ts us : List Token) : turns (ts ++ us) = turns ts + turns us := by
  induction ts with
  | nil => exact (Int.zero_add _).symm
  | cons t ts ih => rw [List.cons_append, turns_cons, turns_cons, ih, Int.add_assoc]

theorem turns_take_succ {i : Nat} (h : ts[i]? = some t) :
    turns (ts.take (i + 1)) = turns (ts.take i) + t.kind.turn := by
  rw [List.take_add_one, h, turns_append]
  simp [turns]

theorem turn_of_isLayout (h : t.isLayout = true) : t.kind.turn = 0 := by
  unfold Token.isLayout at h
  unfold Token.Kind.turn
  split at h <;> simp_all

namespace Ordered

theorem nil (s : State) : Ordered P s [] where
  le := List.forall_mem_nil _
  line_le := List.forall_mem_nil _
  next_le := List.forall_mem_nil _
  precedes := .nil
  first _ _ t ht := nomatch ht
  adjoins := .nil
  depth us t vs h := by simp at h
  newline := List.forall_mem_nil _
  mark := List.forall_mem_nil _

theorem cons (h : Ordered P s' ts) (hle : t.line ≤ t.lastLine) (hline : s.line ≤ t.line)
    (hlast : t.lastLine ≤ s'.line) (hnext : s.next ≤ s'.next)
    (hplain : t.isLayout = false → s.fresh = false ∧ t.line = s.line ∧ s'.fresh = false ∧
      s'.line = t.lastLine)
    (hdepth : t.depth = s'.brackets.length)
    (hturn : (t.depth : Int) = s.brackets.length + t.kind.turn)
    (hnewline : t.kind = .newline → t.depth = 0 ∧ t.lastLine < s'.next)
    (hmark : IsMark t → t.lastLine = t.line) : Ordered P s (t :: ts) where
  le := List.forall_mem_cons.mpr ⟨hle, h.le⟩
  line_le := List.forall_mem_cons.mpr ⟨hline, fun t' ht' => by
    have := h.line_le t' ht'
    omega⟩
  next_le := List.forall_mem_cons.mpr ⟨fun hlayout => by
    obtain ⟨hfresh, hsame, -⟩ := hplain hlayout
    simp [State.next, hfresh, hsame],
    fun t' ht' hlayout => Nat.le_trans hnext (h.next_le t' ht' hlayout)⟩
  precedes := List.pairwise_cons.mpr ⟨fun t' ht' => ⟨Nat.le_trans hlast (h.line_le t' ht'),
    fun hkind hlayout => Nat.lt_of_lt_of_le (hnewline hkind).2 (h.next_le t' ht' hlayout)⟩,
    h.precedes⟩
  first _ _ t' ht' hlayout := by
    obtain rfl : t = t' := by simpa using ht'
    exact .inl (hplain hlayout).2.1
  adjoins := by
    refine List.isChain_cons.mpr ⟨fun t' ht' hlayout hlayout' hzero => ?_, h.adjoins⟩
    obtain ⟨-, -, hfresh, hline⟩ := hplain hlayout
    rw [← hline]
    exact h.first hfresh (List.length_eq_zero_iff.mp (hdepth.symm.trans hzero)) t' ht' hlayout'
  depth us t' vs hsplit := by
    cases us with
    | nil =>
      obtain ⟨rfl, -⟩ := List.cons.inj hsplit
      rw [hturn]
      simp [turns]
    | cons u us =>
      obtain rfl := (List.cons.inj hsplit).1
      rw [h.depth us t' vs (List.cons.inj hsplit).2, List.cons_append, turns_cons]
      omega
  newline := List.forall_mem_cons.mpr ⟨fun hkind => (hnewline hkind).1, h.newline⟩
  mark := List.forall_mem_cons.mpr ⟨hmark, h.mark⟩

theorem skip (h : Ordered P s' ts) (hline : s.line ≤ s'.line) (hnext : s.next ≤ s'.next)
    (hbrackets : s'.brackets = s.brackets)
    (hfresh : s.fresh = false → s.brackets = [] →
      s'.fresh = false ∧ (s'.line = s.line ∨ P s'.line)) : Ordered P s ts where
  le := h.le
  line_le t ht := Nat.le_trans hline (h.line_le t ht)
  next_le t ht hlayout := Nat.le_trans hnext (h.next_le t ht hlayout)
  precedes := h.precedes
  first hfalse hempty t ht hlayout := by
    obtain ⟨hfresh', hline'⟩ := hfresh hfalse hempty
    rcases h.first hfresh' (hbrackets.trans hempty) t ht hlayout with heq | hP
    · rwa [heq]
    · exact .inr hP
  adjoins := h.adjoins
  depth := hbrackets ▸ h.depth
  newline := h.newline
  mark := h.mark

theorem append_margin {margin : List Token} (h : Ordered P s ts)
    (hmargin : ∀ t ∈ margin, IsMargin s.line s.brackets.length t) : Ordered P s (margin ++ ts) := by
  induction margin with
  | nil => exact h
  | cons t margin ih =>
    obtain ⟨ht, hmargin⟩ := List.forall_mem_cons.mp hmargin
    have hlayout := ht.isLayout
    refine (ih hmargin).cons (by rw [ht.line, ht.lastLine]) ht.line.ge ht.lastLine.le (Nat.le_refl _)
      (fun h => by rw [h] at hlayout; cases hlayout) ht.depth ?_ (fun hkind => ?_)
      fun _ => ht.lastLine.trans ht.line.symm
    · rw [turn_of_isLayout hlayout, ht.depth, Int.add_zero]
    · exact absurd hkind ht.kind

end Ordered

theorem Lexes.ordered (h : Lexes s cs ts none) (hcs : cs = [] ∨ Complete cs)
    (hjoin : OnJoins P s.next cs) : Ordered P s ts := by
  generalize hf : (none : Option LexicalFault) = f at h
  induction h with
  | @done s cs hdone =>
    simp only [State.done, Bool.and_eq_true, List.isEmpty_iff] at hdone
    exact (Ordered.nil s).cons (Nat.le_refl _) (Nat.le_refl _) (Nat.le_refl _) (Nat.le_refl _)
      (fun h => by cases h) rfl (by simp [State.token, Token.Kind.turn]) (fun h => by cases h)
      fun _ => rfl
  | fault => cases hf
  | @step s s' cs rest ts us f hdone hstep hlexes ih =>
    subst hf
    obtain ⟨u, rfl, hreads, -⟩ := reading_of_step hcs hstep
    have hmore := ih (smaller_of_step hcs hstep).2 (hjoin.of_step hcs hstep) rfl
    have hle (k : Nat) : s.line ≤ s.line + 1 + k := by omega
    cases hreads with
    | @idle u v _ hfresh =>
      refine hmore.skip (hle _) ?_ rfl fun h => by rw [hfresh] at h; cases h
      simp only [State.next, hfresh, if_true]
      omega
    | @head u code _ stack c hfresh hu hc hmargin =>
      refine (hmore.append_margin hmargin).skip (hle _) ?_ rfl
        fun h => by rw [hfresh] at h; cases h
      simp only [State.next, hfresh, if_true, Bool.false_eq_true, if_false]
      omega
    | finish hfresh hmargin =>
      cases hlexes with
      | done =>
        rw [← List.append_nil (ts ++ _)]
        refine (Ordered.nil s).append_margin (List.forall_mem_append.mpr ⟨hmargin, ?_⟩)
        exact List.forall_mem_singleton.mpr ⟨rfl, (by cases ·), rfl, rfl, rfl⟩
      | step _ hstep' => cases (of_step_nil hstep').1
    | @comment w v rest hfresh hw hv => exact hmore
    | @join w rest hfresh hw =>
      have hcount : w.count '\n' = 0 := List.count_eq_zero.mpr hw.not_mem_newline
      have hn : s.next = s.line := if_neg (by simp [hfresh])
      refine hmore.skip (Nat.le_succ _) ?_ rfl fun _ _ => ⟨hfresh, .inr ?_⟩
      · simp [State.next, hfresh]
      · simpa [hn, hcount] using (hjoin w rest (by simp)).2
    | @newline w rest hfresh hw =>
      have hnext : s.next ≤ ({ s with fresh := true } : State).next := by simp [State.next, hfresh]
      split
      · rename_i hempty
        refine hmore.cons (Nat.le_refl _) (Nat.le_refl _) (Nat.le_refl _) hnext (fun h => by cases h)
          rfl (by simp [State.token, Token.Kind.turn]) (fun _ => ⟨?_, Nat.lt_succ_self _⟩)
          fun _ => rfl
        simpa [State.token] using hempty
      · rename_i hopen
        exact hmore.skip (Nat.le_refl _) hnext rfl fun _ hempty => by simp [hempty] at hopen
    | @token w v rest t _ hfresh hw htoken hcomplete =>
      obtain ⟨brackets, rfl⟩ := htoken.state
      have hlast := htoken.lastLine
      have hline := htoken.line
      refine hmore.cons (by omega) hline.ge (Nat.le_refl _) ?_
        (fun _ => ⟨hfresh, hline, hfresh, rfl⟩) htoken.depth ?_ (fun hkind => ?_) htoken.mark
      · simp only [State.next, hfresh, Bool.false_eq_true, if_false]
        omega
      · rw [htoken.depth]
        exact htoken.turn
      · have := htoken.plain
        rw [hkind] at this
        cases this

theorem Lexes.ends_of_endmarker {f : Option LexicalFault} {vs : List Token} (h : Lexes s cs ts f)
    (hts : ts = us ++ t :: vs) (ht : t.kind = .endmarker) : vs = [] ∧ f = none := by
  induction h generalizing us with
  | done =>
    cases us with
    | nil => exact ⟨(List.cons.inj hts).2.symm, rfl⟩
    | cons u us => simp at hts
  | fault => simp at hts
  | @step s s' cs rest ts ts' f hdone hstep _ ih =>
    have hkinds : ∀ u ∈ ts, u.kind ≠ .endmarker := by
      cases emits_of_step hstep with
      | nothing h => simp [h]
      | newline h => simp [h, State.token]
      | indent _ h => simp [h, State.token]
      | dedent _ _ h => simp [h, State.token]
      | token u _ h hplain =>
        refine h ▸ List.forall_mem_singleton.mpr fun hkind => ?_
        rw [hkind] at hplain
        cases hplain
    rcases List.append_eq_append_iff.mp hts with ⟨as, -, hts'⟩ | ⟨as, hts', hrest⟩
    · exact ih hts'
    · cases as with
      | nil => exact ih (show ts' = [] ++ t :: vs from hrest.symm)
      | cons a as =>
        obtain ⟨rfl, -⟩ := List.cons.inj hrest
        exact absurd ht (hkinds t (hts' ▸ by simp))

end NotebookSlice.Syntax.Lexer
