import NotebookSlice.Proofs.Syntax.Lexing.Reads
import NotebookSlice.Proofs.Syntax.Lexing.Shift

/-! # Texts without some of their lines

Lines that hold nothing of a token may be left out of a text: it is read as
before, on other lines.
-/

namespace NotebookSlice.Syntax.Lexer

open Text

/-- The lines to be kept, of a text whose first line has the number `n`. -/
def thin (keep : Nat → Bool) : (n : Nat) → List Char → List Char
  | _, [] => []
  | n, c :: cs =>
    let more := thin keep (if c = '\n' then n + 1 else n) cs
    if keep n then c :: more else more

variable {keep : Nat → Bool} {s s' s₂ : State} {c : Char} {cs rest : List Char} {ts us : List Token}
  {n : Nat}

theorem thin_append (u cs : List Char) (n : Nat) :
    thin keep n (u ++ cs) = thin keep n u ++ thin keep (n + u.count '\n') cs := by
  induction u generalizing n with
  | nil => rfl
  | cons c u ih =>
    simp only [List.cons_append, thin, ih]
    by_cases hc : c = '\n'
    · simp only [hc, if_true, List.count_cons_self, Nat.add_assoc, Nat.add_comm 1]
      split <;> rfl
    · simp only [hc, if_false, List.count_cons_of_ne hc]
      split <;> rfl

theorem thin_eq_self {u : List Char} (h : ∀ k, n ≤ k → k ≤ n + u.count '\n' → keep k = true) :
    thin keep n u = u := by
  induction u generalizing n with
  | nil => rfl
  | cons c u ih =>
    have hn := h n (Nat.le_refl n) (Nat.le_add_right _ _)
    by_cases hc : c = '\n'
    · simp only [hc, List.count_cons_self] at h
      rw [thin, if_pos hn, if_pos hc, ih fun k hk hk' => h k (by omega) (by omega)]
    · rw [List.count_cons_of_ne hc] at h
      rw [thin, if_pos hn, if_neg hc, ih h]

theorem thin_line {w : List Char} (hw : '\n' ∉ w) (cs : List Char) (n : Nat) :
    thin keep n (w ++ '\n' :: cs) =
      if keep n then w ++ '\n' :: thin keep (n + 1) cs else thin keep (n + 1) cs := by
  have hcount : w.count '\n' = 0 := List.count_eq_zero.mpr hw
  rw [thin_append, hcount, Nat.add_zero, thin, if_pos rfl]
  split
  · rename_i hkeep
    rw [thin_eq_self fun k hk hk' => by rwa [show k = n by omega]]
  · rename_i hkeep
    suffices thin keep n w = [] by rw [this, List.nil_append]
    clear hcount
    induction w with
    | nil => rfl
    | cons c w ih =>
      obtain ⟨hc, hw⟩ := not_or.mp (List.mem_cons.not.mp hw)
      rw [thin, if_neg hkeep, if_neg (Ne.symm hc), ih hw]

theorem complete_thin (hcs : Complete cs) (n : Nat) :
    thin keep n cs = [] ∨ Complete (thin keep n cs) := by
  induction hlen : cs.length using Nat.strong_induction_on generalizing cs n with
  | _ k ih =>
    obtain ⟨w, m, rfl, hw, hm⟩ := hcs.exists_line
    have hmore : thin keep (n + 1) m = [] ∨ Complete (thin keep (n + 1) m) := by
      rcases hm with rfl | hm
      · exact .inl rfl
      · exact ih m.length (by simp at hlen; omega) hm (n + 1) rfl
    rw [thin_line hw]
    split
    · refine .inr ?_
      rcases hmore with hnil | hmore
      · rw [hnil]
        exact complete_newline.append w
      · exact (hmore.append ['\n']).append w
    · exact hmore

theorem sameLine_thin (hcs : Complete cs) (hn : keep n = true) :
    SameLine cs (thin keep n cs) := by
  obtain ⟨w, m, rfl, hw, -⟩ := hcs.exists_line
  rw [thin_line hw, if_pos hn]
  exact .mk hw

theorem Lexes.exists_token (h : Lexes s (c :: cs) ts none) (hfresh : s.fresh = false)
    (hc : startsCode c = true) (hcs : Complete (c :: cs)) :
    ∃ v t us s' rest, ts = t :: us ∧ c :: cs = v ++ rest ∧ ReadsToken s v t s' ∧ Complete rest ∧
      Lexes s' rest us none := by
  have hblank {w u : List Char} (hw : Blanks w) (hu : c :: cs = w ++ u) : w = [] := by
    cases w with
    | nil => rfl
    | cons d w =>
      have := hw d List.mem_cons_self
      rw [← (List.cons.inj hu).1] at this
      simp [startsCode, this] at hc
  cases h with
  | done hdone => simp [State.done] at hdone
  | @step _ s' _ rest ts us _ hdone hstep hlexes =>
    obtain ⟨u, hu, hreads, -⟩ := reading_of_step (.inr hcs) hstep
    have hstart {d : Char} {w m : List Char} (hw : Blanks w) (hu : c :: cs = w ++ d :: m) :
        startsCode d = true := by
      obtain rfl := hblank hw hu
      rwa [← (List.cons.inj hu).1]
    cases hreads with
    | idle hfresh' | head hfresh' | finish hfresh' =>
      rw [hfresh] at hfresh'
      cases hfresh'
    | @comment w v _ hfresh hw hv =>
      rw [List.append_assoc] at hu
      exact absurd (hstart hw hu) (by decide)
    | @join w _ hfresh hw =>
      rw [List.append_assoc] at hu
      exact absurd (hstart hw hu) (by decide)
    | @newline w _ hfresh hw =>
      rw [List.append_assoc] at hu
      exact absurd (hstart hw hu) (by decide)
    | @token w v _ t _ hfresh hw htoken hrest =>
      rw [List.append_assoc] at hu
      obtain rfl := hblank hw hu
      exact ⟨v, t, us, s', rest, rfl, hu, htoken, hrest, hlexes⟩

/-- The tokens of a text without a fault, on some other lines. -/
def LexesAlike (s : State) (cs : List Char) (ts : List Token) : Prop :=
  ∃ ts', Lexes s cs ts' none ∧ ts'.map Token.kind = ts.map Token.kind

theorem LexesAlike.step {cs₂ rest₂ : List Char} (halike : s.Alike s₂)
    (hcs : cs₂ ≠ [] ∨ s.fresh = true) (hstep : Lexer.step s cs₂ = .ok (ts, s', rest₂))
    (hmore : ∀ s₂', s'.Alike s₂' → LexesAlike s₂' rest₂ us) : LexesAlike s₂ cs₂ (ts ++ us) := by
  have hsteps := halike.step cs₂
  rw [hstep] at hsteps
  generalize hright : Lexer.step s₂ cs₂ = r at hsteps
  cases hsteps with
  | @ok _ ts' _ s₂' _ hkinds halike' =>
    obtain ⟨us', hus', hmap⟩ := hmore s₂' halike'
    refine ⟨ts' ++ us', .step ?_ hright hus', by rw [List.map_append, List.map_append, hkinds, hmap]⟩
    rw [halike.done]
    rcases hcs with hcs | hfresh
    · exact done_eq_false_of_ne_nil hcs
    · simp [State.done, hfresh]

/-- Without lines that hold nothing of a token a text has the same tokens, if what a backslash joins
is kept. -/
theorem Lexes.thin (h : Lexes s cs ts none) (hcs : cs = [] ∨ Complete cs)
    (hjoin : OnJoins (fun n => keep n = true) s.next cs)
    (hkeep : ∀ t ∈ ts, t.isLayout = false → ∀ n, t.line ≤ n → n ≤ t.lastLine → keep n = true)
    (hline : s.fresh = false → cs = [] ∨ keep s.line = true) (halike : s.Alike s₂) :
    LexesAlike s₂ (Lexer.thin keep s.next cs) ts := by
  generalize hf : (none : Option LexicalFault) = f at h
  induction h generalizing s₂ with
  | @done s cs hdone =>
    simp only [State.done, Bool.and_eq_true, List.isEmpty_iff] at hdone
    obtain ⟨⟨-, rfl⟩, -⟩ := id hdone
    refine ⟨[s₂.token .endmarker], .done ?_, rfl⟩
    rw [halike.done]
    simpa [State.done, Lexer.thin] using hdone
  | fault => cases hf
  | @step s s' cs rest ts us f hdone hstep hlexes ih =>
    subst hf
    obtain ⟨u, rfl, hreads, hmore⟩ := reading_of_step hcs hstep
    have hrest := (smaller_of_step hcs hstep).2
    have hnext (hline' : s'.fresh = false → rest = [] ∨ keep s'.line = true) (s₂' : State)
        (halike' : s'.Alike s₂') : LexesAlike s₂' (Lexer.thin keep s'.next rest) us :=
      ih hrest (hjoin.of_step hcs hstep) (fun t ht => hkeep t (List.mem_append_right ts ht)) hline'
        halike' rfl
    rw [thin_append]
    cases hreads with
    | @idle u v _ hfresh hu hv =>
      have hn : s.next = s.line + 1 := if_pos hfresh
      have hn' : ({ s with line := s.line + 1 + u.count '\n' } : State).next =
        s.line + 1 + u.count '\n' + 1 := if_pos hfresh
      have hcount : (u ++ v ++ ['\n']).count '\n' = u.count '\n' + 1 := by
        rw [List.count_append, List.count_append, List.count_eq_zero.mpr hv]
        rfl
      have hafter := hnext fun hfresh' => by
        rw [show s.fresh = false from hfresh'] at hfresh
        cases hfresh
      rw [hn'] at hafter
      rw [hn, hcount, ← Nat.add_assoc]
      have hwhole (hkept : Lexer.thin keep (s.line + 1) (u ++ v ++ ['\n']) = u ++ v ++ ['\n']) :
          LexesAlike s₂ (Lexer.thin keep (s.line + 1) (u ++ v ++ ['\n']) ++
            Lexer.thin keep (s.line + 1 + u.count '\n' + 1) rest) us := by
        rw [hkept]
        exact .step halike (.inl (by simp)) (hmore _ (.inl hfresh)) hafter
      by_cases hjoined : '\n' ∈ u
      · rw [List.append_assoc, List.append_assoc, hn] at hjoin
        have hall : ∀ k, s.line + 1 ≤ k → k ≤ s.line + 1 + u.count '\n' → keep k = true :=
          fun k hk hk' => hjoin.of_lead hu hjoined hk hk'
        refine hwhole ?_
        rw [List.append_assoc, thin_append, thin_eq_self hall, thin_line hv,
          if_pos (hall _ (Nat.le_add_right _ _) (Nat.le_refl _))]
        rfl
      · have hw : '\n' ∉ u ++ v := fun hmem => (List.mem_append.mp hmem).elim hjoined hv
        by_cases hkept : keep (s.line + 1) = true
        · refine hwhole ?_
          rw [thin_line hw, if_pos hkept]
          rfl
        · rw [thin_line hw, if_neg hkept, List.count_eq_zero.mpr hjoined] at *
          exact hafter s₂ ⟨halike.fresh, halike.indents, halike.brackets⟩
    | @head u code _ stack c hfresh hu hc hlayout =>
      have hcomplete : Complete (c :: code) := hrest.resolve_left (List.cons_ne_nil c code)
      obtain ⟨v, t, us', s'', rest', rfl, -, htoken, -⟩ := hlexes.exists_token rfl hc hcomplete
      have hkept : keep (s.line + 1 + u.count '\n') = true := by
        refine hkeep t (by simp) ?_ _ htoken.line.le ?_
        · rw [Token.isLayout_eq, htoken.plain]; rfl
        · rw [htoken.lastLine]; exact Nat.le_add_right _ _
      have hn : s.next = s.line + 1 := if_pos hfresh
      rw [hn] at hjoin ⊢
      rw [thin_eq_self fun k hk hk' => ?_]
      · exact .step halike (.inr hfresh) (hmore _ (.inr (.inl (sameLine_thin hcomplete hkept))))
          (hnext fun _ => .inr hkept)
      · by_cases hjoined : '\n' ∈ u
        · exact hjoin.of_lead hu hjoined hk hk'
        · have hcount : u.count '\n' = 0 := List.count_eq_zero.mpr hjoined
          rwa [show k = s.line + 1 + u.count '\n' by omega]
    | finish hfresh =>
      exact .step halike (.inr hfresh) (hmore _ (.inr (.inr rfl))) (hnext fun _ => .inl rfl)
    | @comment w v rest hfresh hw hv =>
      have hne : w ++ '#' :: v ++ '\n' :: rest ≠ [] := by simp
      have hkept := (hline hfresh).resolve_left hne
      have hcomplete : Complete ('\n' :: rest) := hrest.resolve_left (List.cons_ne_nil _ rest)
      have hcount : (w ++ '#' :: v).count '\n' = 0 :=
        List.count_eq_zero.mpr (by simp [hw.not_mem_newline, hv])
      have hn : s.next = s.line := if_neg (by simp [hfresh])
      rw [hn] at hnext
      rw [hn, hcount, thin_eq_self fun k hk hk' => by rwa [show k = s.line by omega]]
      exact .step halike (.inl (by simp)) (hmore _ (.inr (.inl (sameLine_thin hcomplete hkept))))
        (hnext fun _ => .inr hkept)
    | @join w rest hfresh hw hcomplete =>
      have hkept := (hline hfresh).resolve_left (by simp)
      have hn : s.next = s.line := if_neg (by simp [hfresh])
      have hwcount : w.count '\n' = 0 := List.count_eq_zero.mpr hw.not_mem_newline
      have hcount : (w ++ ['\\', '\n']).count '\n' = 1 := by simp [hwcount]
      have hkept' : keep (s.line + 1) = true := by
        have := (hjoin w rest (by simp)).2
        rwa [hn, hwcount] at this
      have hw' : '\n' ∉ w ++ ['\\'] := by simp [hw.not_mem_newline]
      rw [show ({ s with line := s.line + 1 } : State).next = s.line + 1 from
        if_neg (by simp [hfresh])] at hnext
      rw [hn, hcount, show w ++ ['\\', '\n'] = w ++ ['\\'] ++ '\n' :: [] by simp, thin_line hw',
        if_pos hkept]
      refine .step halike (.inl (by simp)) ?_ (hnext fun _ => .inr hkept')
      simpa [Lexer.thin] using hmore _ (.inr (.inl (sameLine_thin hcomplete hkept')))
    | @newline w rest hfresh hw =>
      have hkept := (hline hfresh).resolve_left (by simp)
      have hwcount : w.count '\n' = 0 := List.count_eq_zero.mpr hw.not_mem_newline
      have hcount : (w ++ ['\n']).count '\n' = 1 := by simp [hwcount]
      have hn : s.next = s.line := if_neg (by simp [hfresh])
      rw [hn, hcount, thin_line hw.not_mem_newline, if_pos hkept]
      exact .step halike (.inl (by simp)) (hmore _ (.inl rfl)) (hnext fun h => by cases h)
    | @token w v rest t _ hfresh hw htoken hcomplete =>
      obtain ⟨brackets, rfl⟩ := htoken.state
      have hlayout : t.isLayout = false := by rw [Token.isLayout_eq, htoken.plain]; rfl
      have hkept := hkeep t (by simp) hlayout
      have hlast := htoken.lastLine
      have hcount : (w ++ v).count '\n' = v.count '\n' := by
        rw [List.count_append, List.count_eq_zero.mpr hw.not_mem_newline, Nat.zero_add]
      have hn : s.next = s.line := if_neg (by simp [hfresh])
      have hn' : ({ s with line := t.lastLine, brackets := brackets } : State).next =
        s.line + v.count '\n' := (if_neg (by simp [hfresh])).trans hlast
      have hlastkept := hkept t.lastLine (by rw [hlast, htoken.line]; omega) (Nat.le_refl _)
      rw [hn'] at hnext
      rw [hn, hcount, thin_eq_self fun k hk hk' => hkept k (by rw [htoken.line]; omega) (by omega)]
      obtain ⟨d, v', rfl, -⟩ := htoken.first
      refine .step halike (.inl (by simp)) (hmore _ (.inr (.inl (sameLine_thin hcomplete ?_))))
        (hnext fun _ => .inr hlastkept)
      rwa [← hlast]

end NotebookSlice.Syntax.Lexer
