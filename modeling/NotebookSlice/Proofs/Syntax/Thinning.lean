import NotebookSlice.Cell.Chunk
import NotebookSlice.Proofs.Syntax.Program
import NotebookSlice.Proofs.Syntax.Lexing.Unread
import NotebookSlice.Proofs.Text.Returns

/-! # Programs without some of their lines

Lines that hold nothing of a token may be left out of a program: its statements
stay, on other lines. Only blank lines and comments hold nothing of a token.
-/

namespace NotebookSlice

open Text Syntax

namespace Text

variable {keep : ℕ → Bool} {ls : List String}

/-- The characters of lines, each with its line feed. -/
def ended (ls : List String) : List Char := ls.flatMap fun l => l.toList ++ ['\n']

theorem ended_eq (hne : ls ≠ []) : ended ls = (unlines ls).toList ++ ['\n'] := by
  rw [toList_unlines]
  obtain ⟨l, ls, rfl⟩ := List.exists_cons_of_ne_nil hne
  induction ls generalizing l with
  | nil => simp [ended]
  | cons m ls ih =>
    have := ih m (List.cons_ne_nil m ls)
    simp only [ended, List.flatMap_cons, List.map_cons] at this ⊢
    rw [List.intercalate_cons_cons, this]
    simp

theorem toList_eq_ended (s : String) : s.toList ++ ['\n'] = ended (lines s) := by
  rw [ended_eq (lines_ne_nil s), unlines_lines]

theorem ended_cons (l : String) (ls : List String) :
    ended (l :: ls) = l.toList ++ '\n' :: ended ls := by
  simp [ended]

theorem ended_append (ls ms : List String) : ended (ls ++ ms) = ended ls ++ ended ms :=
  List.flatMap_append

theorem count_ended (h : ∀ l ∈ ls, '\n' ∉ l.toList) : (ended ls).count '\n' = ls.length := by
  induction ls with
  | nil => rfl
  | cons l ls ih =>
    obtain ⟨hl, hls⟩ := List.forall_mem_cons.mp h
    rw [ended_cons, List.count_append, List.count_eq_zero.mpr hl, List.count_cons_self, ih hls,
      Nat.zero_add, List.length_cons]

theorem complete_ended (ls : List String) : ended ls = [] ∨ Lexer.Complete (ended ls) := by
  rcases eq_or_ne ls [] with rfl | hne
  · exact .inl rfl
  · rw [ended_eq hne]
    exact .inr (Lexer.complete_newline.append _)

theorem returnsEndLines_ended :
    ReturnsEndLines (ended ls) ↔ ∀ l ∈ ls, ReturnsEndLines l.toList := by
  induction ls with
  | nil => simp [ended, ReturnsEndLines]
  | cons l ls ih =>
    rw [List.forall_mem_cons, ← ih, ended_cons, ReturnsEndLines, List.isChain_append,
      List.isChain_cons]
    simp [ReturnsEndLines]

theorem returnsEndLines_of_mem_lines {text l : String} (h : ReturnsEndLines text.toList)
    (hl : l ∈ lines text) : ReturnsEndLines l.toList := by
  refine returnsEndLines_ended.mp ?_ l hl
  rw [← toList_eq_ended, ReturnsEndLines, List.isChain_append]
  exact ⟨h, List.isChain_singleton _, by simp⟩

theorem ReturnsEndLines.kept {text : String} (h : ReturnsEndLines text.toList) (keep : ℕ → Bool)
    (n : ℕ) : ReturnsEndLines (unlines (kept keep n (lines text))).toList := by
  rcases eq_or_ne (Text.kept keep n (lines text)) [] with hnil | hne
  · rw [hnil]
    exact .nil
  · have hended : ReturnsEndLines (ended (Text.kept keep n (lines text))) :=
      returnsEndLines_ended.mpr fun l hl =>
        returnsEndLines_of_mem_lines h (kept_subset keep n _ hl)
    rw [ended_eq hne] at hended
    exact hended.left_of_append

theorem thin_ended (keep : ℕ → Bool) (h : ∀ l ∈ ls, '\n' ∉ l.toList) (n : ℕ) :
    Lexer.thin keep n (ended ls) = ended (kept keep n ls) := by
  induction ls generalizing n with
  | nil => rfl
  | cons l ls ih =>
    have hls := ih (fun m hm => h m (List.mem_cons_of_mem l hm)) (n + 1)
    simp only [ended, List.flatMap_cons, List.append_assoc, List.singleton_append] at hls ⊢
    rw [Lexer.thin_line (h l List.mem_cons_self), kept, hls]
    split
    · simp
    · rfl

theorem onJoins_ended {P : ℕ → Prop} {n : ℕ} (h : ∀ l ∈ ls, '\n' ∉ l.toList)
    (hjoin : ∀ k l, ls[k]? = some l → l.toList.getLast? = some '\\' → P (n + k) ∧ P (n + k + 1)) :
    Lexer.OnJoins P n (ended ls) := by
  induction ls generalizing n with
  | nil =>
    intro u v huv
    simp [ended] at huv
  | cons l ls ih =>
    obtain ⟨hl, hls⟩ := List.forall_mem_cons.mp h
    intro u v huv
    rw [ended_cons] at huv
    by_cases hu : '\n' ∈ u
    · obtain ⟨w, m, rfl, hw⟩ := List.eq_append_cons_of_mem hu
      rw [List.append_assoc, List.cons_append] at huv
      have hrest := ih hls (n := n + 1) (fun k l hl => by
        simpa [Nat.add_assoc, Nat.add_comm 1] using hjoin (k + 1) l hl) m v
          (Lexer.line_unique hl hw huv).2
      rwa [List.count_append, List.count_eq_zero.mpr hw, List.count_cons_self, Nat.zero_add,
        Nat.add_comm (m.count '\n'), ← Nat.add_assoc]
    · have hline := (Lexer.line_unique hl (w := u ++ ['\\']) (by simp [hu]) (by simpa using huv)).1
      simpa [List.count_eq_zero.mpr hu] using hjoin 0 l rfl (by simp [hline])

theorem exists_mem_of_ended {a b : List Char} {c : Char} (h : ended ls = a ++ c :: b)
    (hc : c ≠ '\n') (hlines : ∀ l ∈ ls, '\n' ∉ l.toList) :
    ∃ l, ls[a.count '\n']? = some l ∧ c ∈ l.toList := by
  induction ls generalizing a with
  | nil => simp [ended] at h
  | cons l ls ih =>
    obtain ⟨hl, hls⟩ := List.forall_mem_cons.mp hlines
    rw [ended_cons] at h
    by_cases ha : '\n' ∈ a
    · obtain ⟨w, m, rfl, hw⟩ := List.eq_append_cons_of_mem ha
      rw [List.append_assoc, List.cons_append] at h
      obtain ⟨l', hl', hmem⟩ := ih (Lexer.line_unique hl hw h).2 hls
      refine ⟨l', ?_, hmem⟩
      rwa [List.count_append, List.count_eq_zero.mpr hw, List.count_cons_self, Nat.zero_add,
        List.getElem?_cons_succ]
    · refine ⟨l, by rw [List.count_eq_zero.mpr ha]; rfl, ?_⟩
      rcases List.append_eq_append_iff.mp h with ⟨d, hd, heq⟩ | ⟨d, hd, heq⟩
      · cases d with
        | nil => exact absurd (List.cons.inj heq).1.symm hc
        | cons e d =>
          refine absurd ?_ ha
          rw [hd, ← (List.cons.inj heq).1]
          simp
      · cases d with
        | nil => exact absurd (List.cons.inj heq).1 hc
        | cons e d =>
          rw [hd, ← (List.cons.inj heq).1]
          simp

theorem getLast?_unlines {l : String} (hl : ls.getLast? = some l) (hne : l.toList ≠ []) :
    (unlines ls).toList.getLast? = l.toList.getLast? := by
  obtain ⟨init, rfl⟩ := List.getLast?_eq_some_iff.mp hl
  have hpart : ended init ++ l.toList = (unlines (init ++ [l])).toList := by
    have heq : ended (init ++ [l]) = _ := ended_eq (by simp)
    have hfeed : (ended init ++ l.toList) ++ ['\n'] = (unlines (init ++ [l])).toList ++ ['\n'] := by
      rw [← heq, ended_append, ended_cons]
      simp [ended]
    exact List.append_cancel_right hfeed
  rw [← hpart, List.getLast?_append_of_ne_nil _ hne]

end Text

namespace Syntax

/-- If carriage returns end lines, only the end of the last line is settled. -/
theorem unifyLineEnds_cases {cs : List Char} (h : ReturnsEndLines cs) :
    unifyLineEnds cs = cs.filter (· != '\r') ++ ['\n'] ∨
      unifyLineEnds cs = cs.filter (· != '\r') ∧ Lexer.Complete (cs.filter (· != '\r')) := by
  fun_induction unifyLineEnds cs with
  | case1 => exact .inl rfl
  | case2 cs ih =>
    rcases ih h.tail.tail with h | ⟨h, hcs⟩
    · exact .inl (by rw [h]; rfl)
    · exact .inr ⟨by rw [h]; rfl, hcs.append ['\n']⟩
  | case3 => exact .inl rfl
  | case4 cs hnil hfeed =>
    cases cs with
    | nil => exact absurd rfl hfeed
    | cons d cs => exact absurd ((List.isChain_cons.mp h).1 d rfl rfl) (by simpa using hnil)
  | case5 => exact .inr ⟨rfl, rfl⟩
  | case6 c cs _ _ hc _ ih =>
    rw [List.filter_cons_of_pos (by simpa using hc)]
    rcases ih h.tail with h | ⟨h, hcs⟩
    · exact .inl (by rw [h]; rfl)
    · exact .inr ⟨by rw [h], hcs.append [c]⟩

/-- A text with settled line ends is one of whole lines, up to an empty line at the end. -/
theorem exists_ended {text : String} (hreturn : ReturnsEndLines text.toList) :
    ∃ rest, ended (lines (unreturned text)) = unifyLineEnds text.toList ++ rest := by
  rw [← toList_eq_ended, toList_unreturned]
  rcases unifyLineEnds_cases hreturn with hwhole | ⟨hwhole, -⟩
  · exact ⟨[], by rw [hwhole, List.append_nil]⟩
  · exact ⟨['\n'], by rw [hwhole]⟩

theorem onJoins_unifyLineEnds {text : String} {P : ℕ → Prop} {n : ℕ}
    (hreturn : ReturnsEndLines text.toList)
    (hjoin : ∀ m, Joined (lines text) (m + 1) → P (n + m)) :
    Lexer.OnJoins P n (unifyLineEnds text.toList) := by
  obtain ⟨rest, hrest⟩ := exists_ended hreturn
  have hended : Lexer.OnJoins P n (ended (lines (unreturned text))) := by
    refine onJoins_ended (fun l hl => not_mem_of_mem_lines hl) fun k l hl hlast => ?_
    rw [lines_unreturned, List.getElem?_map, Option.map_eq_some_iff] at hl
    obtain ⟨l, hl, rfl⟩ := hl
    exact ⟨hjoin k ⟨k, l, hl, hlast, .inl rfl⟩, hjoin (k + 1) ⟨k, l, hl, hlast, .inr rfl⟩⟩
  exact (hrest ▸ hended).of_append_right

/-- Whole lines without some of them, up to an empty line at the end. -/
theorem thin_unifyLineEnds {text : String} (keep : ℕ → Bool) (n : ℕ)
    (hreturn : ReturnsEndLines text.toList) :
    let part := (unlines (kept keep n (lines (unreturned text)))).toList
    Lexer.thin keep n (unifyLineEnds text.toList) = part ++ ['\n'] ∨
      Lexer.thin keep n (unifyLineEnds text.toList) = part ∧ (part = [] ∨ Lexer.Complete part) := by
  intro part
  have hthin := thin_ended keep
    (fun l (hl : l ∈ lines (unreturned text)) => not_mem_of_mem_lines hl) n
  rw [← toList_eq_ended, toList_unreturned] at hthin
  have hpart {cs : List Char} (hcs : cs = ended (kept keep n (lines (unreturned text)))) :
      cs = part ++ ['\n'] ∨ cs = part ∧ (part = [] ∨ Lexer.Complete part) := by
    rcases eq_or_ne (kept keep n (lines (unreturned text))) [] with hnil | hne
    · have hempty : part = [] := by simp only [part, hnil]; rfl
      exact .inr ⟨by rw [hcs, hnil, hempty]; rfl, .inl hempty⟩
    · exact .inl (hcs.trans (ended_eq hne))
  rcases unifyLineEnds_cases hreturn with hwhole | ⟨hwhole, hcomplete⟩
  · rw [hwhole]
    exact hpart hthin
  · rw [hwhole]
    rw [Lexer.thin_append] at hthin
    generalize n + (text.toList.filter (· != '\r')).count '\n' = last at hthin
    by_cases hlast : keep last = true
    · rw [show Lexer.thin keep last ['\n'] = ['\n'] by simp [Lexer.thin, hlast]] at hthin
      have hne : kept keep n (lines (unreturned text)) ≠ [] := by
        intro hnil
        rw [hnil] at hthin
        simp [ended] at hthin
      rw [ended_eq hne] at hthin
      have heq := List.append_cancel_right hthin
      refine .inr ⟨heq, ?_⟩
      rw [← show _ = part from heq]
      exact Lexer.complete_thin hcomplete n
    · rw [show Lexer.thin keep last ['\n'] = [] by simp [Lexer.thin, hlast],
        List.append_nil] at hthin
      exact hpart hthin

/-- Without lines that no token lies on a text has the same tokens, if it ends on a line of a token
and the lines that a backslash joins stay. -/
theorem sameKinds_lex_kept {text : String} {keep : ℕ → Bool} {n : ℕ} (hn : 1 ≤ n)
    (hreturn : ReturnsEndLines text.toList)
    (hjoin : ∀ m, Joined (lines text) (m + 1) → keep (n + m) = true)
    (hfault : (lex n text.toList).fault = none)
    (hkeep : ∀ t ∈ (lex n text.toList).tokens.toList, t.isLayout = false →
      ∀ m, t.line ≤ m → m ≤ t.lastLine → keep m = true)
    (hlast : ∃ t ∈ (lex n text.toList).tokens.toList, t.isLayout = false ∧
      t.line ≤ t.lastLine ∧ ∀ m < n + (lines text).length, keep m = true → m ≤ t.lastLine) :
    (lex n text.toList).SameKinds (lex n (unlines (kept keep n (lines text))).toList) := by
  have hlines : ∀ l ∈ lines (unreturned text), '\n' ∉ l.toList :=
    fun l hl => not_mem_of_mem_lines hl
  have hcomplete := Lexer.complete_unifyLineEnds text.toList
  have hnext : (Lexer.State.start n).next = n := Nat.sub_add_cancel hn
  have hjoins := onJoins_unifyLineEnds (P := fun m => keep m = true) hreturn hjoin
  rw [← hnext] at hjoins
  obtain ⟨ts, f, hlexes⟩ := Lexer.exists_lexes (s := .start n) (.inr hcomplete)
  rw [Lexer.lex_eq hlexes] at hfault hkeep hlast ⊢
  simp only at hfault hkeep hlast
  subst hfault
  have hunreturned : (unlines (kept keep n (lines text))).toList.filter (· != '\r') =
      (unlines (kept keep n (lines (unreturned text)))).toList := by
    rw [← toList_unreturned, unreturned_unlines fun l hl =>
      not_mem_of_mem_lines (kept_subset keep n (lines text) hl), lines_unreturned, kept_map]
  obtain ⟨l, hl, hmem⟩ : ∃ l ∈ (kept keep n (lines (unreturned text))).getLast?,
      l.toList ≠ [] := by
    obtain ⟨t, ht, hplain, hle, hafter⟩ := hlast
    obtain ⟨a, c, b, heq, hc, hline⟩ := hlexes.exists_last (.inr hcomplete) ht hplain
    rw [hnext] at hline
    obtain ⟨rest, hrest⟩ := exists_ended hreturn
    rw [heq, List.append_assoc, List.cons_append] at hrest
    obtain ⟨l, hl, hmem⟩ := exists_mem_of_ended hrest hc hlines
    refine ⟨l, getLast?_kept hl (hline ▸ hkeep t ht hplain _ hle (Nat.le_refl _)) fun m hm hm' => ?_,
      List.ne_nil_of_mem hmem⟩
    rw [← Bool.not_eq_true]
    rw [lines_unreturned, List.length_map] at hm'
    exact fun hkept => absurd (hafter m hm' hkept) (by omega)
  have hpart := getLast?_unlines hl hmem
  have hopen : ¬ Lexer.Complete (unlines (kept keep n (lines (unreturned text)))).toList :=
    fun hcomplete => hlines l (kept_subset keep n _ (List.mem_of_getLast? hl))
      (List.mem_of_getLast? (hpart.symm.trans hcomplete))
  have hends := (unifyLineEnds_cases (hreturn.kept keep n)).resolve_right
    fun h => hopen (hunreturned ▸ h.2)
  rw [hunreturned] at hends
  have halike := hlexes.thin (.inr hcomplete) hjoins hkeep (fun h => by cases h) (.refl _)
  rw [hnext] at halike
  rcases thin_unifyLineEnds keep n hreturn with hthin | ⟨-, hnil | hwhole⟩
  · obtain ⟨ts', hparts, hkinds⟩ := halike
    rw [hthin, ← hends] at hparts
    rw [Lexer.lex_eq hparts]
    exact ⟨by simpa using hkinds, rfl⟩
  · rw [hnil, List.getLast?_nil] at hpart
    exact absurd (List.getLast?_eq_none_iff.mp hpart.symm) hmem
  · exact absurd hwhole hopen

/-! ## Lines that may be left out -/

theorem Lexer.Idle.isCode {l : String} (hl : ReturnsEndLines l.toList) (hfeed : '\n' ∉ l.toList)
    (h : Lexer.Idle (unreturned l).toList) : Chunk.isCode l = false := by
  obtain ⟨-, b, v, heq, hb, hv⟩ := h
  obtain ⟨rs, hrs, hreturns⟩ := exists_returns hl hfeed
  rw [← toList_unreturned, heq, List.append_assoc] at hrs
  have hblank : ∀ c ∈ b, isBlank c = true := by
    intro c hc
    have := hb c hc
    simp only [Lexer.isSpace, Bool.or_eq_true, beq_iff_eq] at this
    rcases this with (rfl | rfl) | rfl <;> rfl
  rw [Chunk.isCode, hrs, trimStart, List.dropWhile_append_of_pos hblank]
  rcases hv with rfl | hv
  · have hnone : rs.dropWhile isBlank = [] := by
      refine List.dropWhile_eq_nil_iff.mpr fun c hc => ?_
      rw [hreturns c hc]
      rfl
    rw [List.nil_append, hnone]
  · cases v with
    | nil => cases hv
    | cons c v =>
      obtain rfl := Option.some.inj hv
      rfl

theorem isCode_of_unread {text l : String} {k : ℕ} (hreturn : ReturnsEndLines text.toList)
    (hjoin : ¬ Joined (lines text) (k + 1)) (hfault : (lex 1 text.toList).fault = none)
    (hl : (lines text)[k]? = some l)
    (hunread : ∀ t ∈ (lex 1 text.toList).tokens.toList, t.isLayout = false →
      t.line ≤ k + 1 → t.lastLine < k + 1) : Chunk.isCode l = false := by
  have hlines : ∀ l ∈ lines (unreturned text), '\n' ∉ l.toList :=
    fun l hl => not_mem_of_mem_lines hl
  have hmem := List.mem_of_getElem? hl
  refine Lexer.Idle.isCode (returnsEndLines_of_mem_lines hreturn hmem)
    (not_mem_of_mem_lines hmem) ?_
  have hbare : (lines (unreturned text))[k]? = some (unreturned l) := by
    rw [lines_unreturned, List.getElem?_map, hl, Option.map_some]
  clear hl hmem
  generalize unreturned l = l at hbare
  generalize hls : lines (unreturned text) = ls at hlines hbare
  obtain ⟨hlt, rfl⟩ := List.getElem?_eq_some_iff.mp hbare
  have hw := hlines _ (List.getElem_mem hlt)
  have hsplit : ended ls =
      ended (ls.take k) ++ (ls[k].toList ++ '\n' :: ended (ls.drop (k + 1))) := by
    rw [← ended_cons, ← ended_append, ← List.drop_eq_getElem_cons, List.take_append_drop]
  have hcount : (ended (ls.take k)).count '\n' = k := by
    rw [count_ended fun l hl => hlines l (List.mem_of_mem_take hl), List.length_take]
    omega
  have hwhole := Lexer.complete_unifyLineEnds text.toList
  have hjoins := onJoins_unifyLineEnds (P := fun n => n ≠ k + 1) (n := 1) hreturn
    fun m hm heq => hjoin (by rwa [← heq, Nat.add_comm])
  obtain ⟨ts, f, hlexes⟩ := Lexer.exists_lexes (s := .start 1) (.inr hwhole)
  rw [Lexer.lex_eq hlexes] at hfault hunread
  simp only at hfault hunread
  subst hfault
  have hidle {m : List Char}
      (heq : unifyLineEnds text.toList = ended (ls.take k) ++ (ls[k].toList ++ '\n' :: m)) :
      Lexer.Idle ls[k].toList := by
    have hline : (Lexer.State.start 1).next + (ended (ls.take k)).count '\n' = k + 1 := by
      rw [hcount, show (Lexer.State.start 1).next = 1 from rfl, Nat.add_comm 1 k]
    exact hlexes.idle_of_unread (.inr hwhole) (hline.symm ▸ hjoins) heq
      ((complete_ended _).imp_left fun h => ⟨h, rfl⟩) hw (hline.symm ▸ hunread)
  rw [← show _ = ended ls from hls ▸ toList_eq_ended (unreturned text), toList_unreturned] at hsplit
  rcases unifyLineEnds_cases hreturn with hends | ⟨hends, hcomplete⟩
  · exact hidle (hends.trans hsplit)
  · -- a line feed at the end of the text begins an empty line
    rcases List.eq_nil_or_concat (ended (ls.drop (k + 1))) with hm | ⟨m, c, hm⟩
    · rw [hm, ← List.append_assoc] at hsplit
      have heq := List.append_cancel_right hsplit
      have hempty : ls[k].toList = [] := by
        by_contra hne
        exact hw (List.mem_of_getLast? ((heq ▸ hcomplete).of_append hne))
      rw [hempty]
      exact ⟨List.not_mem_nil, [], [], rfl, List.forall_mem_nil _, .inl rfl⟩
    · rw [hm, List.concat_eq_append, ← List.cons_append, ← List.append_assoc,
        ← List.append_assoc] at hsplit
      refine hidle (m := m) ?_
      rw [hends, (List.append_inj' hsplit rfl).1, List.append_assoc]

end Syntax

end NotebookSlice
