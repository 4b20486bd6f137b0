import NotebookSlice.Proofs.Syntax.Lexing.LineStart
import NotebookSlice.Proofs.Syntax.Thinning

/-! # How tokens are laid out

The order of tokens, and the lines that clauses begin, in terms of places in the
list of tokens. The lines may be those of a longer text.
-/

namespace NotebookSlice

open Text

theorem Text.ended_drop {ls : List String} {m r : List Char} (h : ended ls = m ++ r)
    (hlines : ∀ l ∈ ls, '\n' ∉ l.toList) (hm : m = [] ∨ Syntax.Lexer.Complete m) :
    ended (ls.drop (m.count '\n')) = r := by
  induction ls generalizing m with
  | nil =>
    obtain ⟨rfl, rfl⟩ := List.append_eq_nil_iff.mp h.symm
    rfl
  | cons l ls ih =>
    obtain ⟨hl, hls⟩ := List.forall_mem_cons.mp hlines
    rcases hm with rfl | hm
    · exact h
    · obtain ⟨v, m', rfl, hv⟩ := List.eq_append_cons_of_mem (List.mem_of_getLast? hm)
      simp only [ended, List.flatMap_cons, List.append_assoc, List.cons_append,
        List.nil_append] at h
      obtain ⟨rfl, hrest⟩ := Syntax.Lexer.line_unique hl hv h
      have hm' : m' = [] ∨ Syntax.Lexer.Complete m' := (eq_or_ne m' []).imp_right fun hne =>
        Syntax.Lexer.Complete.of_append (by rwa [List.append_cons] at hm) hne
      rw [List.count_append, List.count_cons_self, List.count_eq_zero.mpr hv, Nat.zero_add,
        List.drop_succ_cons]
      exact ih hrest hls hm'

namespace Syntax

/-- Tokens in the order of a text, on its lines. -/
structure Laid (l : Lexed) (lines : List String) : Prop where
  one_le {i : ℕ} {t : Token} : l.tokens[i]? = some t → t.isLayout = false → 1 ≤ t.line
  le {i : ℕ} {t : Token} : l.tokens[i]? = some t → t.line ≤ t.lastLine
  precedes {i j : ℕ} {t u : Token} : i < j → l.tokens[i]? = some t → l.tokens[j]? = some u →
    Lexer.Precedes t u
  adjoins {i : ℕ} {t u : Token} : l.tokens[i]? = some t → l.tokens[i + 1]? = some u →
    Lexer.Adjoins (Joined lines) t u
  depth {i : ℕ} {t : Token} : l.tokens[i]? = some t →
    (t.depth : ℤ) = Lexer.turns (l.tokens.toList.take (i + 1))
  newline {i : ℕ} {t : Token} : l.tokens[i]? = some t → t.kind = .newline → t.depth = 0
  mark {i : ℕ} {t : Token} : l.tokens[i]? = some t → Lexer.IsMark t → t.lastLine = t.line
  endmarker {i j : ℕ} {t : Token} : l.tokens[i]? = some t → t.kind = .endmarker → i < j →
    l.tokens[j]? = none
  clause {i : ℕ} {t u : Token} {k : Keyword} : l.tokens[i]? = some t → l.tokens[i + 1]? = some u →
    t.kind = .keyword k → u.kind = .punct .colon → t.depth = 0 →
    (∀ v, l.tokens[i - 1]? = some v → 0 < i → v.isLayout = true) →
    (∃ line, lines[t.line - 1]? = some line ∧ Lexer.BeginsClause k line.toList) ∨
      Joined lines t.line

theorem Laid.line_le {l : Lexed} {lines : List String} (h : Laid l lines) {i j : ℕ} {t u : Token}
    (hle : i ≤ j) (ht : l.tokens[i]? = some t) (hu : l.tokens[j]? = some u) : t.line ≤ u.line := by
  rcases Nat.eq_or_lt_of_le hle with rfl | hlt
  · rw [Option.some.inj (ht.symm.trans hu)]
  · exact Nat.le_trans (h.le ht) (h.precedes hlt ht hu).le

theorem exists_split {ts : List Token} {i : ℕ} {t : Token} (h : ts[i]? = some t) :
    ts = ts.take i ++ t :: ts.drop (i + 1) := by
  obtain ⟨hlt, rfl⟩ := List.getElem?_eq_some_iff.mp h
  rw [← List.drop_eq_getElem_cons hlt, List.take_append_drop]

namespace Lexer

theorem Ordered.depth_eq {P : ℕ → Prop} {s : State} {ts : List Token} {i : ℕ} {t : Token}
    (h : Ordered P s ts) (ht : ts[i]? = some t) :
    (t.depth : ℤ) = s.brackets.length + turns (ts.take (i + 1)) := by
  rw [h.depth _ _ _ (exists_split ht), List.take_add_one, ht]
  rfl

theorem BeginsClause.append {k : Keyword} {line : List Char} (h : BeginsClause k line)
    (cs : List Char) : BeginsClause k (line ++ cs) := by
  obtain ⟨w, v, w', more, rfl, hw, hw', hv⟩ := h
  exact ⟨w, v, w', more ++ cs, by simp, hw, hw', hv⟩

theorem exists_line {ls : List String} {m line rest : List Char} {k : Keyword}
    (h : ended ls = m ++ line ++ rest) (hlines : ∀ l ∈ ls, '\n' ∉ l.toList)
    (hm : m = [] ∨ Complete m) (hline : BeginsClause k line) :
    ∃ l, ls[m.count '\n']? = some l ∧ BeginsClause k l.toList := by
  have hdrop := ended_drop (h.trans (List.append_assoc ..)) hlines hm
  obtain ⟨w, v, w', more, rfl, hw, hw', hv⟩ := hline
  cases hls : ls.drop (m.count '\n') with
  | nil =>
    rw [hls] at hdrop
    simp [ended] at hdrop
  | cons l after =>
    have hl : '\n' ∉ l.toList := hlines l (List.mem_of_mem_drop (hls ▸ List.mem_cons_self))
    refine ⟨l, by rw [← List.head?_drop, hls, List.head?_cons], ?_⟩
    have hnone : '\n' ∉ w ++ v ++ w' ++ [':'] := by
      simp [hw.not_mem_newline, hw'.not_mem_newline, not_mem_of_ofSpelling? hv]
    rw [hls, ended, List.flatMap_cons, List.append_assoc] at hdrop
    have heq : l.toList ++ (['\n'] ++ ended after) = w ++ v ++ w' ++ [':'] ++ (more ++ rest) := by
      rw [ended, hdrop]
      simp
    obtain ⟨as, has⟩ : w ++ v ++ w' ++ [':'] <+: l.toList := by
      refine List.prefix_of_prefix_length_le ⟨_, heq.symm⟩ (List.prefix_append _ _) ?_
      by_contra hlong
      refine hnone (List.mem_of_getElem? (i := l.toList.length) ?_)
      rw [← List.getElem?_append_left (by omega), ← heq, List.getElem?_append_right (Nat.le_refl _)]
      simp
    exact ⟨w, v, w', as, by rw [← has]; simp, hw, hw', hv⟩

end Lexer

theorem fault_eq_none_of_endmarker {firstLine i : ℕ} {text : List Char} {t : Token}
    (ht : (lex firstLine text).tokens[i]? = some t) (hkind : t.kind = .endmarker) :
    (lex firstLine text).fault = none := by
  obtain ⟨ts, f, hlexes⟩ := Lexer.exists_lexes (s := .start firstLine)
    (.inr (Lexer.complete_unifyLineEnds text))
  rw [Lexer.lex_eq hlexes] at ht ⊢
  rw [List.getElem?_toArray] at ht
  exact (hlexes.ends_of_endmarker (exists_split ht) hkind).2

theorem fault_eq_none_of_parse {firstLine : ℕ} {text : List Char} {ss : List Stmt}
    (h : parse firstLine text = .ok ss) : (lex firstLine text).fault = none := by
  obtain ⟨_, _, _, _, -, -, hbody⟩ := exists_fileBody_of_parse h
  obtain ⟨_, _, _, -, hend⟩ := Parser.bind_eq_ok.mp hbody
  obtain ⟨_, _, _, hend, -⟩ := Parser.bind_eq_ok.mp hend
  obtain ⟨ht, hkind, -⟩ := Parser.kind_eq_ok.mp hend
  exact fault_eq_none_of_endmarker ht hkind

/-- What is no layout stands on lines of the text. -/
theorem line_bounds_of_lex {firstLine : ℕ} {text : String} {t : Token} (hfirst : 1 ≤ firstLine)
    (hreturn : ReturnsEndLines text.toList) (hfault : (lex firstLine text.toList).fault = none)
    (ht : t ∈ (lex firstLine text.toList).tokens.toList) (hplain : t.isLayout = false) :
    firstLine ≤ t.line ∧ t.lastLine < firstLine + (lines text).length := by
  have hcomplete := Lexer.complete_unifyLineEnds text.toList
  have hnext : (Lexer.State.start firstLine).next = firstLine := Nat.sub_add_cancel hfirst
  have hjoins := onJoins_unifyLineEnds (P := fun _ => True) (n := (Lexer.State.start firstLine).next)
    hreturn fun _ _ => trivial
  obtain ⟨ts, f, hlexes⟩ := Lexer.exists_lexes (s := .start firstLine) (.inr hcomplete)
  rw [Lexer.lex_eq hlexes] at hfault ht
  simp only at hfault ht
  subst hfault
  constructor
  · have hle := (hlexes.ordered (.inr hcomplete) hjoins).next_le t ht hplain
    rwa [hnext] at hle
  · obtain ⟨a, c, b, heq, hc, hline⟩ := hlexes.exists_last (.inr hcomplete) ht hplain
    obtain ⟨rest, hrest⟩ := exists_ended hreturn
    rw [heq, List.append_assoc, List.cons_append] at hrest
    obtain ⟨l, hl, -⟩ := exists_mem_of_ended hrest hc fun l hl => not_mem_of_mem_lines hl
    have hlt := (List.getElem?_eq_some_iff.mp hl).1
    rw [lines_unreturned, List.length_map] at hlt
    omega

theorem laid_lex {firstLine : ℕ} {text : String} {ls : List String} (hfirst : 1 ≤ firstLine)
    (hreturn : ReturnsEndLines text.toList) (hpart : lines text <+: ls.drop (firstLine - 1))
    (hfault : (lex firstLine text.toList).fault = none) :
    Laid (lex firstLine text.toList) ls := by
  have hcomplete := Lexer.complete_unifyLineEnds text.toList
  have hnext : (Lexer.State.start firstLine).next = firstLine := Nat.sub_add_cancel hfirst
  have hjoins := onJoins_unifyLineEnds (P := Joined ls) (n := firstLine) hreturn fun m hm => by
    rw [show firstLine + m = firstLine - 1 + m + 1 by omega]
    exact hm.of_part hpart
  rw [← hnext] at hjoins
  obtain ⟨ts, f, hlexes⟩ := Lexer.exists_lexes (s := .start firstLine) (.inr hcomplete)
  rw [Lexer.lex_eq hlexes] at hfault ⊢
  simp only at hfault
  subst hfault
  have hordered := hlexes.ordered (.inr hcomplete) hjoins
  have htoken (i : ℕ) : ts.toArray[i]? = ts[i]? := List.getElem?_toArray
  constructor
  case one_le =>
    intro i t ht hplain
    have := hordered.next_le t (List.mem_of_getElem? (htoken i ▸ ht)) hplain
    omega
  case le =>
    intro i t ht
    exact hordered.le t (List.mem_of_getElem? (htoken i ▸ ht))
  case precedes =>
    intro i j t u hlt ht hu
    simp only [htoken] at ht hu
    obtain ⟨hi, rfl⟩ := List.getElem?_eq_some_iff.mp ht
    obtain ⟨hj, rfl⟩ := List.getElem?_eq_some_iff.mp hu
    exact List.pairwise_iff_getElem.mp hordered.precedes i j hi hj hlt
  case adjoins =>
    intro i t u ht hu
    simp only [htoken] at ht hu
    obtain ⟨hi, rfl⟩ := List.getElem?_eq_some_iff.mp ht
    obtain ⟨hj, rfl⟩ := List.getElem?_eq_some_iff.mp hu
    exact List.isChain_iff_getElem.mp hordered.adjoins i hj
  case depth =>
    intro i t ht
    simp only [htoken] at ht
    simpa [Lexer.State.start] using hordered.depth_eq ht
  case newline =>
    intro i t ht
    exact hordered.newline t (List.mem_of_getElem? (htoken i ▸ ht))
  case mark =>
    intro i t ht
    exact hordered.mark t (List.mem_of_getElem? (htoken i ▸ ht))
  case endmarker =>
    intro i j t ht hkind hlt
    simp only [htoken] at ht ⊢
    have := List.drop_eq_nil_iff.mp (hlexes.ends_of_endmarker (exists_split ht) hkind).1
    exact List.getElem?_eq_none (by omega)
  case clause =>
    intro i t u k ht hu hk hcolon hdepth hbefore
    simp only [htoken] at ht hu hbefore
    have hsplit : ts = ts.take i ++ t :: u :: ts.drop (i + 2) := by
      have hdrop : ts.drop (i + 1) = u :: ts.drop (i + 2) := by
        obtain ⟨hlt, rfl⟩ := List.getElem?_eq_some_iff.mp hu
        exact List.drop_eq_getElem_cons hlt
      rw [← hdrop]
      exact exists_split ht
    have hlayout : ts.take i = [] ∧ (Lexer.State.start firstLine).fresh = true ∨
        ∃ l ∈ (ts.take i).getLast?, l.isLayout = true := by
      rcases Nat.eq_zero_or_pos i with rfl | hpos
      · exact .inl ⟨rfl, rfl⟩
      · obtain ⟨hlt, -⟩ := List.getElem?_eq_some_iff.mp ht
        refine .inr ⟨ts[i - 1], ?_, hbefore _ (List.getElem?_eq_getElem _) hpos⟩
        rw [List.getLast?_take, if_neg (by omega), List.getElem?_eq_getElem (by omega)]
        rfl
    refine (hlexes.exists_clause (.inr hcomplete) hjoins hsplit hk hcolon hdepth hlayout).imp_left ?_
    rintro ⟨m, line, hm, hline, hcount, hbegin⟩
    obtain ⟨rest, hrest⟩ := exists_ended hreturn
    rw [hm] at hrest
    obtain ⟨l, hl, hbegins⟩ := Lexer.exists_line hrest (fun l hl => not_mem_of_mem_lines hl)
      (hbegin.imp_left And.left) hline
    rw [lines_unreturned, List.getElem?_map, Option.map_eq_some_iff] at hl
    obtain ⟨l, hl, rfl⟩ := hl
    have hmem := List.mem_of_getElem? hl
    refine ⟨l, ?_, ?_⟩
    · obtain ⟨hlt, heq⟩ := List.getElem?_eq_some_iff.mp hl
      rw [hcount, hnext, Nat.sub_add_comm hfirst, ← List.getElem?_drop,
        List.prefix_iff_getElem?.mp hpart _ hlt, heq]
    · obtain ⟨rs, hrs, -⟩ := exists_returns (returnsEndLines_of_mem_lines hreturn hmem)
        (not_mem_of_mem_lines hmem)
      rw [hrs, ← toList_unreturned]
      exact hbegins.append rs

end Syntax

end NotebookSlice
