import NotebookSlice.Proofs.Cell.Recovery
import NotebookSlice.Proofs.Flow.Parsed
import NotebookSlice.Proofs.Log.Shape

/-! # The slice of the gathered cell

All statements of a gathered cell are needed. So its own slice has the same
statements as the cell, and leaves out nothing but blank lines and comments.
-/

namespace NotebookSlice

open List (Forall₂)
open NotebookSlice.Flow
open Text Syntax

/-- Code without lines of the notebook's own is read as a whole, if it can be parsed so. -/
theorem Code.eq_of_parse {source : String} {ss : List Stmt} {code : Code}
    (hparse : parse 1 source.toList = .ok ss) (hmagic : ∀ l ∈ lines source, isMagic l = false)
    (h : ofText source = .ok code) : code = ⟨ss, []⟩ := by
  rw [ofText, blankMagic_eq_self hmagic] at h
  split at h
  · cases h
  · rw [ofPlain_of_ok hparse] at h
    exact (Except.ok.inj h).symm

/-- A program has the same tokens, on other lines, if exactly the lines of its units are shown. -/
theorem sameKinds_lex_shown {c : Configuration} {all : List String} {n next : ℕ}
    {text : String} {ss : List Stmt} {shown : ℕ → Bool} (hn : 1 ≤ n)
    (hreturn : ReturnsEndLines text.toList) (hpart : lines text <+: all.drop (n - 1))
    (hplaced : decoratorsInLine true (lex n text.toList).tokens.toList = true)
    (hparse : parse n text.toList = .ok ss) (hne : ss ≠ [])
    (hjoin : ∀ m, n ≤ m → m < n + (lines text).length → Joined all m →
      ShowsLine (walkAll c (some all) ss next) m)
    (hshown : ∀ m, n ≤ m → m < n + (lines text).length →
      (shown m = true ↔ ShowsLine (walkAll c (some all) ss next) m)) :
    (lex n text.toList).SameKinds (lex n (unlines (kept shown n (lines text))).toList) := by
  have hfault := fault_eq_none_of_parse hparse
  let shown' (m : ℕ) : Bool := shown m || decide (n + (lines text).length ≤ m)
  have hshown' {m : ℕ} (hle : n ≤ m) (hm : m < n + (lines text).length →
      ShowsLine (walkAll c (some all) ss next) m) : shown' m = true := by
    rcases Nat.lt_or_ge m (n + (lines text).length) with hlt | hge
    · simp [shown', (hshown m hle hlt).mpr (hm hlt)]
    · simp [shown', hge]
  obtain ⟨t, ht, hplain, hle, -, hwithin⟩ :=
    within_of_parse (c := c) hn hreturn hpart hplaced hparse hne
  rw [show kept shown n (lines text) = kept shown' n (lines text) from
    kept_congr fun m _ hm => by simp [shown', hm]]
  refine sameKinds_lex_kept hn hreturn (fun m hm => ?_) hfault
    (fun u hu huplain m hfirst hlast => ?_) ⟨t, ht, hplain, hle, fun m hm hmshown => ?_⟩
  · refine hshown' (Nat.le_add_right n m) fun hlt => hjoin _ (Nat.le_add_right n m) hlt ?_
    rw [show n + m = n - 1 + m + 1 by omega]
    exact hm.of_part hpart
  · obtain ⟨hfirst', -⟩ := line_bounds_of_lex hn hreturn hfault hu huplain
    have hfirst' := Nat.le_trans hfirst' hfirst
    refine hshown' hfirst' fun hlt => ?_
    by_cases hm : Joined all m
    · exact hjoin m hfirst' hlt hm
    · exact showsLine_of_parse hn hreturn hpart hplaced hparse hne hu huplain hfirst hlast hm next
  · rcases Nat.lt_or_ge m n with hlt | hge
    · have := (line_bounds_of_lex hn hreturn hfault ht hplain).1
      omega
    · rw [Bool.or_eq_true, decide_eq_true_eq] at hmshown
      obtain ⟨w, hw, -, hlast⟩ :=
        (hshown m hge hm).mp (hmshown.resolve_right (Nat.not_le_of_lt hm))
      exact Nat.le_trans hlast (hwithin next w hw).2

/-- The last slice of an entry is made of the lines of its statements. -/
theorem Log.Sound.exists_ownSlice {log : Log} (h : log.Sound) {e : Entry} (he : e ∈ log.entries)
    (hsome : e.statements ≠ []) (hcounted : ∀ w ∈ e.statements, 1 ≤ w.first) :
    ∃ s, (log.sliceEntry e).slices.getLast? = some s ∧ s.cell = e.cell ∧
      (∀ n : ℕ, (n : ℤ) ∈ s.lineNumbers ↔ ShowsLine e.statements n) ∧
      s.text? =
        some (unlines (kept (fun n => decide ((n : ℤ) ∈ s.lineNumbers)) 1 e.cell.lines)) := by
  obtain ⟨s, hs, hslice⟩ := h.exists_getLast?_slices he hsome
  refine ⟨s, hs, hslice.cell, fun n => ?_, ?_⟩
  · rw [hslice.mem_lineNumbers]
    constructor
    · rintro ⟨w, hw, -, hfirst, hlast⟩
      exact ⟨w, hw, Int.ofNat_le.mp hfirst, Int.ofNat_le.mp hlast⟩
    · rintro ⟨w, hw, hfirst, hlast⟩
      exact ⟨w, hw, h.refs_subset_closure he (List.mem_map_of_mem hw), Int.ofNat_le.mpr hfirst,
        Int.ofNat_le.mpr hlast⟩
  · rw [← hslice.cell]
    refine CellSlice.text?_of_increasing hslice.increasing fun n hn => ?_
    obtain ⟨w, hw, -, hfirst, -⟩ := (hslice.mem_lineNumbers n).mp hn
    have := hcounted w hw
    omega

namespace Session

/-- The last slice of a gathered cell is its own. It has the statements of the cell, on other lines,
if the cell is parsed as a whole and has no lines of the notebook's own, carriage returns only end
lines, lines that a backslash joins are lines of statements, and decorators begin on the line of
their mark. -/
theorem complete_ownSlice {session : Session} (h : session.Reachable) {e : Entry}
    (he : e ∈ session.log.entries) {ss : List Stmt}
    (hparse : parse 1 e.cell.text.toList = .ok ss) (hne : ss ≠ [])
    (hmagic : ∀ l ∈ e.cell.lines, isMagic l = false)
    (hreturn : ReturnsEndLines e.cell.text.toList)
    (hjoin : ∀ n, Joined e.cell.lines n → ShowsLine e.statements n)
    (hplaced : decoratorsInLine true (lex 1 e.cell.text.toList).tokens.toList = true) :
    ∃ s part ss', (session.log.sliceEntry e).slices.getLast? = some s ∧ s.cell = e.cell ∧
      s.text? = some part ∧ parse 1 part.toList = .ok ss' ∧ Forall₂ Stmt.SameForm ss ss' ∧
      part = unlines (kept (fun n => decide ((n : ℤ) ∈ s.lineNumbers)) 1 e.cell.lines) ∧
      ∀ k l, e.cell.lines[k]? = some l → ((k + 1 : ℕ) : ℤ) ∉ s.lineNumbers →
        Chunk.isCode l = false := by
  have hsound := h.log.sound
  have hfault := fault_eq_none_of_parse hparse
  have hstatements : e.statements = walkAll e.configuration (some e.cell.lines) ss 0 := by
    obtain ⟨code, hcode, ha⟩ := analyzeCell_eq_ok.mp (hsound.analysed e he)
    rw [Code.eq_of_parse hparse hmagic hcode] at ha
    rw [Entry.statements, ← ha]
    rfl
  have hpart : lines e.cell.text <+: e.cell.lines.drop (1 - 1) := List.prefix_refl _
  obtain ⟨last, -, -, -, -, hwithin⟩ := within_of_parse (c := e.configuration) (Nat.le_refl 1)
    hreturn hpart hplaced hparse hne
  obtain ⟨s, hs, hcell, hlines, htext⟩ := hsound.exists_ownSlice he
    (hstatements ▸ walkAll_ne_nil hne) fun w hw => (hwithin 0 w (hstatements ▸ hw)).1
  have hshown : ∀ t ∈ (lex 1 e.cell.text.toList).tokens.toList, t.isLayout = false →
      ∀ n : ℕ, t.line ≤ n → n ≤ t.lastLine → (n : ℤ) ∈ s.lineNumbers := by
    intro t ht hplain n hfirst hlast
    rw [hlines]
    by_cases hn : Joined e.cell.lines n
    · exact hjoin n hn
    · rw [hstatements]
      exact showsLine_of_parse (Nat.le_refl 1) hreturn hpart hplaced hparse hne ht hplain hfirst
        hlast hn 0
  have hsame : (lex 1 e.cell.text.toList).SameKinds (lex 1
      (unlines (kept (fun n => decide ((n : ℤ) ∈ s.lineNumbers)) 1 e.cell.lines)).toList) := by
    apply sameKinds_lex_shown (Nat.le_refl 1) hreturn hpart hplaced hparse hne
    · rw [← hstatements]
      exact fun n _ _ => hjoin n
    · rw [← hstatements]
      exact fun n _ _ => decide_eq_true_iff.trans (hlines n)
  obtain ⟨ss', hparse', hforms⟩ := parse_sameForm hsame hparse
  refine ⟨s, _, ss', hs, hcell, htext, hparse', hforms, rfl, fun k l hl hout => ?_⟩
  refine isCode_of_unread hreturn (fun hn => hout ((hlines _).mpr (hjoin _ hn))) hfault hl
    fun t ht hplain hfirst => ?_
  by_contra hlast
  exact hout (hshown t ht hplain (k + 1) hfirst (Nat.le_of_not_lt hlast))

def commented : String := "# one\nif a:\n\n    x = (1,\n        2) + \\\n  b\n\ny = x"

/-- Of the cell only the comment and the blank lines are left out. -/
theorem complete_ownSlice_commented : ∃ session : Session, session.Reachable ∧
    ∃ e ∈ session.log.entries, e.cell.text = commented ∧
      ∃ ss, parse 1 e.cell.text.toList = .ok ss ∧ ss ≠ [] ∧
      ∃ s part ss', (session.log.sliceEntry e).slices.getLast? = some s ∧ s.text? = some part ∧
        parse 1 part.toList = .ok ss' ∧ Forall₂ Stmt.SameForm ss ss' := by
  obtain ⟨session, h, htexts, hjoins⟩ := exists_of_postAll [.counted 1 commented]
    (p := fun log => log.entries.map (·.cell.text) = [commented] ∧
      ∀ e ∈ log.entries, ∀ k ∈ List.range e.cell.lines.length,
        (e.cell.lines[k]?.map unreturned).bind (·.toList.getLast?) = some '\\' →
          ShowsLine e.statements (k + 1) ∧ ShowsLine e.statements (k + 2)) (by decide +kernel)
  obtain ⟨e, he, htext⟩ := List.mem_map.mp (htexts ▸ List.mem_singleton_self _)
  obtain ⟨ss, hparse, hsome⟩ := exists_of_any (r := parse 1 e.cell.text.toList)
    (p := fun ss => !ss.isEmpty) (by rw [htext]; decide +kernel)
  have hne : ss ≠ [] := by simpa using hsome
  obtain ⟨s, part, ss', hs, -, hpart, hparse', hforms, -⟩ := complete_ownSlice h he hparse hne
    (by rw [Cell.lines, htext]; decide) (by rw [htext]; decide)
    (forall_joined_iff.mpr (hjoins e he)) (by rw [htext]; decide +kernel)
  exact ⟨session, h, e, he, htext, ss, hparse, hne, s, part, ss', hs, hpart, hparse', hforms⟩

def decorated : String := "@(\n    cached\n)\ndef f():\n    return 1"

/-- A decorator in parentheses begins on a later line than its mark, so its first line is left out
of the slice, which cannot be parsed. -/
theorem not_complete_ownSlice : ¬ ∀ session : Session, session.Reachable →
    ∀ e ∈ session.log.entries, ∀ ss, parse 1 e.cell.text.toList = .ok ss → ss ≠ [] →
      (∀ l ∈ e.cell.lines, isMagic l = false) →
      ∃ s part ss', (session.log.sliceEntry e).slices.getLast? = some s ∧ s.text? = some part ∧
        parse 1 part.toList = .ok ss' ∧ Forall₂ Stmt.SameForm ss ss' := by
  intro hall
  obtain ⟨session, h, hentries⟩ := exists_of_postAll [.counted 1 decorated]
    (p := fun log => log.entries.map (fun e => (e.cell.text, e.statements.map fun w =>
      (w.first, w.last))) = [(decorated, [(2, 5)])]) (by decide +kernel)
  obtain ⟨e, he, heq⟩ := List.mem_map.mp (hentries ▸ List.mem_singleton_self _)
  obtain ⟨htext, hstatements⟩ := Prod.mk.inj heq
  obtain ⟨ss, hparse, hsome⟩ := exists_of_any (r := parse 1 e.cell.text.toList)
    (p := fun ss => !ss.isEmpty) (by rw [htext]; decide +kernel)
  have hne : ss ≠ [] := by simpa using hsome
  obtain ⟨w, hw, hlines⟩ := List.map_eq_singleton_iff.mp hstatements
  obtain ⟨hfirst, hlast⟩ := Prod.mk.inj hlines
  obtain ⟨s, hs, -, hshown, hpart⟩ := h.log.sound.exists_ownSlice he (by simp [hw])
    (by simp [hw, hfirst])
  obtain ⟨s', part, ss', hs', hpart', hparse', -⟩ := hall session h e he ss hparse hne
    (by rw [Cell.lines, htext]; decide)
  obtain rfl := Option.some.inj (hs.symm.trans hs')
  have hkept : kept (fun n => decide ((n : ℤ) ∈ s.lineNumbers)) 1 e.cell.lines =
      kept (fun n => decide (2 ≤ n ∧ n ≤ 5)) 1 e.cell.lines := by
    refine kept_congr fun k _ _ => decide_eq_decide.mpr ?_
    rw [hshown]
    simp [ShowsLine, hw, hfirst, hlast]
  rw [hkept, Cell.lines, htext] at hpart
  rw [← Option.some.inj (hpart.symm.trans hpart')] at hparse'
  exact ne_ok_of_toOption (by decide +kernel) ss' hparse'

end Session

end NotebookSlice
