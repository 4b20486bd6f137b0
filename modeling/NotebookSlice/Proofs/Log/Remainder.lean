import NotebookSlice.Proofs.Cell.Composition
import NotebookSlice.Proofs.Log.Legality
import NotebookSlice.Proofs.Log.OwnSlice
import NotebookSlice.Proofs.Slice.Whole

/-! # The text of a slice

Chunks that are programs one by one can be left out one by one. So if of each chunk of a
cell all statements are needed or none, then what the slice has of the cell is parsed to
the program that remains of it.
-/

namespace NotebookSlice

open List (Forall₂)
open NotebookSlice.Flow
open Text Syntax

/-! ## Lines with their statements -/

theorem Syntax.parse_nil : parse 1 [] = .ok [] := by
  obtain ⟨ss, hparse, hnil⟩ := exists_of_any (r := parse 1 [])
    (p := List.isEmpty) (by decide +kernel)
  rw [hparse, List.isEmpty_iff.mp hnil]

/-- The lines are parsed to the statements, up to their positions, wherever they begin. No
statements are parsed from no lines. -/
def ParsesTo (ls : List String) (ss : List Stmt) : Prop :=
  ls = [] ∧ ss = [] ∨ (unlines ls).toList ≠ [] ∧ ∀ n, 1 ≤ n →
    ∃ ss', parse n (unlines ls).toList = .ok ss' ∧ Forall₂ Stmt.SameForm ss ss'

namespace ParsesTo

variable {ls ms : List String} {ss ts : List Stmt}

theorem ne_nil_of_unlines (h : (unlines ls).toList ≠ []) : ls ≠ [] := by
  rintro rfl
  exact h rfl

theorem append (h : ParsesTo ls ss) (h' : ParsesTo ms ts) : ParsesTo (ls ++ ms) (ss ++ ts) := by
  rcases h with ⟨rfl, rfl⟩ | ⟨hls, h⟩
  · exact h'
  · rcases h' with ⟨rfl, rfl⟩ | ⟨hms, h'⟩
    · rw [List.append_nil, List.append_nil]
      exact .inr ⟨hls, h⟩
    · have htext := unlines_append (ne_nil_of_unlines hls) (ne_nil_of_unlines hms)
      right
      rw [htext]
      constructor
      · exact List.append_ne_nil_of_left_ne_nil hls _
      · intro n hn
        obtain ⟨ss', hparse, hss⟩ := h n hn
        obtain ⟨k, -, hall⟩ := exists_parse_append hn hms hparse
        obtain ⟨ts', hparse', hts⟩ := h' (n + k) (Nat.le_add_right_of_le hn)
        exact ⟨ss' ++ ts', hall ts' hparse', List.rel_append hss hts⟩

theorem exists_parse (h : ParsesTo ls ss) :
    ∃ ss', parse 1 (unlines ls).toList = .ok ss' ∧ Forall₂ Stmt.SameForm ss ss' := by
  rcases h with ⟨rfl, rfl⟩ | ⟨-, h⟩
  · exact ⟨[], parse_nil, .nil⟩
  · exact h 1 (Nat.le_refl 1)

end ParsesTo

/-! ## The lines of kept units -/

section Units

variable {conf : Configuration} {all : List String} {n next first last : ℕ} {text : String}
  {ss : List Stmt} {keep shown : ℕ → Bool} {units part : List Statement}

/-- From the first line to the last, exactly the lines of kept units are shown. Joined lines have
units. -/
structure Showing (keep shown : ℕ → Bool) (units : List Statement) (all : List String)
    (first last : ℕ) : Prop where
  shown_iff : ∀ m, first ≤ m → m < last →
    (shown m = true ↔ ∃ w ∈ units, keep w.index = true ∧ w.first ≤ m ∧ m ≤ w.last)
  joined : ∀ m, first ≤ m → m < last → Joined all m → ShowsLine units m

theorem Showing.restrict {first' last' : ℕ} (h : Showing keep shown units all first last)
    (hfirst : first ≤ first') (hlast : last' ≤ last) (hsub : part ⊆ units)
    (hpart : ∀ w ∈ units, w.first < last' → first' ≤ w.last → w ∈ part) :
    Showing keep shown part all first' last' where
  shown_iff m hm hm' := by
    rw [h.shown_iff m (Nat.le_trans hfirst hm) (Nat.lt_of_lt_of_le hm' hlast)]
    constructor
    · rintro ⟨w, hw, hkeep, hle, hle'⟩
      exact ⟨w, hpart w hw (Nat.lt_of_le_of_lt hle hm') (Nat.le_trans hm hle'), hkeep, hle, hle'⟩
    · rintro ⟨w, hw, hkept⟩
      exact ⟨w, hsub hw, hkept⟩
  joined m hm hm' hjoin := by
    obtain ⟨w, hw, hle, hle'⟩ :=
      h.joined m (Nat.le_trans hfirst hm) (Nat.lt_of_lt_of_le hm' hlast) hjoin
    exact ⟨w, hpart w hw (Nat.lt_of_le_of_lt hle hm') (Nat.le_trans hm hle'), hle, hle'⟩

/-- The lines of a program that is shown as a whole are parsed to this program. -/
theorem parsesTo_of_shown (hn : 1 ≤ n) (hreturn : ReturnsEndLines text.toList)
    (hpart : lines text <+: all.drop (n - 1))
    (hplaced : decoratorsInLine true (lex n text.toList).tokens.toList = true)
    (hparse : parse n text.toList = .ok ss) (hne : ss ≠ [])
    (hkeep : ∀ w ∈ walkAll conf (some all) ss next, keep w.index = true)
    (hshown : Showing keep shown (walkAll conf (some all) ss next) all n
      (n + (lines text).length)) :
    ParsesTo (kept shown n (lines text)) ss := by
  have hsame : (lex n text.toList).SameKinds
      (lex n (unlines (kept shown n (lines text))).toList) := by
    apply sameKinds_lex_shown hn hreturn hpart hplaced hparse hne hshown.joined
    intro m hm hm'
    rw [hshown.shown_iff m hm hm']
    constructor
    · rintro ⟨w, hw, -, hle⟩
      exact ⟨w, hw, hle⟩
    · rintro ⟨w, hw, hle⟩
      exact ⟨w, hw, hkeep w hw, hle⟩
  have hparses (k : ℕ) : ∃ ss', parse k (unlines (kept shown n (lines text))).toList = .ok ss' ∧
      Forall₂ Stmt.SameForm ss ss' := parse_sameForm (hsame.trans (sameKinds_lex n k _)) hparse
  right
  constructor
  · intro hnil
    obtain ⟨ss', hparse', hforms⟩ := hparses 1
    rw [hnil, parse_nil, Except.ok.injEq] at hparse'
    subst hparse'
    exact hne (List.forall₂_nil_right_iff.mp hforms)
  · intro k _
    exact hparses k

end Units

/-! ## Chunks -/

namespace Chunk

variable {conf : Configuration} {all : List String} {n next : ℕ} {c : Chunk} {cs : List Chunk}
  {ls : List String} {ss : List Stmt} {keep shown : ℕ → Bool}

/-- The chunk is a program whose decorators begin on the line of their mark. -/
structure IsProgram (c : Chunk) : Prop where
  parses : c.Parses
  placed : decoratorsInLine true (lex c.line c.text.toList).tokens.toList = true

/-- The unit begins in the chunk. -/
def Holds (c : Chunk) (w : Statement) : Prop :=
  c.line ≤ w.first ∧ w.first < c.line + c.lines.length

instance (c : Chunk) (w : Statement) : Decidable (c.Holds w) :=
  inferInstanceAs (Decidable (_ ∧ _))

/-- The chunk has whole lines of a longer text and is parsed to the statements. -/
structure IsPart (all : List String) (c : Chunk) (ss : List Stmt) : Prop where
  counted : 1 ≤ c.line
  lines_text : Text.lines c.text = c.lines
  part : Text.lines c.text <+: all.drop (c.line - 1)
  returns : ReturnsEndLines c.text.toList
  placed : decoratorsInLine true (lex c.line c.text.toList).tokens.toList = true
  parses : parse c.line c.text.toList = .ok ss

inductive Parts (all : List String) : (n : ℕ) → List Chunk → List Stmt → Prop where
  | nil (n : ℕ) : Parts all n [] []
  | cons {n : ℕ} {c : Chunk} {cs : List Chunk} {ss ts : List Stmt} (line : c.line = n)
      (head : c.IsPart all ss) (rest : Parts all (n + c.lines.length) cs ts) :
      Parts all n (c :: cs) (ss ++ ts)

theorem Tiles.parts (h : Tiles n cs ls) (hn : 1 ≤ n) (hall : ls = all.drop (n - 1))
    (hlines : ∀ l ∈ all, '\n' ∉ l.toList) (hreturns : ∀ l ∈ all, ReturnsEndLines l.toList)
    (hprograms : ∀ c ∈ cs, c.IsProgram) : Parts all n cs (Code.ofChunks cs).statements := by
  induction h with
  | nil => exact .nil _
  | @cons n c cs ls hline hne hrest ih =>
    obtain ⟨⟨⟨ss, hparse⟩, hplaced⟩, hcs⟩ := List.forall_mem_cons.mp hprograms
    have hsub : ∀ l ∈ c.lines, l ∈ all := fun l hl =>
      List.mem_of_mem_drop (hall ▸ List.mem_append_left ls hl)
    have htext : Text.lines c.text = c.lines := lines_unlines hne fun l hl => hlines l (hsub l hl)
    have hdrop : ls = all.drop (n + c.lines.length - 1) := by
      rw [Nat.sub_add_comm hn, ← List.drop_drop, ← hall, List.drop_left]
    rw [Code.ofChunks_cons, Code.ofChunk_of_ok hparse]
    refine .cons hline ⟨hline ▸ hn, htext, ?_, returnsEndLines_unlines fun l hl =>
      hreturns l (hsub l hl), hplaced, hparse⟩ (ih (Nat.le_add_right_of_le hn) hdrop hcs)
    rw [htext, hline, ← hall]
    exact List.prefix_append c.lines ls

namespace IsPart

variable (h : c.IsPart all ss)
include h

theorem legal : ∀ s ∈ ss, s.Legal := legal_of_parse h.parses

theorem within : ∀ w ∈ walkAll conf (some all) ss next,
    c.line ≤ w.first ∧ w.last < c.line + c.lines.length := by
  intro w hw
  have hne : ss ≠ [] := by
    rintro rfl
    cases hw
  obtain ⟨t, -, -, -, hlt, hwithin⟩ :=
    within_of_parse (c := conf) h.counted h.returns h.part h.placed h.parses hne
  obtain ⟨hfirst, hlast⟩ := hwithin next w hw
  exact ⟨hfirst, h.lines_text ▸ Nat.lt_of_le_of_lt hlast hlt⟩

theorem holds : ∀ w ∈ walkAll conf (some all) ss next, c.Holds w := by
  intro w hw
  obtain ⟨hfirst, hlast⟩ := h.within w hw
  exact ⟨hfirst, Nat.lt_of_le_of_lt (proper_walkAll _ _ h.legal _ w hw).first_le_last hlast⟩

/-- A program that is kept as a whole or not at all is what is shown of its lines. -/
theorem parsesTo (htogether : ∀ v ∈ walkAll conf (some all) ss next,
      ∀ w ∈ walkAll conf (some all) ss next, keep v.index = true → keep w.index = true)
    (hshown : Showing keep shown (walkAll conf (some all) ss next) all c.line
      (c.line + c.lines.length)) :
    ParsesTo (kept shown c.line c.lines) (keptBlock (some all) keep ss next).1 := by
  by_cases hsome : ∃ v ∈ walkAll conf (some all) ss next, keep v.index = true
  · obtain ⟨v, hv, hkeep⟩ := hsome
    have hne : ss ≠ [] := by
      rintro rfl
      cases hv
    rw [keptBlock_eq_self h.legal fun w hw => htogether v hv w hw hkeep]
    rw [← h.lines_text] at hshown ⊢
    exact parsesTo_of_shown h.counted h.returns h.part h.placed h.parses hne
      (fun w hw => htogether v hv w hw hkeep) hshown
  · have hnone : ∀ w ∈ walkAll conf (some all) ss next, keep w.index = false :=
      fun w hw => Bool.eq_false_of_not_eq_true fun hkeep => hsome ⟨w, hw, hkeep⟩
    rw [keptBlock_eq_nil h.legal hnone]
    left
    constructor
    · apply kept_eq_nil
      intro m hm hm'
      rw [Bool.eq_false_iff, ne_eq, hshown.shown_iff m hm hm']
      rintro ⟨w, hw, hkeep, -⟩
      exact hsome ⟨w, hw, hkeep⟩
    · rfl

end IsPart

namespace Parts

theorem first_le (h : Parts all n cs ss) :
    ∀ w ∈ walkAll conf (some all) ss next, n ≤ w.first := by
  induction h generalizing next with
  | nil => exact List.forall_mem_nil _
  | cons hline hhead _ ih =>
    rw [walkAll_append]
    exact List.forall_mem_append.mpr ⟨fun w hw => hline ▸ (hhead.within w hw).1,
      fun w hw => Nat.le_trans (Nat.le_add_right _ _) (ih w hw)⟩

/-- Chunks that are kept as a whole or not at all are what is shown of their lines. -/
theorem parsesTo (h : Parts all n cs ss)
    (htogether : ∀ c ∈ cs, ∀ v ∈ walkAll conf (some all) ss next,
      ∀ w ∈ walkAll conf (some all) ss next, c.Holds v → c.Holds w → keep v.index = true →
        keep w.index = true)
    (hshown : Showing keep shown (walkAll conf (some all) ss next) all n
      (n + (cs.flatMap Chunk.lines).length)) :
    ParsesTo (kept shown n (cs.flatMap Chunk.lines)) (keptBlock (some all) keep ss next).1 := by
  induction h generalizing next with
  | nil => exact .inl ⟨rfl, rfl⟩
  | @cons n c cs ss ts hline hhead hrest ih =>
    obtain ⟨hfirst, hlater⟩ := List.forall_mem_cons.mp htogether
    rw [walkAll_append] at hfirst hlater hshown
    rw [List.flatMap_cons, List.length_append] at hshown
    rw [List.flatMap_cons, kept_append, keptBlock_append, (keptOf_walkAll (c := conf) hhead.legal
      next).stop]
    have hle : ∀ w ∈ walkAll conf (some all) ss next,
        c.line ≤ w.first ∧ w.last < c.line + c.lines.length := hhead.within
    have hle' : ∀ w ∈ walkAll conf (some all) ts (next + (walkAll conf (some all) ss next).length),
        n + c.lines.length ≤ w.first := hrest.first_le
    apply ParsesTo.append
    · subst hline
      apply hhead.parsesTo
      · intro v hv w hw
        exact hfirst v (List.mem_append_left _ hv) w (List.mem_append_left _ hw) (hhead.holds v hv)
          (hhead.holds w hw)
      · apply hshown.restrict (Nat.le_refl _) (by omega) (List.subset_append_left _ _)
        intro w hw hlt _
        refine (List.mem_append.mp hw).resolve_right fun hw => ?_
        exact absurd (hle' w hw) (Nat.not_le_of_lt hlt)
    · apply ih
      · intro d hd v hv w hw
        exact hlater d hd v (List.mem_append_right _ hv) w (List.mem_append_right _ hw)
      · apply hshown.restrict (Nat.le_add_right _ _) (by omega) (List.subset_append_right _ _)
        intro w hw _ hge
        refine (List.mem_append.mp hw).resolve_left fun hw => ?_
        have := (hle w hw).2
        omega

end Parts

end Chunk

/-- The slice of `e` has the program that remains of the cell of `f`, on other lines, if of each
chunk all statements are needed or none. The chunks of the cell are programs whose decorators begin
on the line of their mark, carriage returns only end lines, there are no lines of the notebook's
own, and lines that a backslash joins are lines of statements. -/
theorem Session.exists_parse_slice {session : Session} (h : session.Reachable) (e : Entry)
    {f : Entry} (hf : f ∈ session.log.entries) {code : Code}
    (hcode : Code.ofText f.cell.text = .ok code) (hmagic : ∀ l ∈ f.cell.lines, isMagic l = false)
    (hreturn : ReturnsEndLines f.cell.text.toList)
    (hprograms : ∀ c ∈ Chunk.ofText f.cell.text, c.IsProgram)
    (hjoin : ∀ n, Joined f.cell.lines n → ShowsLine f.statements n)
    (htogether : ∀ c ∈ Chunk.ofText f.cell.text, ∀ v ∈ f.statements, ∀ w ∈ f.statements,
      c.Holds v → c.Holds w → session.log.Needs e f v → session.log.Needs e f w)
    {s : CellSlice} (hs : s ∈ (session.log.sliceEntry e).slices) (hcell : s.cell = f.cell) :
    ∃ part ss, s.text? = some part ∧ parse 1 part.toList = .ok ss ∧
      Forall₂ Stmt.SameForm (session.log.remainder e f code) ss := by
  have hsound := h.log.sound
  obtain ⟨ss, hparse, hchunks⟩ := Chunk.exists_parse_ofText fun c hc => (hprograms c hc).parses
  obtain rfl := Code.eq_of_parse hparse hmagic hcode
  have hstatements : f.statements = walkAll f.configuration (some f.cell.lines) ss 0 :=
    statements_of_analyzeCell (hsound.analysed f hf) hcode
  have hparts : Chunk.Parts f.cell.lines 1 (Chunk.ofText f.cell.text) ss := by
    rw [hchunks hreturn]
    exact (Chunk.tiles_ofText _).parts (Nat.le_refl 1) rfl (fun l hl => not_mem_of_mem_lines hl)
      (fun l hl => returnsEndLines_of_mem_lines hreturn hl) hprograms
  obtain ⟨g, hg, hgs⟩ := Log.mem_slices.mp hs
  have hslice := hsound.isSliceOf_of_cellSlice? hg hgs
  obtain rfl := hsound.eq_of_cell hg hf (hslice.cell.symm.trans hcell)
  have hlines : (Chunk.ofText g.cell.text).flatMap Chunk.lines = s.cell.lines := by
    rw [(Chunk.tiles_ofText _).flatMap_lines, hcell]
    rfl
  have hneeded : ∀ c ∈ Chunk.ofText g.cell.text, ∀ v ∈ g.statements, ∀ w ∈ g.statements,
      c.Holds v → c.Holds w → (session.log.closure e).contains (g.position, v.index) = true →
        (session.log.closure e).contains (g.position, w.index) = true := by
    simpa only [List.contains_iff_mem, Log.Needs] using htogether
  have hshown (last : ℕ) : Showing (fun i => (session.log.closure e).contains (g.position, i))
      (fun n => decide ((n : ℤ) ∈ s.lineNumbers)) g.statements g.cell.lines 1 last := by
    refine ⟨fun m _ _ => ?_, fun m _ _ => hjoin m⟩
    rw [decide_eq_true_eq, hslice.mem_lineNumbers]
    simp only [List.contains_iff_mem, Int.ofNat_le]
  rw [hstatements] at hneeded hshown
  obtain ⟨ss', hparse', hforms⟩ := (hparts.parsesTo hneeded (hshown _)).exists_parse
  rw [hlines] at hparse'
  refine ⟨_, ss', CellSlice.text?_of_increasing hslice.increasing fun m hm => ?_, hparse', hforms⟩
  obtain ⟨w, hw, -, hfirst, -⟩ := (hslice.mem_lineNumbers m).mp hm
  have := hparts.first_le w (hstatements ▸ hw)
  omega

/-! ## A part that is not needed -/

/-- The second cell does not need the `if` of the first cell. -/
def unneeded : List Cell :=
  [.counted 1 "a = 1\nif a:\n    b = a\nc = a", .counted 2 "print(c)"]

theorem Session.exists_parse_slice_unneeded : ∃ session : Session, session.Reachable ∧
    ∃ e ∈ session.log.entries, ∃ f ∈ session.log.entries, ∃ code,
      Code.ofText f.cell.text = .ok code ∧ (session.log.remainder e f code).length = 2 ∧
      ∃ s ∈ (session.log.sliceEntry e).slices, s.cell = f.cell ∧
      ∃ part ss, s.text? = some part ∧ parse 1 part.toList = .ok ss ∧
        Forall₂ Stmt.SameForm (session.log.remainder e f code) ss := by
  obtain ⟨session, h, e, he, f, hf, hmagic, hreturn, hprograms, hjoins, htogether, hranges, hcode⟩ :=
    exists_of_postAll unneeded (p := fun log => ∃ e ∈ log.entries, ∃ f ∈ log.entries,
      (∀ l ∈ f.cell.lines, isMagic l = false) ∧ ReturnsEndLines f.cell.text.toList ∧
      (∀ c ∈ Chunk.ofText f.cell.text, c.Parses ∧
        decoratorsInLine true (lex c.line c.text.toList).tokens.toList = true) ∧
      (∀ k ∈ List.range f.cell.lines.length,
        (f.cell.lines[k]?.map unreturned).bind (·.toList.getLast?) = some '\\' →
          ShowsLine f.statements (k + 1) ∧ ShowsLine f.statements (k + 2)) ∧
      (∀ c ∈ Chunk.ofText f.cell.text, ∀ v ∈ f.statements, ∀ w ∈ f.statements,
        c.Holds v → c.Holds w → log.Needs e f v → log.Needs e f w) ∧
      log.rangesIn (log.closure e) f ≠ [] ∧
      (Code.ofText f.cell.text).toOption.any fun code =>
        decide ((log.remainder e f code).length = 2)) (by decide +kernel)
  obtain ⟨code, hcode, hlength⟩ := exists_of_any hcode
  have hs := Log.mem_slices.mpr ⟨f, hf, Log.cellSlice?_eq_some_iff.mpr ⟨hranges, rfl⟩⟩
  exact ⟨session, h, e, he, f, hf, code, hcode, of_decide_eq_true hlength, _, hs, rfl,
    exists_parse_slice h e hf hcode hmagic hreturn (fun c hc => ⟨(hprograms c hc).1,
      (hprograms c hc).2⟩) (forall_joined_iff.mpr hjoins) htogether hs rfl⟩

end NotebookSlice
