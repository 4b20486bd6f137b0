import NotebookSlice.Proofs.Log.Limited
import NotebookSlice.Proofs.Log.Settled
import NotebookSlice.Proofs.Notebook.Executed

/-! # Replaying a notebook

A session that is given the history of a notebook records every cell of it, whatever
notebook it is. Only code that is too deep for the stack of the session stops it.
-/

namespace NotebookSlice

open Notebook NotebookSlice.Flow

theorem Cell.IsExecuted.not_same {a b : Cell} (ha : a.IsExecuted) (hb : b.IsExecuted)
    (hab : a.CountedBefore b) : ¬ a.event.same b.event = true := by
  intro hsame
  obtain ⟨m, n, hm, hn, hlt⟩ := hab
  rw [ha.count_eq hb hsame] at hm
  obtain rfl := Option.some.inj (hm.symm.trans hn)
  exact lt_irrefl _ hlt

namespace Session

variable {s : Session} {cell : Cell} {cells : List Cell}

/-- All that was recorded comes from executed cells with smaller counts. -/
def Precedes (s : Session) (cell : Cell) : Prop :=
  ∀ e ∈ s.log.entries, e.cell.IsExecuted ∧ e.cell.CountedBefore cell

theorem Precedes.find_eq_nil (h : s.Precedes cell) (hcell : cell.IsExecuted) :
    s.log.find cell = [] := by
  refine List.eq_nil_iff_forall_not_mem.mpr fun e he => ?_
  obtain ⟨hmem, hsame⟩ := Log.mem_find.mp he
  exact (h e hmem).1.not_same hcell (h e hmem).2 hsame

theorem Precedes.follows (h : s.Precedes cell) {n : ℤ} (hn : cell.count.integer? = some n) :
    s.log.follows n = true := by
  rw [Log.follows]
  cases hlast : s.log.entries.getLast? with
  | none => rfl
  | some e =>
    obtain ⟨m, k, hm, hk, hlt⟩ := (h e (List.mem_of_getLast? hlast)).2
    obtain rfl := Option.some.inj (hk.symm.trans hn)
    simp [hm, hlt]

theorem Precedes.exists_post (h : s.Precedes cell) (hcell : cell.IsExecuted) (now : Value) :
    ∃ t e, s.post cell now = .ok (t, some e) ∧ t.log.entries = s.log.entries ++ [e] ∧
      e.cell = cell := by
  have hfind := h.find_eq_nil hcell
  obtain ⟨n, hcount⟩ := hcell.count
  have hn : cell.count.integer? = some n := by
    rw [hcount]
    rfl
  have haccepted : s.log.refusal? cell = none :=
    Log.refusal?_eq_none_iff.mpr ⟨⟨n, hn, h.follows hn⟩, by simp [hfind]⟩
  obtain ⟨a, ha⟩ := exists_analyzeCell_of_noNull (c := s.log.configuration) hcell.noNull
  obtain ⟨log, e, hrecord⟩ : ∃ log e, s.log.record cell now = .ok (log, e) :=
    ⟨_, _, Log.record_eq_ok.mpr ⟨haccepted, a, ha, rfl⟩⟩
  obtain ⟨hentries, -, he⟩ := Log.entries_of_record hrecord
  refine ⟨{ s with log := log }, e, ?_, hentries, congrArg Recording.cell he⟩
  have hskip : (Text.allBlank cell.text.toList || s.isRecorded cell) = false := by
    simp [hcell.code, isRecorded, hfind]
  rw [post, hskip, record_of_log hrecord]
  rfl

theorem Precedes.forall_cons {t : Session} {e : Entry}
    (hs : ∀ c ∈ e.cell :: cells, s.Precedes c) (hcell : e.cell.IsExecuted)
    (hsmaller : ∀ c ∈ cells, e.cell.CountedBefore c)
    (hentries : t.log.entries = s.log.entries ++ [e]) : ∀ c ∈ cells, t.Precedes c := by
  intro c hc f hf
  rw [hentries, List.mem_append, List.mem_singleton] at hf
  rcases hf with hf | rfl
  · exact hs c (List.mem_cons_of_mem _ hc) f hf
  · exact ⟨hcell, hsmaller c hc⟩

theorem exists_postAll (hcells : ∀ c ∈ cells, c.IsExecuted)
    (hordered : cells.Pairwise Cell.CountedBefore) (hs : ∀ c ∈ cells, s.Precedes c) (now : Value) :
    ∃ t, postAll now s cells = .ok t ∧
      t.log.entries.map Entry.cell = s.log.entries.map Entry.cell ++ cells := by
  induction cells generalizing s with
  | nil => exact ⟨s, rfl, (List.append_nil _).symm⟩
  | cons cell cells ih =>
    obtain ⟨hcell, hothers⟩ := List.forall_mem_cons.mp hcells
    obtain ⟨hsmaller, hlater⟩ := List.pairwise_cons.mp hordered
    obtain ⟨t, e, hpost, hentries, rfl⟩ := (hs cell List.mem_cons_self).exists_post hcell now
    obtain ⟨u, hu, hmap⟩ :=
      ih hothers hlater (Precedes.forall_cons hs hcell hsmaller hentries)
    refine ⟨u, ?_, ?_⟩
    · rw [postAll, hpost]
      exact hu
    · rw [hmap, hentries, List.map_append, List.append_assoc]
      rfl

theorem postAll_eq_tooDeep {k : Stack} {stack : Option Stack} (hcells : ∀ c ∈ cells, c.IsExecuted)
    (hordered : cells.Pairwise Cell.CountedBefore) (hs : ∀ c ∈ cells, s.Precedes c)
    (hk : k ∈ stack) (hdeep : ∃ c ∈ cells, ¬ k.Suffices c.text) (now : Value) :
    postAll now s cells stack = .error (.code .tooDeep) := by
  induction cells generalizing s with
  | nil => simp at hdeep
  | cons cell cells ih =>
    obtain ⟨hcell, hothers⟩ := List.forall_mem_cons.mp hcells
    obtain ⟨hsmaller, hlater⟩ := List.pairwise_cons.mp hordered
    obtain ⟨t, e, hpost, hentries, rfl⟩ := (hs cell List.mem_cons_self).exists_post hcell now
    rw [postAll]
    by_cases hsuffices : k.Suffices e.cell.text
    · obtain rfl : stack = some k := hk
      have hrest : ∃ c ∈ cells, ¬ k.Suffices c.text := by
        obtain ⟨c, hc, hdeep⟩ := hdeep
        exact ⟨c, (List.mem_cons.mp hc).resolve_left fun h => hdeep (h ▸ hsuffices), hdeep⟩
      rw [post_eq_of_suffices (fun k' hk' => Option.some.inj hk' ▸ hsuffices), hpost]
      exact ih hothers hlater (Precedes.forall_cons hs hcell hsmaller hentries) hrest
    · rw [post_eq_tooDeep hpost hk hsuffices]
      rfl

/-- A notebook whose cells stand in another order than they ran. Two of them share a count, one is
blank and one was not executed. -/
def sharedCount : List String :=
  ["\x7b\"nbformat\":4,\"nbformat_minor\":4,\"metadata\":\x7b\x7d,\"cells\":[",
    "\x7b\"cell_type\":\"markdown\",\"metadata\":\x7b\x7d,\"source\":\"y\"\x7d,",
    "\x7b\"cell_type\":\"code\",\"metadata\":\x7b\x7d,\"outputs\":[],",
    "\"execution_count\":2,\"source\":[\"y = x\"]\x7d,",
    "\x7b\"cell_type\":\"code\",\"metadata\":\x7b\x7d,\"outputs\":[],",
    "\"execution_count\":1,\"source\":\"x = 1\"\x7d,",
    "\x7b\"cell_type\":\"code\",\"metadata\":\x7b\x7d,\"outputs\":[],",
    "\"execution_count\":2,\"source\":\"z\"\x7d,",
    "\x7b\"cell_type\":\"code\",\"metadata\":\x7b\x7d,\"outputs\":[],",
    "\"execution_count\":3,\"source\":\" \"\x7d,",
    "\x7b\"cell_type\":\"code\",\"metadata\":\x7b\x7d,\"outputs\":[],",
    "\"execution_count\":null,\"source\":\"x\"\x7d]\x7d"]

def storedCode (source : String) : Value :=
  .object [("cell_type", .text "code"), ("metadata", .object []), ("execution_count", .int 1),
    ("source", .text source)]

theorem isRead_storedCode {source : String} (h : '\x00' ∉ source.toList) :
    IsRead (storedCode source) :=
  ⟨⟨_, rfl⟩, rfl, ⟨_, rfl⟩, ⟨source, rfl, fun _ => h⟩, fun _ => Or.inr ⟨1, rfl⟩⟩

theorem codeOf_storedCode {source : String} (hline : '\n' ∉ source.toList)
    (htrim : Text.trimEnd source.toList = source.toList) :
    History.codeOf (storedCode source) = .ok source := by
  have hsource : (storedCode source).get? "source" = some (.text source) := rfl
  have hsplit : Text.splitLines source.toList = [source.toList] := by
    rw [Text.splitLines, Text.splitAt_eq_splitOn]
    exact List.splitOn_eq_singleton hline
  rw [History.codeOf, hsource]
  simp [hsplit, htrim, Text.unlines, pure, Except.pure, bind, Except.bind]

theorem exists_ofText_storedCode {source : String} (hline : '\n' ∉ source.toList)
    (htrim : Text.trimEnd source.toList = source.toList)
    (hblank : Text.allBlank source.toList = false) :
    ∃ cell, History.ofText "" (fun _ => .ok [storedCode source]) = .ok ⟨[cell], []⟩ ∧
      cell.text = source := by
  obtain ⟨id, hid⟩ : ∃ id, History.cellId (storedCode source) 0 = .ok id := ⟨_, rfl⟩
  obtain ⟨cell, hcell, htext⟩ : ∃ cell, History.cellOf id source (.int 1) (storedCode source) =
      .ok cell ∧ cell.text = source := ⟨_, rfl, rfl⟩
  have hcode : isCode (storedCode source) = true := Value.same_text_iff.mpr rfl
  have htype : ((storedCode source).get? "cell_type").isNone = false := rfl
  have hcount : (storedCode source).getD "execution_count" = .int 1 := rfl
  refine ⟨cell, ?_, htext⟩
  simp [History.ofText, History.collect, htype, hcode, hcount, codeOf_storedCode hline htrim, hblank,
    hid, hcell, Value.isKey, bind, Except.bind, pure, Except.pure]

/-- A number under five rows of minus signs, in templates of each other. -/
def deepNumber : List Char :=
  let signs := List.replicate 98 '-'
  "x=".toList ++ signs ++ "f'''\x7b".toList ++ signs ++ "f\"\"\"\x7b".toList ++ signs ++
    "f'\x7b".toList ++ signs ++ "f\"\x7b".toList ++ signs ++ "1\x7d\"\x7d'\x7d\"\"\"\x7d'''".toList

theorem lines_deepNumber : Text.lines (String.ofList deepNumber) = [String.ofList deepNumber] := by
  refine Text.lines_eq_singleton ?_
  rw [String.toList_ofList]
  decide +kernel

theorem not_suffices_deepNumber : ¬ Stack.default.Suffices (String.ofList deepNumber) := by
  intro h
  have hcalls : (Syntax.parse 1 deepNumber).toOption.any fun ss => decide
      (Stack.defaultCalls < nestedBlock (some (Text.lines (String.ofList deepNumber))) ss) := by
    decide +kernel
  have hmagic : ∀ l ∈ Text.lines (String.ofList deepNumber), isMagic l = false := by
    rw [lines_deepNumber, List.forall_mem_singleton, isMagic, String.toList_ofList]
    decide +kernel
  cases hparse : Syntax.parse 1 deepNumber with
  | error n => simp [hparse, Except.toOption] at hcalls
  | ok ss =>
    rw [hparse] at hcalls
    have htext : Syntax.parse 1 (String.ofList deepNumber).toList = .ok ss := by
      rwa [String.toList_ofList]
    exact (of_decide_eq_true hcalls).not_ge (h.calls_of_parse hmagic htext)

end Session

end NotebookSlice
