import NotebookSlice.Proofs.Log.Closure
import NotebookSlice.Proofs.Slice.LineRange

/-! # Emitted lines

A slice is made of whole lines, but the closure is one of statements. So the
lines of a needed statement are emitted with those of all its sources, while a
statement that merely shares a line with a needed one may lack its sources.
-/

namespace NotebookSlice

open NotebookSlice.Flow

def Flow.Statement.Covers (s : Statement) (n : ℤ) : Prop := s.first ≤ n ∧ n ≤ s.last

instance (s : Statement) (n : ℤ) : Decidable (s.Covers n) := inferInstanceAs (Decidable (_ ∧ _))

namespace Log

/-- The slice of `e` has the line `n` of the cell of `f`. -/
def Emits (log : Log) (e f : Entry) (n : ℤ) : Prop :=
  ∃ s ∈ (log.sliceEntry e).slices, s.cell = f.cell ∧ n ∈ s.lineNumbers

/-- The slice of `e` has all lines of the statement at the place. -/
def EmitsAll (log : Log) (e : Entry) (r : Ref) : Prop :=
  ∃ f ∈ log.entries, ∃ s ∈ f.statements, r = (f.position, s.index) ∧
    ∀ n, s.Covers n → log.Emits e f n

/-- Where the slice of `e` has a line of a statement, it has all lines of the sources of the
statement. -/
def SelfContained (log : Log) (e : Entry) : Prop :=
  ∀ f ∈ log.entries, ∀ w ∈ f.statements, ∀ n, w.Covers n → log.Emits e f n →
    ∀ u, log.graph.Feeds u (f.position, w.index) → log.EmitsAll e u

def Needs (log : Log) (e f : Entry) (s : Statement) : Prop :=
  (f.position, s.index) ∈ log.closure e

instance (log : Log) (e f : Entry) (s : Statement) : Decidable (log.Needs e f s) :=
  inferInstanceAs (Decidable (_ ∈ log.closure e))

variable {log : Log} {e f : Entry} {n : ℤ}

theorem cellSlice?_eq_some_iff {included : List Ref} {s : CellSlice} :
    log.cellSlice? included f = some s ↔ log.rangesIn included f ≠ [] ∧
      s = CellSlice.ofRanges f.cell (log.rangesIn included f) f.time := by
  rw [cellSlice?]
  split
  · rename_i hnone
    simp [hnone]
  · rename_i hsome
    simp only [Option.some.injEq, eq_comm (a := s), ne_eq, iff_and_self]
    exact fun _ => hsome

theorem mem_slices {s : CellSlice} : s ∈ (log.sliceEntry e).slices ↔
    ∃ f ∈ log.entries, log.cellSlice? (log.closure e) f = some s := by
  rw [sliceEntry, SlicedExecution.ofSlices, List.mem_mergeSort, List.mem_filterMap]

namespace Sound

theorem mem_rangesIn (h : log.Sound) (hf : f ∈ log.entries) {included : List Ref}
    {r : LineRange} : r ∈ log.rangesIn included f ↔
      ∃ s ∈ f.statements, (f.position, s.index) ∈ included ∧ rangeOf s = r := by
  simp only [rangesIn, List.mem_filterMap, List.mem_filter, decide_eq_true_eq,
    Option.map_eq_some_iff, h.statement?_eq_some_iff]
  constructor
  · rintro ⟨ref, ⟨hmem, hpos⟩, s, ⟨g, hg, hs, rfl⟩, rfl⟩
    obtain rfl := h.eq_of_position hg hf hpos
    exact ⟨s, hs, hmem, rfl⟩
  · rintro ⟨s, hs, hmem, rfl⟩
    exact ⟨(f.position, s.index), ⟨hmem, rfl⟩, s, ⟨f, hf, hs, rfl⟩, rfl⟩

/-- The emitted lines of a cell are those of its needed statements. -/
theorem emits_iff (h : log.Sound) (hf : f ∈ log.entries) :
    log.Emits e f n ↔ ∃ s ∈ f.statements, log.Needs e f s ∧ s.Covers n := by
  have hline (s : Statement) : n ∈ (rangeOf s).lines ↔ s.Covers n := LineRange.mem_lines
  constructor
  · rintro ⟨slice, hslice, hcell, hn⟩
    obtain ⟨g, hg, hsome⟩ := mem_slices.mp hslice
    obtain ⟨-, rfl⟩ := cellSlice?_eq_some_iff.mp hsome
    obtain rfl := h.eq_of_cell hg hf hcell
    obtain ⟨r, hr, hn⟩ := CellSlice.mem_lineNumbers_ofRanges.mp hn
    obtain ⟨s, hs, hmem, rfl⟩ := (h.mem_rangesIn hf).mp hr
    exact ⟨s, hs, hmem, (hline s).mp hn⟩
  · rintro ⟨s, hs, hmem, hn⟩
    have hr : rangeOf s ∈ log.rangesIn (log.closure e) f :=
      (h.mem_rangesIn hf).mpr ⟨s, hs, hmem, rfl⟩
    exact ⟨_, mem_slices.mpr ⟨f, hf, cellSlice?_eq_some_iff.mpr ⟨List.ne_nil_of_mem hr, rfl⟩⟩, rfl,
      CellSlice.mem_lineNumbers_ofRanges.mpr ⟨_, hr, (hline s).mpr hn⟩⟩

theorem emitsAll_of_mem_closure (h : log.Sound) {r : Ref} (hr : r ∈ log.closure e) :
    log.EmitsAll e r := by
  obtain ⟨s, hstatement⟩ := h.mem_nodes.mp (h.closure_subset_nodes hr)
  obtain ⟨f, hf, hs, rfl⟩ := h.statement?_eq_some_iff.mp hstatement
  exact ⟨f, hf, s, hs, rfl, fun n hn => (h.emits_iff hf).mpr ⟨s, hs, hr, hn⟩⟩

end Sound

end Log

/-- What is missing in a slice. The lines of needed statements are emitted, and so are those of all
their sources, which are needed too. So a slice is self-contained exactly if each statement that
is not needed but shares a line with a needed one has all lines of its sources emitted. -/
theorem Session.selfContained_iff {session : Session} (h : session.Reachable) (e : Entry) :
    (∀ f ∈ session.log.entries, ∀ w ∈ f.statements, session.log.Needs e f w →
      session.log.EmitsAll e (f.position, w.index) ∧
      ∀ u, session.log.graph.Feeds u (f.position, w.index) →
        u ∈ session.log.closure e ∧ session.log.EmitsAll e u) ∧
    (session.log.SelfContained e ↔
      ∀ f ∈ session.log.entries, ∀ w ∈ f.statements, ¬ session.log.Needs e f w →
        (∃ s ∈ f.statements, session.log.Needs e f s ∧ ∃ n, w.Covers n ∧ s.Covers n) →
        ∀ u, session.log.graph.Feeds u (f.position, w.index) → session.log.EmitsAll e u) := by
  have hsound := h.log.sound
  have hneeded : ∀ f ∈ session.log.entries, ∀ w ∈ f.statements, session.log.Needs e f w →
      ∀ u, session.log.graph.Feeds u (f.position, w.index) →
        u ∈ session.log.closure e ∧ session.log.EmitsAll e u := by
    intro f _ w _ hw u hu
    have hmem := hsound.sourceClosed_closure u _ hu hw
    exact ⟨hmem, hsound.emitsAll_of_mem_closure hmem⟩
  refine ⟨fun f hf w hw hneeds => ⟨hsound.emitsAll_of_mem_closure hneeds,
    hneeded f hf w hw hneeds⟩, ?_, ?_⟩
  · rintro hself f hf w hw - ⟨s, hs, hneeds, n, hwn, hsn⟩
    exact hself f hf w hw n hwn ((hsound.emits_iff hf).mpr ⟨s, hs, hneeds, hsn⟩)
  · intro hshared f hf w hw n hwn hn u hu
    by_cases hneeds : session.log.Needs e f w
    · exact (hneeded f hf w hw hneeds u hu).2
    · obtain ⟨s, hs, hneeds', hsn⟩ := (hsound.emits_iff hf).mp hn
      exact hshared f hf w hw hneeds ⟨s, hs, hneeds', n, hwn, hsn⟩ u hu

/-- The last cell needs one of the two statements of the second cell. -/
def sharedLine : List Cell :=
  [.counted 1 "a = 1", .counted 2 "x = 1; y = a", .counted 3 "print(x)"]

theorem exists_sharedLine : ∃ session : Session, session.Reachable ∧
    ∃ d f e : Entry, session.log.entries = [d, f, e] ∧
      d.statements = [⟨0, .statement, 1, 1, none, [], ["a"], []⟩] ∧
      f.statements = [⟨0, .statement, 1, 1, none, [], ["x"], []⟩,
        ⟨1, .statement, 1, 1, none, ["a"], ["y"], []⟩] ∧
      session.log.graph.edges =
        [⟨(0, 0), (1, 1), ["a"], false⟩, ⟨(1, 0), (2, 0), ["x"], false⟩] ∧
      session.log.closure f = [(1, 0), (1, 1), (0, 0)] ∧
      session.log.closure e = [(2, 0), (1, 0)] := by
  obtain ⟨session, h, hstatements, hedges, hclosures⟩ :=
    Session.exists_of_postAll sharedLine (p := fun log =>
      log.entries.map Entry.statements =
        [[⟨0, .statement, 1, 1, none, [], ["a"], []⟩],
          [⟨0, .statement, 1, 1, none, [], ["x"], []⟩,
            ⟨1, .statement, 1, 1, none, ["a"], ["y"], []⟩],
          [⟨0, .statement, 1, 1, none, ["x", "print"], [], []⟩]] ∧
      log.graph.edges = [⟨(0, 0), (1, 1), ["a"], false⟩, ⟨(1, 0), (2, 0), ["x"], false⟩] ∧
      log.entries.map log.closure = [[(0, 0)], [(1, 0), (1, 1), (0, 0)], [(2, 0), (1, 0)]])
      (by decide +kernel)
  obtain ⟨d, f, e, hentries⟩ : ∃ d f e, session.log.entries = [d, f, e] := by
    rw [← List.length_eq_three, ← List.length_map, hstatements]
    rfl
  simp only [hentries, List.map_cons, List.map_nil, List.cons.injEq, and_true]
    at hstatements hclosures
  exact ⟨session, h, d, f, e, hentries, hstatements.1, hstatements.2.1, hedges, hclosures.2⟩

/-- The second cell needs both of its statements, so nothing is missing in its slice. -/
theorem selfContained_iff_sharedLine : ∃ session : Session, session.Reachable ∧
    ∃ e ∈ session.log.entries, session.log.SelfContained e := by
  obtain ⟨session, h, d, f, e, hentries, hd, hf, -, hclosure, -⟩ := exists_sharedLine
  have hposition (k : ℕ) (g : Entry) (hk : [d, f, e][k]? = some g) : g.position = k :=
    h.log.sound.position k g (hentries ▸ hk)
  refine ⟨session, h, f, by simp [hentries], (Session.selfContained_iff h f).2.mpr ?_⟩
  intro g hg w hw hnot hshared
  rw [hentries] at hg
  simp only [Log.Needs, hclosure] at hnot hshared
  simp only [List.mem_cons, List.not_mem_nil, or_false] at hg
  rcases hg with rfl | rfl | rfl
  · simp [hd] at hw
    simp [hw, hposition 0 g rfl] at hnot
  · simp [hf] at hw
    rcases hw with rfl | rfl <;> simp [hposition 1 g rfl] at hnot
  · simp [hposition 2 g rfl] at hshared

/-- The slice of the last cell has the line of `y = a`, but not the one of `a = 1`. -/
theorem not_selfContained : ¬ ∀ session : Session, session.Reachable →
    ∀ e ∈ session.log.entries, session.log.SelfContained e := by
  intro hall
  obtain ⟨session, h, d, f, e, hentries, hd, hf, hedges, -, hclosure⟩ := exists_sharedLine
  have hsound := h.log.sound
  have hposition (k : ℕ) (g : Entry) (hk : [d, f, e][k]? = some g) : g.position = k :=
    hsound.position k g (hentries ▸ hk)
  have hdmem : d ∈ session.log.entries := by simp [hentries]
  have hfmem : f ∈ session.log.entries := by simp [hentries]
  have hemits : session.log.Emits e f 1 := (hsound.emits_iff hfmem).mpr
    ⟨_, by rw [hf]; exact List.mem_cons_self, by simp [Log.Needs, hposition 1 f rfl, hclosure],
      by decide⟩
  obtain ⟨g, hg, s, hs, hplace, hlines⟩ := hall session h e (by simp [hentries]) f hfmem
    ⟨1, .statement, 1, 1, none, ["a"], ["y"], []⟩ (by simp [hf]) 1 (by decide) hemits (0, 0)
    ⟨⟨(0, 0), (1, 1), ["a"], false⟩, by simp [hedges], rfl, by rw [hposition 1 f rfl]⟩
  have hgd : g.position = d.position := by
    rw [hposition 0 d rfl]
    exact (Prod.mk.inj hplace).1.symm
  obtain rfl : g = d := hsound.eq_of_position hg hdmem hgd
  rw [hd, List.mem_singleton] at hs
  obtain ⟨t, -, hneeds, -⟩ := (hsound.emits_iff hg).mp (hlines 1 (by rw [hs]; decide))
  simp [Log.Needs, hposition 0 g rfl, hclosure] at hneeds

end NotebookSlice
