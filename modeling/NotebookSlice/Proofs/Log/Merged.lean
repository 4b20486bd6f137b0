import NotebookSlice.Proofs.Log.Events
import NotebookSlice.Proofs.Log.Slices
import NotebookSlice.Proofs.Slice.Grouping

/-! # Merged slices of a log

An event that was recorded several times has one place in the merged slices. It is
that of the oldest of its executions which the newest slice with the event needs. So
the merged slices follow the order of these executions, and not that of the
dependencies.
-/

namespace NotebookSlice

open NotebookSlice.Flow

namespace Log

/-- The executions that the slices of a cell's event are made of, as merging meets them. -/
def gathered (log : Log) (cell : Cell) : List Entry := (log.find cell).flatMap log.contributors

/-- The execution whose cell stands for an event in the merged slices. -/
def standsFor? (log : Log) (cell : Cell) (event : Value) : Option Entry :=
  (log.gathered cell).find? (·.cell.event.same event)

namespace Sound

variable {log : Log} (h : log.Sound) {cell : Cell} {e f g : Entry}
include h

theorem countedBefore_of_lt (hf : f ∈ log.entries) (hg : g ∈ log.entries)
    (hlt : f.position < g.position) : CountedBefore f g := by
  have hf' := List.getElem?_eq_some_iff.mp (h.getElem?_position hf)
  have hg' := List.getElem?_eq_some_iff.mp (h.getElem?_position hg)
  obtain ⟨hflt, hf'⟩ := hf'
  obtain ⟨hglt, hg'⟩ := hg'
  have hpair := List.pairwise_iff_getElem.mp h.increasing f.position g.position hflt hglt hlt
  rwa [hf', hg'] at hpair

theorem countLE_iff {s t : CellSlice} (hf : f ∈ log.entries) (hg : g ∈ log.entries)
    (hs : s.cell = f.cell) (ht : t.cell = g.cell) :
    SlicedExecution.countLE s t = true ↔ f.position ≤ g.position := by
  rcases Nat.lt_trichotomy f.position g.position with hlt | heq | hlt
  · have hbefore : s.cell.CountedBefore t.cell := by
      rw [hs, ht]
      exact h.countedBefore_of_lt hf hg hlt
    exact iff_of_true (SlicedExecution.countLE_of_countedBefore hbefore) hlt.le
  · obtain rfl := h.eq_of_position hf hg heq
    have hrefl := SlicedExecution.countLE_total s s
    rw [Bool.or_self, SlicedExecution.countLE, hs] at hrefl
    rw [SlicedExecution.countLE, hs, ht]
    exact iff_of_true hrefl heq.le
  · obtain ⟨m, n, hm, hn, hmn⟩ := h.countedBefore_of_lt hg hf hlt
    refine iff_of_false ?_ hlt.not_ge
    rw [SlicedExecution.countLE, hs, ht, Value.rank_of_integer? hn, Value.rank_of_integer? hm]
    simpa [Rank.le] using hmn

theorem mem_entries_of_mem_gathered (hf : f ∈ log.gathered cell) : f ∈ log.entries := by
  obtain ⟨e, -, hf⟩ := List.mem_flatMap.mp hf
  exact (h.mem_contributors_iff.mp hf).1

theorem map_cell_sliceAll (cell : Cell) :
    ((log.sliceAll cell none).flatMap (·.slices)).map CellSlice.cell =
      (log.gathered cell).map Entry.cell := by
  have hall : (log.sliceAll cell none).flatMap (·.slices) =
      (log.find cell).flatMap fun e => (log.sliceEntry e).slices := by
    rw [sliceAll]
    induction log.find cell with
    | nil => rfl
    | cons e es ih =>
      rw [List.map_cons, List.filter_cons, List.flatMap_cons, ← ih]
      split
      · rfl
      · rename_i hempty
        have hnil : (log.sliceEntry e).slices = [] := by simpa using hempty
        rw [hnil, List.nil_append]
  rw [hall, gathered, List.map_flatMap, List.map_flatMap]
  exact List.flatMap_congr fun e _ => h.map_cell_slices

/-- The slice in which an event is met first is one of the execution that stands for the event. -/
theorem exists_find?_slices {event : Value} (hf : log.standsFor? cell event = some f) :
    ∃ t, ((log.sliceAll cell none).flatMap (·.slices)).find? (·.cell.event.same event) = some t ∧
      t.cell = f.cell := by
  have hcells := congrArg (List.find? fun c : Cell => c.event.same event)
    (h.map_cell_sliceAll cell)
  rw [List.find?_map, List.find?_map] at hcells
  have hf' : (log.gathered cell).find? ((fun c : Cell => c.event.same event) ∘ Entry.cell) =
      some f := hf
  rw [hf', Option.map_some, Option.map_eq_some_iff] at hcells
  exact hcells

end Sound

end Log

/-! ## Order -/

namespace Log.Sound

variable {log : Log} (h : log.Sound) {cell : Cell} {f g : Entry} {a b : Value}
include h

/-- Merged slices follow the order of the executions that stand for their events. -/
theorem exists_places (now : Value) (hf : log.standsFor? cell a = some f)
    (hg : log.standsFor? cell b = some g) :
    ∃ i j, (∀ k, (SlicedExecution.merge now (log.sliceAll cell none)).HasAt a k ↔ k = i) ∧
      (∀ k, (SlicedExecution.merge now (log.sliceAll cell none)).HasAt b k ↔ k = j) ∧
      (i ≤ j ↔ f.position ≤ g.position) := by
  have hfmem := h.mem_entries_of_mem_gathered (List.mem_of_find?_eq_some hf)
  have hgmem := h.mem_entries_of_mem_gathered (List.mem_of_find?_eq_some hg)
  obtain ⟨s₀, hfound, hs₀⟩ := h.exists_find?_slices hf
  obtain ⟨t₀, hfound', ht₀⟩ := h.exists_find?_slices hg
  obtain ⟨i, s, hs, hcell, hi⟩ := SlicedExecution.exists_hasAt now hfound
  obtain ⟨j, t, ht, hcell', hj⟩ := SlicedExecution.exists_hasAt now hfound'
  rw [hs₀] at hcell
  rw [ht₀] at hcell'
  have hsorted := List.pairwise_iff_getElem.mp
    (SlicedExecution.pairwise_countLE_merge now (log.sliceAll cell none))
  obtain ⟨hilt, hs'⟩ := List.getElem?_eq_some_iff.mp hs
  obtain ⟨hjlt, ht'⟩ := List.getElem?_eq_some_iff.mp ht
  refine ⟨i, j, hi, hj, fun hle => ?_, fun hle => ?_⟩
  · rcases hle.lt_or_eq with hlt | rfl
    · have := hsorted i j hilt hjlt hlt
      rw [hs', ht'] at this
      exact (h.countLE_iff hfmem hgmem hcell hcell').mp this
    · obtain rfl := Option.some.inj (hs.symm.trans ht)
      rw [h.eq_of_cell hfmem hgmem (hcell.symm.trans hcell')]
  · by_contra hlt
    rw [not_le] at hlt
    have hback := hsorted j i hjlt hilt hlt
    rw [hs', ht'] at hback
    have hge := (h.countLE_iff hgmem hfmem hcell' hcell).mp hback
    obtain rfl := h.eq_of_position hfmem hgmem (Nat.le_antisymm hle hge)
    have hat : (SlicedExecution.merge now (log.sliceAll cell none)).HasAt a j := by
      obtain ⟨s', hs', hsame⟩ := (hi i).mpr rfl
      obtain rfl := Option.some.inj (hs.symm.trans hs')
      exact ⟨t, ht, by rw [hcell', ← hcell]; exact hsame⟩
    have := (hi j).mp hat
    omega

/-- Slices can be merged if their events are keys, as all counts are integers. -/
theorem gatherSlice_eq {session : Session} (hsession : session.log = log)
    (hkeys : ∀ k ∈ log.gathered cell, k.cell.event.isKey = true) (hsome : log.gathered cell ≠ [])
    (now : Value) : session.gatherSlice cell now =
      .ok (some (SlicedExecution.merge now (log.sliceAll cell none))) := by
  have hcells := h.map_cell_sliceAll cell
  have hmem {s : CellSlice} (hs : s ∈ (log.sliceAll cell none).flatMap (·.slices)) :
      ∃ k ∈ log.gathered cell, k.cell = s.cell :=
    List.mem_map.mp (hcells ▸ List.mem_map_of_mem hs)
  have hne : log.sliceAll cell none ≠ [] := by
    intro hnil
    rw [hnil] at hcells
    exact hsome (List.map_eq_nil_iff.mp hcells.symm)
  have hall : ((log.sliceAll cell none).flatMap (·.slices)).all (·.cell.event.isKey) = true := by
    refine List.all_eq_true.mpr fun s hs => ?_
    obtain ⟨k, hk, hcell⟩ := hmem hs
    rw [← hcell]
    exact hkeys k hk
  have hnumber : ∀ s ∈ SlicedExecution.grouped ((log.sliceAll cell none).flatMap (·.slices)),
      ∃ q, s.cell.count.rank = .number q := by
    intro s hs
    have hfirst : s.cell ∈ (SlicedExecution.firsts _).map CellSlice.cell :=
      SlicedExecution.map_cell_grouped _ ▸ List.mem_map_of_mem hs
    obtain ⟨t, ht, hcell⟩ := List.mem_map.mp hfirst
    obtain ⟨k, hk, hcell'⟩ := hmem (SlicedExecution.firsts_subset _ ht)
    obtain ⟨n, hn⟩ := h.counted k (h.mem_entries_of_mem_gathered hk)
    rw [← hcell, ← hcell']
    exact ⟨n, Value.rank_of_integer? hn⟩
  rw [Session.gatherSlice, hsession]
  split
  · rename_i hnil
    exact absurd hnil hne
  · rw [SlicedExecution.merge?]
    simp only [List.isEmpty_eq_false_iff.mpr hne, hall, SlicedExecution.ofSlices?,
      SlicedExecution.areOrdered_of_numbers hnumber]
    rfl

end Log.Sound

/-- Where merging puts a dependency. Let a slice of the cell's event need a statement of `g` that
depends on one of `f`. Then the events of `f` and `g` have one place each in the merged slices, and
they stand in the order of the executions that stand for them. That need not be `f` and `g`, but if
both events were recorded only once, `f` does not come after `g`. -/
theorem Session.order_gatherSlice {session : Session} (h : session.Reachable) {cell : Cell}
    {e f g : Entry} (he : e ∈ session.log.find cell) (hf : f ∈ session.log.entries)
    (hg : g ∈ session.log.entries) {m n : ℕ}
    (hfeeds : session.log.graph.Feeds (f.position, m) (g.position, n))
    (hn : (g.position, n) ∈ session.log.closure e)
    (hfsame : f.cell.event.same f.cell.event = true)
    (hgsame : g.cell.event.same g.cell.event = true)
    (hkeys : ∀ k ∈ session.log.gathered cell, k.cell.event.isKey = true) (now : Value) :
    ∃ merged, session.gatherSlice cell now = .ok (some merged) ∧
      ∃ f' g' i j, session.log.standsFor? cell f.cell.event = some f' ∧
        session.log.standsFor? cell g.cell.event = some g' ∧
        (∀ k, merged.HasAt f.cell.event k ↔ k = i) ∧
        (∀ k, merged.HasAt g.cell.event k ↔ k = j) ∧
        (i ≤ j ↔ f'.position ≤ g'.position) ∧
        ((∀ k ∈ session.log.entries, k.cell.event.same f.cell.event = true → k = f) →
          (∀ k ∈ session.log.entries, k.cell.event.same g.cell.event = true → k = g) → i ≤ j) := by
  have hsound := h.log.sound
  have hmem {r : Entry} {k : ℕ} (hr : r ∈ session.log.entries)
      (hk : (r.position, k) ∈ session.log.closure e) : r ∈ session.log.gathered cell := by
    obtain ⟨r', hr', hposition⟩ := hsound.exists_contributor hk
    obtain rfl := hsound.eq_of_position (hsound.mem_contributors_iff.mp hr').1 hr hposition
    exact List.mem_flatMap.mpr ⟨e, he, hr'⟩
  have hfound {r : Entry} (hr : r ∈ session.log.gathered cell)
      (hsame : r.cell.event.same r.cell.event = true) :
      ∃ r', session.log.standsFor? cell r.cell.event = some r' :=
    Option.isSome_iff_exists.mp (List.find?_isSome.mpr ⟨r, hr, hsame⟩)
  have hm := hsound.sourceClosed_closure _ _ hfeeds hn
  obtain ⟨f', hf'⟩ := hfound (hmem hf hm) hfsame
  obtain ⟨g', hg'⟩ := hfound (hmem hg hn) hgsame
  refine ⟨_, hsound.gatherSlice_eq rfl hkeys (List.ne_nil_of_mem (hmem hg hn)) now, f', g', ?_⟩
  obtain ⟨i, j, hi, hj, horder⟩ := hsound.exists_places now hf' hg'
  refine ⟨i, j, hf', hg', hi, hj, horder, fun honcef honceg => horder.mpr ?_⟩
  have hstands {r r' : Entry} (hr' : session.log.standsFor? cell r.cell.event = some r')
      (honce : ∀ k ∈ session.log.entries, k.cell.event.same r.cell.event = true → k = r) :
      r' = r :=
    honce r' (hsound.mem_entries_of_mem_gathered (List.mem_of_find?_eq_some hr'))
      (by simpa using List.find?_some hr')
  rw [hstands hf' honcef, hstands hg' honceg]
  have hbefore := hsound.before_of_feeds hfeeds
  unfold Before at hbefore
  omega

/-! ## Repeated events -/

/-- A cell of which the event and the count are known. -/
def Cell.ofEvent (event : String) (n : ℕ) (text : String) : Cell :=
  { Cell.counted n text with event := .text event }

/-- The events of the first and of the printing cell are recorded twice. The newer print does not
need the second cell, but the older one does, and with it the first cell as it was before. -/
def repeatedEvents : List Recording :=
  [⟨.empty, .ofEvent "a" 1 "x = 1", .null⟩, ⟨.empty, .ofEvent "b" 2 "y = x", .null⟩,
    ⟨.empty, .ofEvent "t" 3 "print(x, y)", .null⟩, ⟨.empty, .ofEvent "c" 4 "y = 0", .null⟩,
    ⟨.empty, .ofEvent "a" 5 "x = 1", .null⟩, ⟨.empty, .ofEvent "t" 6 "print(x, y)", .null⟩]

theorem exists_repeatedEvents : ∃ session : Session,
    (Session.new .empty "" false).recordAll repeatedEvents = .ok session ∧
    ∃ e ∈ session.log.find (.ofEvent "t" 6 "print(x, y)"),
    ∃ f ∈ session.log.entries, ∃ g ∈ session.log.entries,
      f.cell.event.same f.cell.event = true ∧ g.cell.event.same g.cell.event = true ∧
      session.log.graph.Feeds (f.position, 0) (g.position, 0) ∧
      (g.position, 0) ∈ session.log.closure e ∧
      (∀ k ∈ session.log.gathered (.ofEvent "t" 6 "print(x, y)"), k.cell.event.isKey = true) ∧
      (session.log.standsFor? (.ofEvent "t" 6 "print(x, y)") f.cell.event).map Entry.position =
        some 4 ∧
      (session.log.standsFor? (.ofEvent "t" 6 "print(x, y)") g.cell.event).map Entry.position =
        some 1 := by
  have hrun : ((Session.new .empty "" false).recordAll repeatedEvents).toOption.any fun s =>
      decide (∃ e ∈ s.log.find (.ofEvent "t" 6 "print(x, y)"),
        ∃ f ∈ s.log.entries, ∃ g ∈ s.log.entries,
          f.cell.event.same f.cell.event = true ∧ g.cell.event.same g.cell.event = true ∧
          (∃ d ∈ s.log.graph.edges, d.source = (f.position, 0) ∧ d.target = (g.position, 0)) ∧
          (g.position, 0) ∈ s.log.closure e ∧
          (∀ k ∈ s.log.gathered (.ofEvent "t" 6 "print(x, y)"), k.cell.event.isKey = true) ∧
          (s.log.standsFor? (.ofEvent "t" 6 "print(x, y)") f.cell.event).map Entry.position =
            some 4 ∧
          (s.log.standsFor? (.ofEvent "t" 6 "print(x, y)") g.cell.event).map Entry.position =
            some 1) := by
    decide +kernel
  cases hsession : (Session.new .empty "" false).recordAll repeatedEvents with
  | error r => simp [hsession, Except.toOption] at hrun
  | ok session =>
    rw [hsession] at hrun
    have hfound := of_decide_eq_true hrun
    exact ⟨session, rfl, hfound⟩

/-- The cell that another depends on is put behind it. -/
theorem order_gatherSlice_repeatedEvents : ∃ session : Session, session.Reachable ∧
    ∃ cell, ∃ f ∈ session.log.entries, ∃ g ∈ session.log.entries,
      session.log.graph.Feeds (f.position, 0) (g.position, 0) ∧
      ∃ merged, session.gatherSlice cell .null = .ok (some merged) ∧
        ∃ i j, (∀ k, merged.HasAt f.cell.event k ↔ k = i) ∧
          (∀ k, merged.HasAt g.cell.event k ↔ k = j) ∧ j < i := by
  obtain ⟨session, hrun, e, he, f, hf, g, hg, hfsame, hgsame, hfeeds, hn, hkeys, h4, h1⟩ :=
    exists_repeatedEvents
  have hreachable := (Session.Reachable.new _ _ _).recordAll hrun
  obtain ⟨merged, hmerged, f', g', i, j, hf', hg', hi, hj, horder, -⟩ :=
    Session.order_gatherSlice hreachable he hf hg hfeeds hn hfsame hgsame hkeys .null
  refine ⟨session, hreachable, _, f, hf, g, hg, hfeeds, merged, hmerged, i, j, hi, hj, ?_⟩
  simp only [hf', Option.map_some, Option.some.injEq] at h4
  simp only [hg', Option.map_some, Option.some.injEq] at h1
  omega

/-- Merged slices do not respect dependencies. -/
theorem not_order_gatherSlice : ¬ ∀ (c : Configuration) (marker : String) (withHeader : Bool)
    (rs : List Recording) (session : Session),
    (Session.new c marker withHeader).recordAll rs = .ok session →
    ∀ (cell : Cell) (now : Value) (merged : SlicedExecution),
      session.gatherSlice cell now = .ok (some merged) →
    ∀ e ∈ session.log.find cell, ∀ f ∈ session.log.entries, ∀ g ∈ session.log.entries,
    ∀ m n : ℕ, session.log.graph.Feeds (f.position, m) (g.position, n) →
      (g.position, n) ∈ session.log.closure e →
    ∀ i j, merged.HasAt f.cell.event i → merged.HasAt g.cell.event j → i ≤ j := by
  intro hall
  obtain ⟨session, hrun, e, he, f, hf, g, hg, hfsame, hgsame, hfeeds, hn, hkeys, h4, h1⟩ :=
    exists_repeatedEvents
  have hsound := ((Session.Reachable.new _ _ _).recordAll hrun).log.sound
  obtain ⟨f', hf', hposition⟩ := Option.map_eq_some_iff.mp h4
  obtain ⟨g', hg', hposition'⟩ := Option.map_eq_some_iff.mp h1
  have hsome := List.ne_nil_of_mem (List.mem_of_find?_eq_some hf')
  obtain ⟨i, j, hi, hj, horder⟩ := hsound.exists_places .null hf' hg'
  have hle := hall _ _ _ _ session hrun _ .null _ (hsound.gatherSlice_eq rfl hkeys hsome .null) e
    he f hf g hg 0 0 hfeeds hn i j ((hi i).mpr rfl) ((hj j).mpr rfl)
  have := horder.mp hle
  omega

end NotebookSlice
