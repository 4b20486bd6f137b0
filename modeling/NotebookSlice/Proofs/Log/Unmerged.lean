import NotebookSlice.Proofs.Log.Calls
import NotebookSlice.Proofs.Log.Settled
import NotebookSlice.Proofs.Log.Slices
import NotebookSlice.Proofs.Slice.Grouping

/-! # Sessions without merging

A notebook only posts cells and changes the configuration. A cell whose event is
known is skipped or refused then, so no event has two entries. The only slice of a
cell is its latest one, and merging leaves it as it is.
-/

namespace NotebookSlice

open NotebookSlice.Flow

/-! ## Merging one slice -/

namespace SlicedExecution

variable {slices : List CellSlice} {s : CellSlice}

theorem addToGroups_eq_append {groups : List Group} (h : ∀ g ∈ groups, ¬ SameEvent g.1 s) :
    addToGroups s groups = groups ++ [(s, s.ranges)] := by
  induction groups with
  | nil => rfl
  | cons group groups ih =>
    obtain ⟨hgroup, hgroups⟩ := List.forall_mem_cons.mp h
    obtain ⟨first, ranges⟩ := group
    rw [addToGroups, if_neg hgroup, ih hgroups]
    rfl

/-- Slices of different events are not put together, and normal ranges stay as they are. -/
theorem grouped_eq_self (hdistinct : slices.Pairwise fun s t => ¬ SameEvent s t)
    (hnormal : ∀ s ∈ slices, LineRange.IsNormal s.ranges) : grouped slices = slices := by
  have hgroups : slices.foldl (fun groups s => addToGroups s groups) [] =
      slices.map fun s => (s, s.ranges) := by
    clear hnormal
    induction slices using List.reverseRecOn with
    | nil => rfl
    | append_singleton slices s ih =>
      obtain ⟨hslices, -, hs⟩ := List.pairwise_append.mp hdistinct
      rw [List.foldl_append, ih hslices, List.foldl_cons, List.foldl_nil, List.map_append]
      refine addToGroups_eq_append fun g hg => ?_
      obtain ⟨t, ht, rfl⟩ := List.mem_map.mp hg
      exact hs t ht s (List.mem_singleton_self s)
  rw [grouped, hgroups, List.map_map]
  refine (List.map_congr_left fun s hs => ?_).trans (List.map_id slices)
  simp only [Function.comp_apply, CellSlice.ofRanges, (hnormal s hs).normalize_eq, id_eq]

/-- What a single slice has that comes from a log without repeated events. -/
structure Unmixed (x : SlicedExecution) : Prop where
  distinct : x.slices.Pairwise fun s t => ¬ SameEvent s t
  normal : ∀ s ∈ x.slices, LineRange.IsNormal s.ranges
  sorted : x.slices.Pairwise fun s t => countLE s t = true
  ordered : areOrdered x.slices = true

/-- Merging such a slice leaves it as it is, if its events are keys. -/
theorem Unmixed.merge?_singleton {x : SlicedExecution} (h : x.Unmixed) (now : Value) :
    merge? now [x] = if x.slices.all (·.cell.event.isKey) then .ok ⟨now, x.slices⟩
      else .error .eventNoKey := by
  have hgrouped := grouped_eq_self h.distinct h.normal
  rw [merge?]
  simp only [List.flatMap_cons, List.flatMap_nil, List.append_nil, hgrouped, ofSlices?, h.ordered,
    ofSlices, List.mergeSort_of_pairwise h.sorted, List.isEmpty_cons, Bool.false_eq_true,
    if_false, if_true]
  cases x.slices.all (·.cell.event.isKey) <;> rfl

end SlicedExecution

/-! ## Logs without repeated events -/

namespace Log

def Unrepeated (log : Log) : Prop :=
  log.entries.Pairwise fun e f => ¬ e.cell.event.same f.cell.event = true

variable {log log' : Log} {cell : Cell} {time : Value} {e : Entry}

theorem Unrepeated.record (h : log.Unrepeated) (hrecord : log.record cell time = .ok (log', e))
    (hnew : ∀ f ∈ log.entries, ¬ f.cell.event.same cell.event = true) : log'.Unrepeated := by
  obtain ⟨hentries, -, hrecording⟩ := entries_of_record hrecord
  obtain rfl : e.cell = cell := congrArg Recording.cell hrecording
  rw [Unrepeated, hentries]
  refine List.pairwise_append.mpr ⟨h, List.pairwise_singleton .., fun f hf g hg => ?_⟩
  rw [List.mem_singleton.mp hg]
  exact hnew f hf

theorem Unrepeated.length_find_le (h : log.Unrepeated) (cell : Cell) :
    (log.find cell).length ≤ 1 := by
  rw [find, List.length_reverse]
  have hpairs := h.sublist (List.filter_sublist (p := fun e => e.cell.event.same cell.event))
  have hsame : ∀ e ∈ log.entries.filter (fun e => e.cell.event.same cell.event),
      e.cell.event.same cell.event = true := fun e he => (List.mem_filter.mp he).2
  generalize log.entries.filter (fun e => e.cell.event.same cell.event) = found at hpairs hsame
  cases found with
  | nil => exact Nat.zero_le _
  | cons e found =>
    cases found with
    | nil => exact Nat.le_refl _
    | cons f _ =>
      have he := hsame e List.mem_cons_self
      have hf := hsame f (List.mem_cons_of_mem _ List.mem_cons_self)
      exact absurd (Value.same_trans he (Value.same_symm hf))
        (List.rel_of_pairwise_cons hpairs List.mem_cons_self)

theorem Unrepeated.length_sliceAll_le (h : log.Unrepeated) (cell : Cell) (limit : Option ℤ) :
    (log.sliceAll cell limit).length ≤ 1 := by
  have hall : (((log.find cell).map log.sliceEntry).filter fun s => !s.slices.isEmpty).length ≤ 1 :=
    Nat.le_trans (List.length_filter_le _ _) (by rw [List.length_map]; exact h.length_find_le cell)
  cases limit with
  | none => exact hall
  | some n => exact Nat.le_trans (List.length_take_le' _ _) hall

theorem Unrepeated.unmixed (h : log.Unrepeated) (hsound : log.Sound) :
    (log.sliceEntry e).Unmixed where
  distinct := by
    have hcells : ((log.contributors e).map Entry.cell).Pairwise
        fun a b => ¬ a.event.same b.event = true :=
      List.pairwise_map.mpr (h.sublist List.filter_sublist)
    rw [← hsound.map_cell_slices] at hcells
    exact List.pairwise_map.mp hcells
  normal s hs := by
    obtain ⟨f, hf, hs⟩ := mem_slices.mp hs
    obtain ⟨-, rfl⟩ := cellSlice?_eq_some_iff.mp hs
    exact LineRange.isNormal_normalize (hsound.first_le_last_of_mem_rangesIn hf)
  sorted := List.pairwise_mergeSort SlicedExecution.countLE_trans SlicedExecution.countLE_total _
  ordered := by
    refine SlicedExecution.areOrdered_of_numbers fun s hs => ?_
    obtain ⟨f, hf, hs⟩ := mem_slices.mp hs
    obtain ⟨n, hn⟩ := hsound.counted f hf
    rw [cell_of_cellSlice? hs]
    exact ⟨n, Value.rank_of_integer? hn⟩

theorem Unrepeated.sliceAll_eq (h : log.Unrepeated) (cell : Cell) :
    log.sliceAll cell none = (log.sliceLatest cell).toList := by
  have hlength := h.length_sliceAll_le cell none
  have hlatest : log.sliceLatest cell = ((log.sliceAll cell none).take 1).head? := rfl
  rw [hlatest]
  generalize log.sliceAll cell none = all at hlength
  cases all with
  | nil => rfl
  | cons _ all =>
    rw [List.length_eq_zero_iff.mp (Nat.le_zero.mp (Nat.le_of_succ_le_succ hlength))]
    rfl

theorem exists_of_sliceLatest {x : SlicedExecution} (h : log.sliceLatest cell = some x) :
    ∃ e, x = log.sliceEntry e := by
  have hx := List.mem_of_mem_take (List.mem_of_head? h)
  obtain ⟨e, -, rfl⟩ := List.mem_map.mp (List.mem_of_mem_filter hx)
  exact ⟨e, rfl⟩

end Log

/-! ## Messages of a notebook -/

/-- What a notebook tells its session. -/
inductive Message
  | post (cell : Cell) (now : Value)
  | configure (c : Configuration)
  /-- something else is given for a configuration -/
  | misconfigure (v : Value)

def Message.call : Message → Call
  | post cell now => .post cell now
  | configure c => .configure c
  | misconfigure v => .misconfigure v

namespace Session

variable {s t : Session}

theorem unrepeated_post {cell : Cell} {now : Value} {o : Option Entry} (hs : s.Reachable)
    (h : s.log.Unrepeated) (hpost : s.post cell now = .ok (t, o)) : t.log.Unrepeated := by
  by_cases hknown : ∃ f ∈ s.log.entries, f.cell.event.same cell.event = true
  · obtain ⟨f, hf, hsame⟩ := hknown
    rwa [eq_of_settles hs.log.sound (.known hf hsame) hpost]
  · rcases post_eq_ok hpost with ⟨rfl, -⟩ | ⟨e, -, hrecord⟩
    · exact h
    · exact h.record (log_of_record hrecord) fun f hf hsame => hknown ⟨f, hf, hsame⟩

theorem unrepeated_after (hs : s.Reachable) (h : s.log.Unrepeated) (m : Message) :
    (s.after m.call).log.Unrepeated := by
  cases m with
  | post cell now =>
    rw [Message.call, after, answer]
    cases hpost : s.post cell now with
    | error r => exact h
    | ok p => exact unrepeated_post hs h hpost
  | configure c => exact h
  | misconfigure v => exact h

theorem unrepeated_run (messages : List Message) (hs : s.Reachable) (h : s.log.Unrepeated) :
    (s.run (messages.map Message.call)).log.Unrepeated := by
  induction messages generalizing s with
  | nil => exact h
  | cons m messages ih => exact ih (hs.after m.call) (unrepeated_after hs h m)

theorem gatherSlice_eq_sliceLatest (hs : s.Reachable) (h : s.log.Unrepeated) (cell : Cell)
    (now : Value) : s.gatherSlice cell now =
      match s.log.sliceLatest cell with
      | none => .ok none
      | some latest =>
        if latest.slices.all (·.cell.event.isKey) then .ok (some ⟨now, latest.slices⟩)
        else .error .eventNoKey := by
  rw [gatherSlice, h.sliceAll_eq]
  cases hlatest : s.log.sliceLatest cell with
  | none => rfl
  | some x =>
    obtain ⟨e, rfl⟩ := Log.exists_of_sliceLatest hlatest
    simp only [Option.toList_some, (h.unmixed hs.log.sound).merge?_singleton]
    split <;> rfl

/-- A session that is only sent posts and configurations has at most one entry for each event and
one slice for each cell. Gathering gives none if there is no latest slice, and otherwise a slice
with the cells, lines and times of the latest one in the same order. It fails just if an event of
it is no key. -/
theorem unmerged_run (c : Configuration) (marker : String) (withHeader : Bool)
    (messages : List Message) {s : Session}
    (hs : (new c marker withHeader).run (messages.map Message.call) = s) :
    s.log.entries.Pairwise (fun e f => ¬ e.cell.event.same f.cell.event = true) ∧
      ∀ cell, (∀ limit, (s.log.sliceAll cell limit).length ≤ 1) ∧
        ∀ now, (s.gatherSlice cell now = .ok none ↔ s.log.sliceLatest cell = none) ∧
          ∀ latest, s.log.sliceLatest cell = some latest →
            s.gatherSlice cell now =
              if latest.slices.all (·.cell.event.isKey) then .ok (some ⟨now, latest.slices⟩)
              else .error .eventNoKey := by
  have hreachable : s.Reachable := hs ▸ (Reachable.new c marker withHeader).run _
  have h : s.log.Unrepeated := hs ▸ unrepeated_run messages (.new c marker withHeader) .nil
  refine ⟨h, fun cell => ⟨h.length_sliceAll_le cell, fun now => ?_⟩⟩
  rw [gatherSlice_eq_sliceLatest hreachable h]
  cases hlatest : s.log.sliceLatest cell with
  | none => simp
  | some x =>
    simp only [reduceCtorEq, iff_false, Option.some.injEq]
    refine ⟨?_, fun latest hx => by rw [hx]⟩
    split <;> simp

/-- The first cell is posted twice. The second one is posted under another configuration. -/
def repeatedPost : List Message :=
  [.post (.counted 1 "a = 1") (.int 10), .post (.counted 1 "a = 1") (.int 11),
    .configure .empty, .post (.counted 2 "print(a)") (.int 12)]

/-- The repeated post leaves no entry, and gathering gives what is needed as it is. -/
theorem unmerged_run_repeatedPost : ∃ s : Session,
    (new .empty "" false).run (repeatedPost.map Message.call) = s ∧
    s.log.entries.map (·.time.integer?) = [some 10, some 12] ∧
    ∃ latest, s.log.sliceLatest (.counted 2 "print(a)") = some latest ∧ latest.slices ≠ [] ∧
      s.gatherSlice (.counted 2 "print(a)") (.int 13) = .ok (some ⟨.int 13, latest.slices⟩) := by
  have hfacts : ∀ s, (new .empty "" false).run (repeatedPost.map Message.call) = s →
      s.log.entries.map (·.time.integer?) = [some 10, some 12] ∧
      (s.log.find (.counted 2 "print(a)")).map (·.statements.length) = [1] ∧
      ∀ e ∈ s.log.entries, e.cell.event.isKey = true := by
    rintro s rfl
    decide +kernel
  generalize hs : (new .empty "" false).run (repeatedPost.map Message.call) = s at hfacts
  obtain ⟨htimes, hfind, hkeys⟩ := hfacts s rfl
  have hsound : s.log.Sound := (hs ▸ (Reachable.new _ _ _).run _ : s.Reachable).log.sound
  obtain ⟨e, hfind, hlength⟩ := List.map_eq_singleton_iff.mp hfind
  have hne : (s.log.sliceEntry e).slices ≠ [] := by
    have he := (Log.mem_find.mp (hfind ▸ List.mem_singleton_self e)).1
    have hlast := hsound.getLast?_contributors he (List.ne_nil_of_length_pos (by omega))
    intro hnil
    have hcells := hsound.map_cell_slices (e := e)
    rw [hnil, List.map_nil] at hcells
    rw [List.map_eq_nil_iff.mp hcells.symm] at hlast
    cases hlast
  have hlatest : s.log.sliceLatest (.counted 2 "print(a)") = some (s.log.sliceEntry e) := by
    simp [Log.sliceLatest, Log.sliceAll, hfind, hne]
  refine ⟨s, rfl, htimes, _, hlatest, hne, ?_⟩
  rw [((unmerged_run _ _ _ _ hs).2 _).2 _ |>.2 _ hlatest, if_pos]
  refine List.all_eq_true.mpr fun t ht => ?_
  obtain ⟨f, hf, hslice⟩ := Log.mem_slices.mp ht
  rw [Log.cell_of_cellSlice? hslice]
  exact hkeys f hf

end Session

end NotebookSlice
