import NotebookSlice.Proofs.Log.Events
import NotebookSlice.Proofs.Log.Part

/-! # Gathering is a fixed point

The cells of a slice are recorded again, in a session of their own. None is
refused, because counts still grow and events keep their texts. The new log is a
part of the old one that has the whole closure, so it gives the same lines.
-/

namespace NotebookSlice

open NotebookSlice.Flow

/-- Recordings that a session accepts in order. -/
structure Recordable (rs : List Recording) : Prop where
  counted : ∀ r ∈ rs, ∃ n, r.cell.count.integer? = some n
  increasing : rs.Pairwise fun r q => r.cell.CountedBefore q.cell
  analysable : ∀ r ∈ rs, ∃ a, analyzeCell r.configuration r.cell.text = .ok a
  text_eq : ∀ r ∈ rs, ∀ q ∈ rs, r.cell.event.same q.cell.event = true → r.cell.text = q.cell.text

/-- The entries of a log could be recorded again, all or only some of them and at any times. -/
theorem Log.Reachable.recordable {log : Log} (h : log.Reachable) {kept : List Entry}
    (hsub : kept.Sublist log.entries) (time : Entry → Value) :
    Recordable (kept.map fun f => ⟨f.configuration, f.cell, time f⟩) where
  counted := by
    refine List.forall_mem_map.mpr fun f hf => ?_
    exact h.sound.counted f (hsub.subset hf)
  increasing := List.pairwise_map.mpr (h.sound.increasing.sublist hsub)
  analysable := by
    refine List.forall_mem_map.mpr fun f hf => ?_
    exact ⟨_, h.sound.analysed f (hsub.subset hf)⟩
  text_eq := by
    refine List.forall_mem_map.mpr fun f hf => List.forall_mem_map.mpr fun g hg => ?_
    exact h.text_eq (hsub.subset hf) (hsub.subset hg)

theorem Log.follows_of_lt {log : Log} {n : ℤ} (h : ∀ e ∈ log.entries, ∃ m,
    e.cell.count.integer? = some m ∧ m < n) : log.follows n = true := by
  rw [follows]
  cases hlast : log.entries.getLast? with
  | none => rfl
  | some e =>
    obtain ⟨m, hm, hlt⟩ := h e (List.mem_of_getLast? hlast)
    simp [hm, hlt]

namespace Session

theorem exists_record {s : Session} {r : Recording} {rs : List Recording}
    (h : Recordable (s.log.entries.map Entry.recording ++ r :: rs)) :
    ∃ t e, (s.configure r.configuration).record r.cell r.time = .ok (t, e) := by
  have hmem : r ∈ s.log.entries.map Entry.recording ++ r :: rs := by simp
  obtain ⟨n, hn⟩ := h.counted r hmem
  obtain ⟨a, ha⟩ := h.analysable r hmem
  have hold {e : Entry} (he : e ∈ s.log.entries) :
      e.recording ∈ s.log.entries.map Entry.recording ++ r :: rs :=
    List.mem_append_left _ (List.mem_map_of_mem he)
  have hfollows : s.log.follows n = true := by
    refine Log.follows_of_lt fun e he => ?_
    obtain ⟨m, k, hm, hk, hlt⟩ := (List.pairwise_append.mp h.increasing).2.2 _
      (List.mem_map_of_mem he) r List.mem_cons_self
    obtain rfl := Option.some.inj (hn.symm.trans hk)
    exact ⟨m, hm, hlt⟩
  have haccepted : (s.log.configure r.configuration).refusal? r.cell = none := by
    refine Log.refusal?_eq_none_iff.mpr ⟨⟨n, hn, hfollows⟩, fun e he => ?_⟩
    obtain ⟨hentry, hsame⟩ := Log.mem_find.mp (List.mem_of_head? he)
    exact h.text_eq _ (hold hentry) r hmem hsame
  obtain ⟨log', e, hrecord⟩ : ∃ log' e, (s.log.configure r.configuration).record r.cell r.time =
      .ok (log', e) := ⟨_, _, Log.record_eq_ok.mpr ⟨haccepted, a, ha, rfl⟩⟩
  exact ⟨_, e, record_of_log hrecord⟩

theorem exists_recordAll {s : Session} {rs : List Recording}
    (h : Recordable (s.log.entries.map Entry.recording ++ rs)) :
    ∃ s', s.recordAll rs = .ok s' := by
  induction rs generalizing s with
  | nil => exact ⟨s, rfl⟩
  | cons r rs ih =>
    obtain ⟨t, e, hrecord⟩ := exists_record h
    obtain ⟨hentries, -, hrecording⟩ := Log.entries_of_record (log_of_record hrecord)
    obtain ⟨s', hs'⟩ := @ih t (by
      rw [hentries, List.map_append, List.map_singleton, hrecording, List.append_assoc]
      exact h)
    exact ⟨s', recordAll_cons_eq_ok.mpr ⟨t, e, hrecord, hs'⟩⟩

end Session

/-! ## The cells of a slice -/

theorem exists_strictMono {ks : List ℕ} (h : ks.Pairwise (· < ·)) {bound : ℕ}
    (hbound : ∀ n ∈ ks, n < bound) :
    ∃ place : ℕ → ℕ, StrictMono place ∧ ∀ k n, ks[k]? = some n → place k = n := by
  refine ⟨fun k => (ks[k]?).getD (bound + k), strictMono_nat_of_lt_succ fun k => ?_,
    fun k n hk => by simp [hk]⟩
  cases hnext : ks[k + 1]? with
  | some n =>
    obtain ⟨hlt, rfl⟩ := List.getElem?_eq_some_iff.mp hnext
    rw [List.getElem?_eq_getElem (Nat.lt_of_succ_lt hlt), Option.getD_some, Option.getD_some]
    exact List.pairwise_iff_getElem.mp h k (k + 1) _ hlt (Nat.lt_succ_self k)
  | none =>
    cases hk : ks[k]? with
    | some m =>
      have := hbound m (List.mem_of_getElem? hk)
      simp only [Option.getD_some, Option.getD_none]
      omega
    | none =>
      simp only [Option.getD_none]
      omega

namespace Log.Sound

variable {part log : Log} (hpart : part.Sound) (h : log.Sound) {kept : List Entry}
  (hsub : kept.Sublist log.entries)
  (hsame : part.entries.map (fun f => (f.configuration, f.cell)) =
    kept.map fun f => (f.configuration, f.cell))
include hpart h hsub hsame

/-- A log of the same cells as some entries of another one, under the same configurations, has
these entries at new positions. -/
theorem exists_movesTo : ∃ place, StrictMono place ∧ List.Forall₂
    (fun f g => f ∈ part.entries ∧ g ∈ log.entries ∧ f.MovesTo place g) part.entries kept := by
  have hgrow : (kept.map Entry.position).Pairwise (· < ·) :=
    List.pairwise_map.mpr (h.position_lt.sublist hsub)
  have hbound : ∀ n ∈ kept.map Entry.position, n < log.entries.length := by
    refine List.forall_mem_map.mpr fun f hf => ?_
    exact (List.getElem?_eq_some_iff.mp (h.getElem?_position (hsub.subset hf))).1
  obtain ⟨place, hplace, hpositions⟩ := exists_strictMono hgrow hbound
  have hlength : part.entries.length = kept.length := by simpa using congrArg List.length hsame
  refine ⟨place, hplace, List.forall₂_iff_get.mpr ⟨hlength, fun k hk hk' => ?_⟩⟩
  have hf := List.get_mem part.entries ⟨k, hk⟩
  have hg := hsub.subset (List.get_mem kept ⟨k, hk'⟩)
  obtain ⟨hconfiguration, hcell⟩ : kept[k].configuration = part.entries[k].configuration ∧
      kept[k].cell = part.entries[k].cell := by
    have := congrArg (·[k]?) hsame
    simp only [List.getElem?_map, List.getElem?_eq_getElem hk, List.getElem?_eq_getElem hk',
      Option.map_some, Option.some.injEq, Prod.mk.injEq] at this
    exact ⟨this.1.symm, this.2.symm⟩
  refine ⟨hf, hg, ?_, hcell, ?_⟩
  · have hposition := hpart.position k _ (List.getElem?_eq_getElem hk)
    simp only [List.get_eq_getElem, hposition]
    exact (hpositions k _ (by simp [hk'])).symm
  · have hanalysed := hpart.analysed _ hf
    have hanalysed' := h.analysed _ hg
    simp only [List.get_eq_getElem, hconfiguration, hcell] at hanalysed hanalysed' ⊢
    exact Except.ok.inj (hanalysed'.symm.trans hanalysed)

end Log.Sound

/-- Gathering is a fixed point on cells. Let an entry have statements, and let only the cells that
contribute to its slice be recorded in a new session, in order and each under the configuration it
was analysed with. Then none of them is refused, and the slice of the last entry has the same
lines of the same cells. -/
theorem Session.extents_recordAll_contributors {s : Session} (h : s.Reachable) {e : Entry}
    (he : e ∈ s.log.entries) (hsome : e.statements ≠ []) (c : Configuration) (marker : String)
    (withHeader : Bool) (time : Entry → Value) :
    (s.log.sliceEntry e).slices.map CellSlice.cell = (s.log.contributors e).map Entry.cell ∧
    ∃ s', (Session.new c marker withHeader).recordAll
        ((s.log.contributors e).map fun f => ⟨f.configuration, f.cell, time f⟩) = .ok s' ∧
      ∃ e', s'.log.entries.getLast? = some e' ∧ e'.cell = e.cell ∧
        (s'.log.sliceEntry e').slices.map CellSlice.extent =
          (s.log.sliceEntry e).slices.map CellSlice.extent := by
  have hsound := h.log.sound
  refine ⟨hsound.map_cell_slices, ?_⟩
  have hsub : (s.log.contributors e).Sublist s.log.entries := List.filter_sublist
  obtain ⟨s', hrun⟩ := Session.exists_recordAll (s := .new c marker withHeader)
    (h.log.recordable hsub time)
  refine ⟨s', hrun, ?_⟩
  have hsound' := ((Reachable.new c marker withHeader).recordAll hrun).log.sound
  have hrecordings := recordings_of_recordAll hrun
  have hsame : s'.log.entries.map (fun f => (f.configuration, f.cell)) =
      (s.log.contributors e).map fun f => (f.configuration, f.cell) := by
    have := congrArg (List.map fun r : Recording => (r.configuration, r.cell)) hrecordings
    simpa [Session.new, Log.empty, Function.comp_def, Entry.recording] using this
  obtain ⟨place, hplace, hmoves⟩ := hsound'.exists_movesTo hsound hsub hsame
  have hp : s'.log.PartOf s.log place := ⟨hplace, fun f hf => by
    obtain ⟨g, -, -, hg, hfg⟩ := exists_of_mem_left hmoves hf
    exact ⟨g, hg, hfg⟩⟩
  have hholds : s'.log.Holds place (s.log.closure e) := fun r hr => by
    obtain ⟨g, hg, hpos⟩ := hsound.exists_contributor hr
    obtain ⟨f, -, hf, -, hfg⟩ := exists_of_mem_right hmoves hg
    exact ⟨f, hf, hfg.position.symm.trans hpos⟩
  obtain ⟨e', hlast, he', -, hee⟩ :=
    exists_getLast?_left hmoves (hsound.getLast?_contributors he hsome)
  refine ⟨e', hlast, hee.cell.symm, ?_⟩
  have hclosure := hp.moves_closure hsound hsound' he hee hholds
  rw [hsound'.slices_eq, hsound.slices_eq_contributors, List.map_filterMap, List.map_filterMap]
  refine filterMap_eq_of_forall₂ (hmoves.imp fun f g hpair => ?_)
  obtain ⟨hf, hg, hfg⟩ := hpair
  rw [hp.cellSlice?_eq hsound hsound' hclosure hf hg hfg, Option.map_map]
  rfl

/-- The last cell needs one branch of the first, which brings the other one with it. -/
def skippedCell : List Cell :=
  [.counted 1 "if True:\n    a = 1\nelse:\n    b = 2", .counted 2 "c = 3", .counted 3 "print(b)"]

/-- Recorded without the second cell, the last cell has the same slice. -/
theorem extents_recordAll_skippedCell : ∃ s : Session, s.Reachable ∧ ∃ e ∈ s.log.entries,
    e.statements ≠ [] ∧ (s.log.contributors e).map Entry.position = [0, 2] ∧
    ∃ s', (Session.new .empty "" false).recordAll
        ((s.log.contributors e).map Entry.recording) = .ok s' ∧
      ∃ e', s'.log.entries.getLast? = some e' ∧ e'.cell = e.cell ∧
        (s'.log.sliceEntry e').slices.map CellSlice.extent =
          (s.log.sliceEntry e).slices.map CellSlice.extent := by
  obtain ⟨s, h, hrun⟩ := Session.exists_of_postAll skippedCell
    (p := fun log => (log.entries.map fun e =>
      (e.statements.isEmpty, (log.contributors e).map Entry.position)).getLast? =
        some (false, [0, 2]))
    (by decide +kernel)
  obtain ⟨e, he, hpair⟩ := List.mem_map.mp (List.mem_of_getLast? hrun)
  obtain ⟨hsome, hpositions⟩ := Prod.mk.inj hpair
  rw [List.isEmpty_eq_false_iff] at hsome
  exact ⟨s, h, e, he, hsome, hpositions,
    (Session.extents_recordAll_contributors h he hsome .empty "" false Entry.time).2⟩

end NotebookSlice
