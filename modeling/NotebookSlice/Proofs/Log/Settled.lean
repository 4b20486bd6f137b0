import NotebookSlice.Proofs.Log.Events

/-! # Settled cells

When a log has come across a cell it never takes note of it again. What settles a
cell is its text, or an entry of its event, or an entry that has overtaken its
count. None of this is undone by further entries.
-/

namespace NotebookSlice

open NotebookSlice.Flow

/-- Why a log takes no note of a cell, now and later. -/
inductive Log.Settles (log : Log) (cell : Cell) : Prop

  | blank : Text.allBlank cell.text.toList = true → Settles log cell

  | uncounted : cell.count.integer? = none → Settles log cell

  | known {e : Entry} : e ∈ log.entries → e.cell.event.same cell.event = true → Settles log cell

  | overtaken {e : Entry} {m n : ℤ} : e ∈ log.entries → e.cell.count.integer? = some m →
      cell.count.integer? = some n → n ≤ m → Settles log cell

  | faulty : (∀ c a, analyzeCell c cell.text ≠ .ok a) → Settles log cell

namespace Log

variable {log log' : Log} {cell : Cell}

theorem Settles.mono (h : log.Settles cell) (hsub : log.entries ⊆ log'.entries) :
    log'.Settles cell := by
  cases h with
  | blank hblank => exact .blank hblank
  | uncounted hcount => exact .uncounted hcount
  | known he hsame => exact .known (hsub he) hsame
  | overtaken he hm hn hle => exact .overtaken (hsub he) hm hn hle
  | faulty hfaulty => exact .faulty hfaulty

theorem exists_analyzeCell {c c' : Configuration} {text : String} {a : Analysis}
    (h : analyzeCell c text = .ok a) : ∃ a', analyzeCell c' text = .ok a' := by
  obtain ⟨code, hcode, -⟩ := analyzeCell_eq_ok.mp h
  exact ⟨_, analyzeCell_eq_ok.mpr ⟨code, hcode, rfl⟩⟩

theorem not_follows_of_le (h : log.Sound) {e : Entry} {m n : ℤ} (he : e ∈ log.entries)
    (hm : e.cell.count.integer? = some m) (hle : n ≤ m) : log.follows n = false := by
  by_contra hfollows
  rw [Bool.not_eq_false] at hfollows
  obtain ⟨m', n', hm', hn', hlt⟩ :=
    h.countedBefore (f := { e with cell := { e.cell with count := .int n } }) rfl hfollows e he
  obtain rfl := Option.some.inj (hm.symm.trans hm')
  obtain rfl : n = n' := Option.some.inj hn'
  omega

theorem settles_of_refusal? {r : LogError} (h : log.refusal? cell = some r) :
    log.Settles cell := by
  rw [refusal?] at h
  cases hn : cell.count.integer? with
  | none => exact .uncounted hn
  | some n =>
    cases hfollows : log.follows n with
    | false =>
      rw [follows] at hfollows
      cases hlast : log.entries.getLast? with
      | none => simp [hlast] at hfollows
      | some e =>
        cases hm : e.cell.count.integer? with
        | none => simp [hlast, hm] at hfollows
        | some m =>
          refine .overtaken (List.mem_of_getLast? hlast) hm hn ?_
          simpa [hlast, hm] using hfollows
    | true =>
      cases hfind : log.find cell with
      | nil => simp [hn, hfollows, hfind] at h
      | cons e es =>
        obtain ⟨he, hsame⟩ := mem_find.mp (hfind ▸ List.mem_cons_self)
        exact .known he hsame

theorem settles_of_record_error {time : Value} {r : LogError} (h : log.record cell time = .error r) :
    log.Settles cell := by
  rw [record] at h
  cases hrefusal : log.refusal? cell with
  | some r' => exact settles_of_refusal? hrefusal
  | none =>
    rw [hrefusal] at h
    refine .faulty fun c a ha => ?_
    obtain ⟨a', ha'⟩ : ∃ a', analyzeCell log.configuration _ = .ok a' := exists_analyzeCell ha
    simp [ha'] at h

/-- A recorded cell is settled by its own entry. Its count is overtaken, even if its event differs
from itself. -/
theorem settles_of_record_ok {time : Value} {e : Entry}
    (h : log.record cell time = .ok (log', e)) : log'.Settles cell := by
  obtain ⟨n, hn, -⟩ := counted_of_refusal? (record_eq_ok.mp h).1
  obtain ⟨hentries, -, he⟩ := entries_of_record h
  have hcell : e.cell = cell := congrArg Recording.cell he
  refine .overtaken (e := e) (m := n) (hentries ▸ ?_) (hcell ▸ hn) hn le_rfl
  exact List.mem_append_right _ (List.mem_singleton_self e)

end Log

namespace Session

variable {s t : Session} {cell : Cell} {now : Value} {o : Option Entry}

theorem isRecorded_iff : s.isRecorded cell = true ↔
    ∃ e, (s.log.find cell).head? = some e ∧ e.cell.text = cell.text := by
  rw [isRecorded]
  cases s.log.find cell <;> simp

theorem settles_of_post_ok (h : s.post cell now = .ok (t, o)) : t.log.Settles cell := by
  rw [post] at h
  split at h
  · rename_i hskip
    obtain ⟨rfl, -⟩ := Prod.mk.inj (Except.ok.inj h)
    rcases Bool.or_eq_true_iff.mp hskip with hblank | hrecorded
    · exact .blank hblank
    · obtain ⟨e, he, -⟩ := isRecorded_iff.mp hrecorded
      obtain ⟨hmem, hsame⟩ := Log.mem_find.mp (List.mem_of_head? he)
      exact .known hmem hsame
  · cases hrecord : s.record cell now with
    | error r => rw [hrecord] at h; cases h
    | ok p =>
      rw [hrecord] at h
      obtain ⟨rfl, -⟩ := Prod.mk.inj (Except.ok.inj h)
      exact Log.settles_of_record_ok (log_of_record hrecord)

theorem settles_of_post_error {r : LogError} (h : s.post cell now = .error r) :
    s.log.Settles cell := by
  rw [post] at h
  split at h
  · cases h
  · rw [record] at h
    cases hrecord : s.log.record cell now with
    | error r' => exact Log.settles_of_record_error hrecord
    | ok p => rw [hrecord] at h; cases h

theorem eq_of_settles (hs : s.log.Sound) (hsettles : s.log.Settles cell)
    (h : s.post cell now = .ok (t, o)) : t = s := by
  rw [post] at h
  split at h
  · exact (Prod.mk.inj (Except.ok.inj h)).1.symm
  · rename_i hskip
    rw [Bool.or_eq_true, not_or] at hskip
    obtain ⟨hblank, hrecorded⟩ := hskip
    exfalso
    cases hrecord : s.record cell now with
    | error r => rw [hrecord] at h; cases h
    | ok p =>
      obtain ⟨hrefusal, a, ha, -⟩ := Log.record_eq_ok.mp (log_of_record hrecord)
      obtain ⟨⟨n, hn, hfollows⟩, htext⟩ := Log.refusal?_eq_none_iff.mp hrefusal
      cases hsettles with
      | blank hblank' => exact hblank hblank'
      | uncounted hnone => simp [hnone] at hn
      | @known e he hsame =>
        obtain ⟨newest, older, hfind⟩ :=
          List.exists_cons_of_ne_nil (List.ne_nil_of_mem (Log.mem_find.mpr ⟨he, hsame⟩))
        have hhead : (s.log.find cell).head? = some newest := by rw [hfind]; rfl
        exact hrecorded (isRecorded_iff.mpr ⟨newest, hhead, htext newest hhead⟩)
      | overtaken he hm hn' hle =>
        obtain rfl := Option.some.inj (hn.symm.trans hn')
        rw [Log.not_follows_of_le hs he hm hle] at hfollows
        cases hfollows
      | faulty hfaulty => exact hfaulty _ a ha

end Session

end NotebookSlice
