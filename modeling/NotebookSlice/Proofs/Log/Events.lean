import NotebookSlice.Proofs.Log.Recording
import NotebookSlice.Proofs.Value.Same

/-! # Events

A log refuses a cell whose count does not grow, and one whose event was recorded
with another text. So all entries of an event have the same text.
-/

namespace NotebookSlice.Log

variable {log : Log} {cell : Cell} {e f : Entry}

theorem mem_find : e ∈ log.find cell ↔
    e ∈ log.entries ∧ e.cell.event.same cell.event = true := by
  simp [find]

theorem refusal?_eq_none_iff : log.refusal? cell = none ↔
    (∃ n, cell.count.integer? = some n ∧ log.follows n = true) ∧
      ∀ e, (log.find cell).head? = some e → e.cell.text = cell.text := by
  rw [refusal?]
  cases cell.count.integer? with
  | none => simp
  | some n =>
    cases hfollows : log.follows n with
    | false => simp [hfollows]
    | true => cases log.find cell <;> simp [hfollows]

/-- The entries of an event have the same text. For a new cell the newest of them is compared, and
the others have the text of that one. -/
theorem Reachable.text_eq (h : log.Reachable) (he : e ∈ log.entries) (hf : f ∈ log.entries)
    (hsame : e.cell.event.same f.cell.event = true) : e.cell.text = f.cell.text := by
  induction h generalizing e f with
  | empty c => cases he
  | configure c _ ih => exact ih he hf hsame
  | @record log log' cell time new _ hrecord ih =>
    obtain ⟨hentries, -, hnew⟩ := entries_of_record hrecord
    obtain rfl : new.cell = cell := congrArg Recording.cell hnew
    have hlast {e : Entry} (he : e ∈ log.entries)
        (hsame : e.cell.event.same new.cell.event = true) : e.cell.text = new.cell.text := by
      obtain ⟨newest, older, hfind⟩ :=
        List.exists_cons_of_ne_nil (List.ne_nil_of_mem (mem_find.mpr ⟨he, hsame⟩))
      obtain ⟨hmem, hsame'⟩ := mem_find.mp (hfind ▸ List.mem_cons_self)
      have haccepted := refusal?_eq_none_iff.mp (record_eq_ok.mp hrecord).1
      have hnewest := haccepted.2 newest (by rw [hfind]; rfl)
      exact (ih he hmem (Value.same_trans hsame (Value.same_symm hsame'))).trans hnewest
    rw [hentries, List.mem_append, List.mem_singleton] at he hf
    rcases he with he | rfl <;> rcases hf with hf | rfl
    · exact ih he hf hsame
    · exact hlast he hsame
    · exact (hlast hf (Value.same_symm hsame)).symm
    · rfl

end NotebookSlice.Log
