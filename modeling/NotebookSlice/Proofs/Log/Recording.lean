import NotebookSlice.Proofs.Log.Reachable

/-! # Recordings

What a session was given for each of its entries: a configuration, a cell and a
time. A session that is only given recordings has just these entries.
-/

namespace NotebookSlice

open NotebookSlice.Flow

/-- What an entry is made of. -/
structure Recording where
  configuration : Configuration
  cell : Cell
  time : Value

def Entry.recording (e : Entry) : Recording := ⟨e.configuration, e.cell, e.time⟩

theorem Log.entries_of_record {log log' : Log} {cell : Cell} {time : Value} {e : Entry}
    (h : log.record cell time = .ok (log', e)) : log'.entries = log.entries ++ [e] ∧
      e.position = log.entries.length ∧ e.recording = ⟨log.configuration, cell, time⟩ := by
  obtain ⟨-, a, -, happend⟩ := record_eq_ok.mp h
  obtain ⟨rfl, rfl⟩ := Prod.mk.inj happend
  exact ⟨rfl, rfl, rfl⟩

namespace Session

/-- Records cells in order, each under its configuration. -/
def recordAll : Session → List Recording → Except LogError Session
  | s, [] => .ok s
  | s, r :: rs => do
    let (s, _) ← (s.configure r.configuration).record r.cell r.time
    recordAll s rs

theorem record_of_log {s : Session} {log' : Log} {cell : Cell} {time : Value} {e : Entry}
    (h : s.log.record cell time = .ok (log', e)) :
    s.record cell time = .ok ({ s with log := log' }, e) := by
  rw [record, h]
  rfl

theorem recordAll_cons_eq_ok {s s' : Session} {r : Recording} {rs : List Recording} :
    s.recordAll (r :: rs) = .ok s' ↔ ∃ t e,
      (s.configure r.configuration).record r.cell r.time = .ok (t, e) ∧ t.recordAll rs = .ok s' := by
  rw [recordAll]
  cases (s.configure r.configuration).record r.cell r.time with
  | error _ => simp [bind, Except.bind]
  | ok p => simp [bind, Except.bind, Prod.ext_iff]

theorem Reachable.recordAll {s s' : Session} {rs : List Recording} (hs : s.Reachable)
    (h : s.recordAll rs = .ok s') : s'.Reachable := by
  induction rs generalizing s with
  | nil => exact Except.ok.inj h ▸ hs
  | cons r rs ih =>
    obtain ⟨t, e, hrecord, hrest⟩ := recordAll_cons_eq_ok.mp h
    exact ih ((hs.configure _).record hrecord) hrest

theorem recordings_of_recordAll {s s' : Session} {rs : List Recording}
    (h : s.recordAll rs = .ok s') :
    s'.log.entries.map Entry.recording = s.log.entries.map Entry.recording ++ rs := by
  induction rs generalizing s with
  | nil => rw [Except.ok.inj h, List.append_nil]
  | cons r rs ih =>
    obtain ⟨t, e, hrecord, hrest⟩ := recordAll_cons_eq_ok.mp h
    obtain ⟨hentries, -, hrecording⟩ := Log.entries_of_record (log_of_record hrecord)
    rw [ih hrest, hentries, List.map_append, List.map_singleton, hrecording, List.append_assoc]
    rfl

/-- A session with the given recordings, and with a property that is found by running them. -/
theorem exists_of_recordAll (rs : List Recording) {p : Log → Prop} [DecidablePred p]
    (h : ((Session.new .empty "" false).recordAll rs).toOption.any fun s => decide (p s.log)) :
    ∃ s : Session, s.Reachable ∧ s.log.entries.map Entry.recording = rs ∧ p s.log := by
  cases hrun : (Session.new .empty "" false).recordAll rs with
  | error r => simp [hrun, Except.toOption] at h
  | ok s =>
    rw [hrun] at h
    exact ⟨s, (Reachable.new _ _ _).recordAll hrun, recordings_of_recordAll hrun,
      of_decide_eq_true h⟩

end Session

end NotebookSlice
