import NotebookSlice.Proofs.Flow.Limit
import NotebookSlice.Proofs.Log.Reachable

/-! # Recording with a limited stack

A session with a limited stack records what one without a limit does, or fails
at a cell that nests too deep. So it comes to no other sessions.
-/

namespace NotebookSlice

variable {cell : Cell} {cells : List Cell} {now : Value}

theorem Log.record_some (log : Log) (k : Stack) : log.record cell now (some k) =
    (log.record cell now).bind fun p =>
      if k.Suffices cell.text then .ok p else .error (.code .tooDeep) := by
  simp only [record, Flow.analyzeCell_some]
  cases log.refusal? cell with
  | some e => rfl
  | none =>
    cases Flow.analyzeCell log.configuration cell.text with
    | error e => rfl
    | ok a =>
      by_cases hk : k.Suffices cell.text
      · simp only [Except.bind, hk, if_true]
      · simp only [Except.bind, hk, if_false]

namespace Session

variable {s t : Session} {k : Stack} {stack : Option Stack}

theorem record_some (s : Session) (k : Stack) : s.record cell now (some k) =
    (s.record cell now).bind fun p =>
      if k.Suffices cell.text then .ok p else .error (.code .tooDeep) := by
  simp only [record, Log.record_some]
  cases s.log.record cell now with
  | error e => rfl
  | ok p =>
    by_cases hk : k.Suffices cell.text
    · simp only [Except.bind, Except.map, hk, if_true]
    · simp only [Except.bind, Except.map, hk, if_false]

theorem post_some (s : Session) (k : Stack) : s.post cell now (some k) =
    (s.post cell now).bind fun p =>
      if p.2.isNone = true ∨ k.Suffices cell.text then .ok p else .error (.code .tooDeep) := by
  simp only [post]
  split
  · rfl
  · rw [record_some]
    cases s.record cell now with
    | error e => rfl
    | ok p =>
      by_cases hk : k.Suffices cell.text
      · simp [Except.bind, Except.map, hk]
      · simp [Except.bind, Except.map, hk]

theorem post_of_limited {o : Option Entry} (h : s.post cell now stack = .ok (t, o)) :
    s.post cell now = .ok (t, o) := by
  cases stack with
  | none => exact h
  | some k =>
    rw [post_some] at h
    cases hpost : s.post cell now with
    | error r => rw [hpost] at h; cases h
    | ok p =>
      simp only [hpost, Except.bind] at h
      split at h
      · exact h
      · cases h

theorem post_eq_of_suffices (h : ∀ k ∈ stack, k.Suffices cell.text) :
    s.post cell now stack = s.post cell now := by
  cases stack with
  | none => rfl
  | some k =>
    rw [post_some]
    cases s.post cell now with
    | error r => rfl
    | ok p => simp only [Except.bind, h k rfl, or_true, if_true]

theorem post_eq_tooDeep {e : Entry} (hpost : s.post cell now = .ok (t, some e))
    (hk : k ∈ stack) (h : ¬ k.Suffices cell.text) :
    s.post cell now stack = .error (.code .tooDeep) := by
  obtain rfl : stack = some k := hk
  rw [post_some, hpost]
  simp [Except.bind, h]

theorem postAll_eq_of_suffices (h : ∀ c ∈ cells, ∀ k ∈ stack, k.Suffices c.text) :
    postAll now s cells stack = postAll now s cells := by
  induction cells generalizing s with
  | nil => rfl
  | cons cell cells ih =>
    obtain ⟨hcell, hcells⟩ := List.forall_mem_cons.mp h
    rw [postAll, postAll, post_eq_of_suffices hcell]
    cases s.post cell now with
    | error r => rfl
    | ok p => exact ih hcells

theorem Reachable.postAll_limited (hs : s.Reachable)
    (h : Session.postAll now s cells stack = .ok t) : t.Reachable := by
  induction cells generalizing s with
  | nil => exact Except.ok.inj h ▸ hs
  | cons cell cells ih =>
    rw [Session.postAll] at h
    cases hpost : s.post cell now stack with
    | error r => rw [hpost] at h; cases h
    | ok p =>
      rw [hpost] at h
      exact ih (hs.post (post_of_limited hpost)) h

end Session

end NotebookSlice
