import Mathlib.Data.Int.Notation
import Mathlib.Data.List.Induction
import NotebookSlice.Proofs.Flow.Forest
import NotebookSlice.Proofs.Flow.Edges
import NotebookSlice.Session

/-! # Reachable logs

A log grows by recording cells, each under the configuration of the moment. The
entries of such a log are numbered, ordered by their counts and analysed from
their own text, and its graph is that of its history.
-/

namespace NotebookSlice

open NotebookSlice.Flow

def Entry.execution (e : Entry) : Execution := ⟨e.position, e.statements, !e.cell.hasFailed⟩

namespace Log

/-- The logs that recording leads to. -/
inductive Reachable : Log → Prop

  | empty (c : Configuration) : Reachable (.empty c)

  | configure {log : Log} (c : Configuration) : Reachable log → Reachable (log.configure c)

  | record {log log' : Log} {cell : Cell} {time : Value} {e : Entry} :
      Reachable log → log.record cell time = .ok (log', e) → Reachable log'

def history (log : Log) : Flow.History := log.entries.map Entry.execution

def CountedBefore (e f : Entry) : Prop :=
  ∃ m n, e.cell.count.integer? = some m ∧ f.cell.count.integer? = some n ∧ m < n

theorem CountedBefore.trans {e f g : Entry} (h : CountedBefore e f) (h' : CountedBefore f g) :
    CountedBefore e g := by
  obtain ⟨m, n, hm, hn, hlt⟩ := h
  obtain ⟨n', k, hn', hk, hlt'⟩ := h'
  obtain rfl : n = n' := Option.some.inj (hn.symm.trans hn')
  exact ⟨m, k, hm, hk, Int.lt_trans hlt hlt'⟩

/-- What all logs have in common that recording leads to. -/
structure Sound (log : Log) : Prop where
  position : ∀ k (e : Entry), log.entries[k]? = some e → e.position = k
  counted : ∀ e ∈ log.entries, ∃ n, e.cell.count.integer? = some n
  increasing : log.entries.Pairwise CountedBefore
  analysed : ∀ e ∈ log.entries, analyzeCell e.configuration e.cell.text = .ok e.analysis
  graph_eq : log.graph = Graph.ofHistory log.history

theorem record_eq_ok {log log' : Log} {cell : Cell} {time : Value} {e : Entry} :
    log.record cell time = .ok (log', e) ↔ log.refusal? cell = none ∧ ∃ a,
      analyzeCell log.configuration cell.text = .ok a ∧ log.append cell a time = (log', e) := by
  rw [record]
  cases log.refusal? cell with
  | some r => simp
  | none => cases analyzeCell log.configuration cell.text <;> simp

theorem counted_of_refusal? {log : Log} {cell : Cell} (h : log.refusal? cell = none) :
    ∃ n, cell.count.integer? = some n ∧ log.follows n = true := by
  rw [refusal?] at h
  cases hn : cell.count.integer? with
  | none => simp [hn] at h
  | some n =>
    cases hf : log.follows n with
    | false => simp [hn, hf] at h
    | true => exact ⟨n, rfl, hf⟩

namespace Sound

variable {log : Log}

theorem empty (c : Configuration) : (Log.empty c).Sound where
  position := by simp [Log.empty]
  counted := by simp [Log.empty]
  increasing := .nil
  analysed := by simp [Log.empty]
  graph_eq := rfl

theorem countedBefore (h : log.Sound) {f : Entry} {n : ℤ} (hn : f.cell.count.integer? = some n)
    (hf : log.follows n = true) : ∀ e ∈ log.entries, CountedBefore e f := by
  intro e he
  obtain ⟨init, last, heq⟩ :=
    (List.eq_nil_or_concat log.entries).resolve_left (List.ne_nil_of_mem he)
  rw [List.concat_eq_append] at heq
  have hinc := h.increasing
  rw [heq, List.pairwise_append] at hinc
  obtain ⟨m, hm⟩ := h.counted last (heq ▸ List.mem_append_right _ (List.mem_singleton_self _))
  have hlast : CountedBefore last f := by
    refine ⟨m, n, hm, hn, ?_⟩
    simpa [follows, heq, hm] using hf
  rw [heq, List.mem_append, List.mem_singleton] at he
  rcases he with he | rfl
  · exact (hinc.2.2 e he last (List.mem_singleton_self _)).trans hlast
  · exact hlast

theorem append (h : log.Sound) {cell : Cell} {a : Analysis} {time : Value}
    (hr : log.refusal? cell = none) (ha : analyzeCell log.configuration cell.text = .ok a) :
    (log.append cell a time).1.Sound where
  position := by
    intro k e hk
    simp only [Log.append, List.getElem?_append, List.getElem?_singleton] at hk
    split at hk
    · exact h.position k e hk
    · split at hk
      · obtain rfl := Option.some.inj hk
        simp only
        omega
      · cases hk
  counted := by
    intro e he
    rcases List.mem_append.mp he with he | he
    · exact h.counted e he
    · obtain ⟨n, hn, -⟩ := counted_of_refusal? hr
      rw [List.mem_singleton] at he
      exact ⟨n, he ▸ hn⟩
  increasing := by
    obtain ⟨n, hn, hf⟩ := counted_of_refusal? hr
    refine List.pairwise_append.mpr ⟨h.increasing, List.pairwise_singleton .., ?_⟩
    intro e he f hmem
    rw [List.mem_singleton] at hmem
    subst hmem
    exact h.countedBefore hn hf e he
  analysed := by
    intro e he
    rcases List.mem_append.mp he with he | he
    · exact h.analysed e he
    · rw [List.mem_singleton] at he
      exact he ▸ ha
  graph_eq := by
    simp only [Log.append, history, List.map_append, Graph.ofHistory, List.foldl_append]
    rw [← Graph.ofHistory, ← history, ← h.graph_eq]
    rfl

end Sound

theorem Reachable.sound {log : Log} (h : log.Reachable) : log.Sound := by
  induction h with
  | empty c => exact .empty c
  | configure c _ ih => exact ⟨ih.position, ih.counted, ih.increasing, ih.analysed, ih.graph_eq⟩
  | @record _ _ _ time _ _ hrecord ih =>
    obtain ⟨hr, a, ha, hlog⟩ := record_eq_ok.mp hrecord
    have happend : (Log.append _ _ a time).1.Sound := ih.append hr ha
    rwa [hlog] at happend

end Log

namespace Session

/-- The sessions that the notebook's messages lead to. -/
inductive Reachable : Session → Prop

  | new (c : Configuration) (marker : String) (withHeader : Bool) :
      Reachable (.new c marker withHeader)

  | configure {s : Session} (c : Configuration) : Reachable s → Reachable (s.configure c)

  | record {s s' : Session} {cell : Cell} {time : Value} {e : Entry} :
      Reachable s → s.record cell time = .ok (s', e) → Reachable s'

  | post {s s' : Session} {cell : Cell} {now : Value} {e : Option Entry} :
      Reachable s → s.post cell now = .ok (s', e) → Reachable s'

theorem log_of_record {s s' : Session} {cell : Cell} {time : Value} {e : Entry}
    (h : s.record cell time = .ok (s', e)) : s.log.record cell time = .ok (s'.log, e) := by
  rw [record] at h
  cases hlog : s.log.record cell time with
  | error r => rw [hlog] at h; cases h
  | ok p =>
    rw [hlog] at h
    obtain ⟨rfl, rfl⟩ := Prod.mk.inj (Except.ok.inj h)
    rfl

/-- Taking note of a cell leaves the session as it is, or records the cell. -/
theorem post_eq_ok {s s' : Session} {cell : Cell} {now : Value} {o : Option Entry}
    (h : s.post cell now = .ok (s', o)) :
    s' = s ∧ o = none ∨ ∃ e, o = some e ∧ s.record cell now = .ok (s', e) := by
  rw [post] at h
  split at h
  · obtain ⟨rfl, rfl⟩ := Prod.mk.inj (Except.ok.inj h)
    exact Or.inl ⟨rfl, rfl⟩
  · cases hrec : s.record cell now with
    | error r => rw [hrec] at h; cases h
    | ok p =>
      rw [hrec] at h
      obtain ⟨rfl, rfl⟩ := Prod.mk.inj (Except.ok.inj h)
      exact Or.inr ⟨p.2, rfl, rfl⟩

theorem Reachable.postAll {s s' : Session} {cells : List Cell} {now : Value} (hs : s.Reachable)
    (h : postAll now s cells = .ok s') : s'.Reachable := by
  induction cells generalizing s with
  | nil => exact Except.ok.inj h ▸ hs
  | cons cell cells ih =>
    rw [Session.postAll] at h
    cases hpost : s.post cell now with
    | error r => rw [hpost] at h; cases h
    | ok p =>
      rw [hpost] at h
      exact ih (hs.post hpost) h

theorem Reachable.log {s : Session} (h : s.Reachable) : s.log.Reachable := by
  induction h with
  | new c marker withHeader => exact .empty c
  | configure c _ ih => exact ih.configure c
  | record _ hrecord ih => exact ih.record (log_of_record hrecord)
  | post _ hpost ih =>
    rcases post_eq_ok hpost with ⟨rfl, -⟩ | ⟨e, -, hrecord⟩
    · exact ih
    · exact ih.record (log_of_record hrecord)

/-- A session that some cells lead to, with a property that is found by running them. -/
theorem exists_of_postAll (cells : List Cell) {p : Log → Prop} [DecidablePred p]
    (h : (postAll .null (.new .empty "" false) cells).toOption.any (fun s => decide (p s.log))) :
    ∃ s : Session, s.Reachable ∧ p s.log := by
  cases hpost : Session.postAll .null (.new .empty "" false) cells with
  | error r => simp [hpost, Except.toOption] at h
  | ok s =>
    rw [hpost] at h
    exact ⟨s, (Reachable.new _ _ _).postAll hpost, of_decide_eq_true h⟩

end Session

def Cell.counted (n : ℕ) (text : String) : Cell :=
  .make (.text (toString n)) text (.int n) .null .null (.bool false) .null

end NotebookSlice
