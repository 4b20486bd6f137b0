import NotebookSlice.Proofs.Log.Calls
import NotebookSlice.Proofs.Log.Closure
import NotebookSlice.Proofs.Log.Events

/-! # Sessions that are changed in place

Recording a cell in place goes through its checks and the analysis first, then
changes the graph, and then the entries. An error leaves what was done by then, but
all errors come before the first change. So the calls lead to the same logs as on
copies, and these logs are in order.
-/

namespace NotebookSlice

open NotebookSlice.Flow

section InPlace

variable {σ ε α : Type}

theorem run_get_bind (f : σ → ExceptT ε (StateM σ) α) (s : σ) :
    (get >>= f).run.run s = (f s).run.run s := rfl

end InPlace

namespace Log

/-- Adds an entry in place: first to the graph, then to the entries. -/
def appendInPlace (cell : Cell) (analysis : Analysis) (time : Value) :
    ExceptT LogError (StateM Log) Entry := do
  let log ← get
  let entry : Entry := ⟨log.entries.length, cell, analysis, time, log.configuration⟩
  modify fun log => { log with
    graph := log.graph.addExecution entry.position analysis.statements (!cell.hasFailed) }
  modify fun log => { log with entries := log.entries ++ [entry] }
  return entry

def recordInPlace (cell : Cell) (time : Value) : ExceptT LogError (StateM Log) Entry := do
  match cell.count.integer? with
  | none => throw (.noCount cell.id)
  | some count =>
    let log ← get
    unless log.follows count do
      throw (.countNotAfter cell.count cell.id
        ((log.entries.getLast?.map (·.cell.count)).getD .null))
    if let previous :: _ := log.find cell then
      unless previous.cell.text = cell.text do throw (.eventReused cell.event)
    match analyzeCell log.configuration cell.text with
    | .error e => throw (.code e)
    | .ok analysis => appendInPlace cell analysis time

/-- Recording in place gives the new log, or an error and the log as it was. -/
theorem run_recordInPlace (log : Log) (cell : Cell) (time : Value) :
    (recordInPlace cell time).run.run log =
      match log.record cell time with
      | .ok (log', e) => (.ok e, log')
      | .error r => (.error r, log) := by
  unfold recordInPlace record refusal?
  cases cell.count.integer? with
  | none => rfl
  | some n =>
    simp only [run_get_bind]
    cases log.follows n with
    | false => rfl
    | true =>
      cases log.find cell with
      | nil => cases analyzeCell log.configuration cell.text <;> rfl
      | cons previous older =>
        by_cases htext : previous.cell.text = cell.text
        · simp only [if_true, if_pos htext]
          cases analyzeCell log.configuration cell.text <;> rfl
        · simp only [if_true, if_neg htext]
          rfl

end Log

namespace Session

def onLog {α : Type} (p : ExceptT LogError (StateM Log) α) :
    ExceptT CallError (StateM Session) α :=
  ExceptT.mk fun s =>
    let (answer, log) := p.run.run s.log
    (answer.mapError .log, { s with log := log })

def perform : Call → ExceptT CallError (StateM Session) (Option Entry)
  | .record cell time => return some (← onLog (Log.recordInPlace cell time))
  | .post cell now => do
    let s ← get
    if Text.allBlank cell.text.toList || s.isRecorded cell then return none
    return some (← onLog (Log.recordInPlace cell now))
  | .configure c => do
    modify fun s => s.configure c
    return none
  | .misconfigure v => throw (.rule (.noConfiguration v))

/-- The session after some calls, some of which may have ended in errors. -/
def performAll (s : Session) (calls : List Call) : Session :=
  calls.foldl (fun s call => ((perform call).run.run s).2) s

theorem run_onLog_record (s : Session) (cell : Cell) (time : Value) :
    (onLog (Log.recordInPlace cell time)).run.run s =
      match s.record cell time with
      | .ok (t, e) => (.ok e, t)
      | .error r => (.error (.log r), s) := by
  have hrun := Log.run_recordInPlace s.log cell time
  rw [record]
  change (((Log.recordInPlace cell time).run.run s.log).1.mapError CallError.log,
    ({ s with log := ((Log.recordInPlace cell time).run.run s.log).2 } : Session)) = _
  rw [hrun]
  cases s.log.record cell time <;> rfl

theorem run_some_bind {σ ε α : Type} (p : ExceptT ε (StateM σ) α) (s : σ) :
    (return some (← p) : ExceptT ε (StateM σ) (Option α)).run.run s =
      ((p.run.run s).1.map some, (p.run.run s).2) := by
  simp only [bind, ExceptT.bind, ExceptT.mk, StateT.bind, ExceptT.run, StateT.run]
  cases p s with
  | mk answer t => cases answer <;> rfl

/-- A call in place gives the same session and answer as on a copy. After an error the session is
as it was. -/
theorem run_perform (s : Session) (call : Call) :
    (perform call).run.run s =
      match s.answer call with
      | .ok (t, e) => (.ok e, t)
      | .error r => (.error r, s) := by
  cases call with
  | record cell time =>
    rw [perform, run_some_bind, run_onLog_record, answer]
    cases s.record cell time <;> rfl
  | post cell now =>
    rw [perform, run_get_bind, answer, post]
    cases Text.allBlank cell.text.toList || s.isRecorded cell with
    | true => rfl
    | false =>
      simp only [Bool.false_eq_true, if_false, run_some_bind, run_onLog_record]
      cases s.record cell now <;> rfl
  | configure c => rfl
  | misconfigure v => rfl

theorem performAll_eq_run (s : Session) (calls : List Call) : s.performAll calls = s.run calls := by
  refine congrArg (fun step => calls.foldl step s) ?_
  funext t call
  rw [run_perform, after]
  cases t.answer call <;> rfl

end Session

/-! ## The order of a log -/

namespace Log

/-- A log is in order: the positions count the entries, counts grow, an event has one text, and the
nodes of the graph are the statements of the entries, blocks included. -/
structure InOrder (log : Log) : Prop where
  position : ∀ k (e : Entry), log.entries[k]? = some e → e.position = k
  increasing : log.entries.Pairwise CountedBefore
  text_eq : ∀ e ∈ log.entries, ∀ f ∈ log.entries, e.cell.event.same f.cell.event = true →
    e.cell.text = f.cell.text
  mem_nodes : ∀ r : Ref, r ∈ log.graph.nodes ↔
    ∃ e, log.entries[r.1]? = some e ∧ ∃ s ∈ e.statements, s.index = r.2
  block : ∀ e ∈ log.entries, ∀ s ∈ e.statements, ∀ i ∈ s.body, ∃ t ∈ e.statements, t.index = i

theorem Reachable.inOrder {log : Log} (h : log.Reachable) : log.InOrder where
  position := h.sound.position
  increasing := h.sound.increasing
  text_eq _ he _ hf := h.text_eq he hf
  mem_nodes r := by
    rw [h.sound.mem_nodes]
    simp only [h.sound.statement?_eq_some_iff]
    constructor
    · rintro ⟨s, e, he, hs, rfl⟩
      exact ⟨e, h.sound.getElem?_position he, s, hs, rfl⟩
    · rintro ⟨e, he, s, hs, hindex⟩
      refine ⟨s, e, List.mem_of_getElem? he, hs, Prod.ext ?_ hindex.symm⟩
      exact (h.sound.position _ e he).symm
  block e he s hs i hi := by
    have hplace := h.sound.statement?_eq_some_iff.mpr ⟨e, he, hs, rfl⟩
    obtain ⟨t, ht⟩ := h.sound.mem_nodes.mp (h.sound.body_mem_nodes hplace hi)
    obtain ⟨f, hf, htf, heq⟩ := h.sound.statement?_eq_some_iff.mp ht
    obtain ⟨hposition, rfl⟩ := Prod.mk.inj heq
    obtain rfl := h.sound.eq_of_position he hf hposition
    exact ⟨t, htf, rfl⟩

end Log

/-- Whatever calls are made on a session, accepted or rejected, its log is in order, and a further
call that ends in an error changes nothing of the session. -/
theorem Session.inOrder_performAll (c : Configuration) (marker : String) (withHeader : Bool)
    (calls : List Call) :
    let s := (Session.new c marker withHeader).performAll calls
    s.log.InOrder ∧ ∀ call t error, (perform call).run.run s = (.error error, t) → t = s := by
  intro s
  constructor
  · have hrun : s = (Session.new c marker withHeader).run calls := performAll_eq_run ..
    rw [hrun]
    exact ((Reachable.new c marker withHeader).run calls).log.inOrder
  · intro call t error herror
    rw [run_perform] at herror
    cases hanswer : s.answer call with
    | ok p =>
      rw [hanswer] at herror
      cases (Prod.mk.inj herror).1
    | error r =>
      rw [hanswer] at herror
      exact (Prod.mk.inj herror).2.symm

end NotebookSlice
