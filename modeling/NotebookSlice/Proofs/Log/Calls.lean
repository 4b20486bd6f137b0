import NotebookSlice.Proofs.Log.Recording

/-! # Calls

What a session can be told: to record a cell, to take note of one, or to use
another configuration. A rejected call leaves the session as it is. The sessions
that calls lead to are the reachable ones.
-/

namespace NotebookSlice

inductive Call
  | record (cell : Cell) (time : Value)
  | post (cell : Cell) (now : Value)
  | configure (c : Configuration)
  /-- something else is given for a configuration -/
  | misconfigure (v : Value)

/-- Why a call is rejected. -/
inductive CallError
  | log (e : LogError)
  | rule (e : RuleError)

namespace Session

/-- The session after a call, with the new entry if there is one. -/
def answer (s : Session) : Call → Except CallError (Session × Option Entry)
  | .record cell time => ((s.record cell time).map fun (t, e) => (t, some e)).mapError .log
  | .post cell now => (s.post cell now).mapError .log
  | .configure c => .ok (s.configure c, none)
  | .misconfigure v => .error (.rule (.noConfiguration v))

/-- The session after a call, which may be rejected. -/
def after (s : Session) (call : Call) : Session :=
  match s.answer call with
  | .ok (t, _) => t
  | .error _ => s

def entry? (s : Session) (call : Call) : Option Entry :=
  match s.answer call with
  | .ok (_, e) => e
  | .error _ => none

def run (s : Session) (calls : List Call) : Session := calls.foldl after s

variable {s t : Session} {call : Call} {calls more : List Call}

@[simp] theorem run_nil : s.run [] = s := rfl

@[simp] theorem run_cons : s.run (call :: calls) = (s.after call).run calls := rfl

theorem run_append : s.run (calls ++ more) = (s.run calls).run more := List.foldl_append

/-! ## One call -/

/-- What a call can do: it changes no more than the configuration, or it records a cell. -/
theorem after_cases (s : Session) (call : Call) :
    (s.entry? call = none ∧ (s.after call = s ∨ ∃ c, s.after call = s.configure c)) ∨
      ∃ e cell time, s.entry? call = some e ∧ s.record cell time = .ok (s.after call, e) := by
  unfold entry? after
  cases call with
  | record cell time =>
    rw [answer]
    cases hrecord : s.record cell time with
    | error r => exact Or.inl ⟨rfl, Or.inl rfl⟩
    | ok p => exact Or.inr ⟨p.2, cell, time, rfl, hrecord⟩
  | post cell now =>
    rw [answer]
    cases hpost : s.post cell now with
    | error r => exact Or.inl ⟨rfl, Or.inl rfl⟩
    | ok p =>
      rcases post_eq_ok hpost with ⟨hs, hnone⟩ | ⟨e, hsome, hrecord⟩
      · exact Or.inl ⟨hnone, Or.inl hs⟩
      · exact Or.inr ⟨e, cell, now, hsome, hrecord⟩
  | configure c => exact Or.inl ⟨rfl, Or.inr ⟨c, rfl⟩⟩
  | misconfigure v => exact Or.inl ⟨rfl, Or.inl rfl⟩

theorem Reachable.after (h : s.Reachable) (call : Call) : (s.after call).Reachable := by
  rcases s.after_cases call with ⟨-, heq | ⟨c, heq⟩⟩ | ⟨e, cell, time, -, hrecord⟩
  · rwa [heq]
  · rw [heq]
    exact h.configure c
  · exact h.record hrecord

theorem entries_after (s : Session) (call : Call) :
    (s.after call).log.entries = s.log.entries ++ (s.entry? call).toList := by
  rcases s.after_cases call with ⟨hnone, heq | ⟨c, heq⟩⟩ | ⟨e, cell, time, hsome, hrecord⟩
  · rw [heq, hnone, Option.toList_none, List.append_nil]
  · rw [heq, hnone, Option.toList_none, List.append_nil]
    rfl
  · rw [hsome]
    exact (Log.entries_of_record (log_of_record hrecord)).1

/-! ## Runs -/

theorem Reachable.run (h : s.Reachable) (calls : List Call) : (s.run calls).Reachable :=
  List.foldlRecOn calls _ h fun _ ih call _ => ih.after call

theorem entries_isPrefix_run (s : Session) (calls : List Call) :
    s.log.entries <+: (s.run calls).log.entries := by
  refine List.foldlRecOn calls _ (motive := fun t : Session => s.log.entries <+: t.log.entries)
    (List.prefix_refl _) fun t ih call _ => ih.trans ?_
  rw [entries_after]
  exact List.prefix_append ..

theorem reachable_iff_run : s.Reachable ↔
    ∃ c marker withHeader calls, (Session.new c marker withHeader).run calls = s := by
  constructor
  · intro h
    induction h with
    | new c marker withHeader => exact ⟨c, marker, withHeader, [], rfl⟩
    | @configure s c _ ih =>
      obtain ⟨c', marker, withHeader, calls, rfl⟩ := ih
      exact ⟨c', marker, withHeader, calls ++ [.configure c], run_append⟩
    | @record s t cell time e _ hrecord ih =>
      obtain ⟨c, marker, withHeader, calls, rfl⟩ := ih
      refine ⟨c, marker, withHeader, calls ++ [.record cell time], ?_⟩
      rw [run_append, run_cons, run_nil, Session.after, answer, hrecord]
      rfl
    | @post s t cell now e _ hpost ih =>
      obtain ⟨c, marker, withHeader, calls, rfl⟩ := ih
      refine ⟨c, marker, withHeader, calls ++ [.post cell now], ?_⟩
      rw [run_append, run_cons, run_nil, Session.after, answer, hpost]
      rfl
  · rintro ⟨c, marker, withHeader, calls, rfl⟩
    exact (Reachable.new c marker withHeader).run calls

end Session

end NotebookSlice
