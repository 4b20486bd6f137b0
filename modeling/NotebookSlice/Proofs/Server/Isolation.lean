import NotebookSlice.Proofs.Server.Table

/-! # Sessions are isolated

The requests about one session get the responses that they would get without all
the other ones.
-/

namespace NotebookSlice.Server

variable {s t : Server} {name : Value}

/-- A server that has the session of a name answers the requests about it like any other one that
has it, whatever happens in between. -/
theorem AgreesOn.transcript_eq (h : s.AgreesOn name t) (rs : List Request) :
    (s.transcript rs).filter (·.1.names name) = t.transcript (rs.filter (·.names name)) ∧
      (s.run rs).AgreesOn name (t.run (rs.filter (·.names name))) := by
  induction rs generalizing s t with
  | nil => exact ⟨rfl, h⟩
  | cons r rs ih =>
    cases hnames : r.names name with
    | true =>
      have hsession : s.AgreesOn r.session t := h.congr (Value.same_symm hnames)
      obtain ⟨htranscript, hrun⟩ := ih (hsession.after h)
      rw [transcript, List.filter_cons_of_pos (by simpa using hnames), htranscript,
        hsession.answer_eq, List.filter_cons_of_pos hnames, transcript]
      exact ⟨rfl, hrun⟩
    | false =>
      obtain ⟨htranscript, hrun⟩ := ih (h.after_of_not_names hnames)
      rw [transcript, List.filter_cons_of_neg (by simpa using hnames), htranscript,
        List.filter_cons_of_neg (by simpa using hnames)]
      exact ⟨rfl, hrun⟩

/-- Sessions are isolated. From a server without sessions, the requests about one session get just
the responses that they get when they are the only ones, and the session ends up the same. -/
theorem transcript_isolated (settings : Settings) (c : Configuration) (rs : List Request)
    (name : Value) :
    let start : Server := ⟨settings, c, []⟩
    let own := rs.filter (·.names name)
    (start.transcript rs).filter (·.1.names name) = start.transcript own ∧
      (start.run rs).session? name = (start.run own).session? name := by
  intro start own
  obtain ⟨htranscript, hrun⟩ := (AgreesOn.refl name start).transcript_eq rs
  exact ⟨htranscript, hrun.session⟩

end NotebookSlice.Server
