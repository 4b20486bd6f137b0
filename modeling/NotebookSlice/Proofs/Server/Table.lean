import NotebookSlice.Proofs.Value.Same
import NotebookSlice.Server.Handler

/-! # The table of sessions

What a request does to the sessions of a server. It answers from the session that
it names, if from any, and it changes no other one. Names are compared as values,
so equal names of different types stand for one session, and a name that differs
from itself never has any.
-/

namespace NotebookSlice

namespace Value

variable {a b c : Value}

theorem same_congr_left (h : same a b = true) : same a c = same b c :=
  Bool.eq_iff_iff.mpr ⟨same_trans (same_symm h), same_trans h⟩

theorem same_congr_right (h : same b c = true) : same a b = same a c :=
  Bool.eq_iff_iff.mpr ⟨fun hb => same_trans hb h, fun hc => same_trans hc (same_symm h)⟩

end Value

/-- What a client sends, and the files and the time when it is answered. -/
structure Request where
  path : RequestPath
  body : Value
  files : Files
  now : Value

namespace Request

/-- The name of the session that a request is about. -/
def session (r : Request) : Value := r.body.getD "session"

def names (name : Value) (r : Request) : Bool := r.session.same name

end Request

namespace Server

variable {s t : Server} {name other : Value} {r : Request}

/-! ## Looking up and setting -/

theorem session?_congr (h : name.same other = true) : s.session? name = s.session? other := by
  rw [session?, session?]
  exact congrArg _ (List.find?_congr fun e _ => Value.same_congr_right h)

theorem session?_setSession (s : Server) (name other : Value) (session : Session) :
    (s.setSession name session).session? other =
      if name.same other then some session else s.session? other := by
  rw [setSession, session?, session?]
  cases hany : s.sessions.any (·.1.same name) with
  | true =>
    have hfound : (s.sessions.map fun e => if e.1.same name then (e.1, session) else e).find?
          (·.1.same other) =
        (s.sessions.find? (·.1.same other)).map fun e =>
          if e.1.same name then (e.1, session) else e := by
      rw [List.find?_map]
      refine congrArg _ (List.find?_congr fun e _ => ?_)
      simp only [Function.comp_apply]
      split <;> rfl
    simp only [if_true, hfound, Option.map_map]
    cases hfind : s.sessions.find? (·.1.same other) with
    | some e =>
      have hsame : e.1.same other = true := by simpa using List.find?_some hfind
      have hname : e.1.same name = name.same other := by
        rw [Value.same_congr_left hsame]
        exact Bool.eq_iff_iff.mpr ⟨Value.same_symm, Value.same_symm⟩
      cases hother : name.same other <;> simp [hname, hother]
    | none =>
      obtain ⟨e, he, hsame⟩ := List.any_eq_true.mp hany
      have hnot := List.find?_eq_none.mp hfind e he
      simp [← Value.same_congr_left hsame, hnot]
  | false =>
    simp only [Bool.false_eq_true, if_false, List.find?_append]
    cases hother : name.same other with
    | true =>
      have hnone : s.sessions.find? (·.1.same other) = none := by
        rw [← List.find?_congr fun e _ => Value.same_congr_right hother]
        simpa using hany
      simp [hnone, hother]
    | false => simp [hother]

def drop (s : Server) (name : Value) : Server :=
  { s with sessions := s.sessions.filter fun e => !e.1.same name }

theorem session?_drop (s : Server) (name other : Value) :
    (s.drop name).session? other = if name.same other then none else s.session? other := by
  rw [drop, session?, session?, List.find?_filter]
  cases hother : name.same other with
  | true =>
    simp only [if_true, Option.map_eq_none_iff, List.find?_eq_none]
    intro e _
    simp [Value.same_congr_right hother]
  | false =>
    simp only [Bool.false_eq_true, if_false]
    refine congrArg _ (List.find?_congr fun e _ => ?_)
    cases hname : e.1.same name with
    | true => simp [Value.same_congr_left hname, hother]
    | false => simp

/-! ## Requests -/

/-- The server after a request, with the response to it. -/
def respond (s : Server) (r : Request) : Except ServerError (Server × Response) :=
  s.handle r.files r.path r.body r.now

/-- What a request can do to the session that it names. -/
inductive Change
  | keep
  | put (session : Session)
  | drop

def change (s : Server) (name : Value) : Change → Server
  | .keep => s
  | .put session => s.setSession name session
  | .drop => s.drop name

/-- The servers have the same settings, and the same session for a name. -/
structure AgreesOn (name : Value) (s t : Server) : Prop where
  settings : s.settings = t.settings
  configuration : s.configuration = t.configuration
  session : s.session? name = t.session? name

theorem getD_of_members {body data : Value} (h : members body = .ok data) (key : String) :
    data.getD key = body.getD key := by
  unfold members at h
  split at h
  · rename_i hfalse
    obtain rfl := Except.ok.inj h
    cases body with
    | map es =>
      cases es with
      | nil => rfl
      | cons e es => simp [Value.truthy] at hfalse
    | _ => rfl
  · cases body with
    | map es => rw [← Except.ok.inj h]
    | _ => cases h

/-- A session after a cell, with the response about it. -/
def posted (session : Session) (cell : Cell) (now : Value) : Session × Response :=
  match session.post cell now with
  | .error e => (session, .failed 400 e.message)
  | .ok (session, entry) => (session, .ok ([("logged", .bool entry.isSome),
      ("log_length", .int session.log.entries.length)] ++
      match entry with
      | none => []
      | some e => [("diagnostics", .list (e.diagnostics.map fun d =>
          .object [("line", .int d.line)]))]))

/-- The session that a name stands for; a new one if there is none. -/
def sessionOf (s : Server) (name : Value) : Session := (s.session? name).getD s.newSession

/-- What a request to record a cell does to the session of the name. -/
def logChange (session : Session) (name data now : Value) :
    Except ServerError (Change × Response) :=
  if name.truthy then
    match requestCell data with
    | .error e => .error e
    | .ok (.error response) => .ok (.keep, response)
    | .ok (.ok cell) =>
      if name.isKey then
        let (session, response) := posted session cell now
        .ok (.put session, response)
      else .error .noKey
  else .ok (.keep, missingSession)

theorem log_eq (s : Server) (data now : Value) :
    s.log data now = (logChange (s.sessionOf (data.getD "session")) (data.getD "session") data
      now).map fun (c, a) => (s.change (data.getD "session") c, a) := by
  simp only [log, logChange, sessionOf, bind, Except.bind]
  generalize data.getD "session" = name
  cases name.truthy with
  | false => rfl
  | true =>
    cases requestCell data with
    | error e => rfl
    | ok cell? =>
      cases cell? with
      | error response => rfl
      | ok cell =>
        cases name.isKey with
        | false => rfl
        | true =>
          simp only [posted, Bool.not_true, Bool.false_eq_true, if_true, if_false]
          cases ((s.session? name).getD s.newSession).post cell now with
          | error e => rfl
          | ok p => rfl

/-- What a request to drop the session of the name does. -/
def resetChange (session : Option Session) (name : Value) :
    Except ServerError (Change × Response) :=
  if name.truthy then
    if name.isKey then .ok (.drop, .ok [("reset", .bool session.isSome)]) else .error .noKey
  else .ok (.keep, missingSession)

theorem reset_eq (s : Server) (data : Value) :
    s.reset data = (resetChange (s.session? (data.getD "session")) (data.getD "session")).map
      fun (c, a) => (s.change (data.getD "session") c, a) := by
  simp only [reset, resetChange, bind, Except.bind]
  generalize data.getD "session" = name
  cases name.truthy with
  | false => rfl
  | true => cases name.isKey <;> rfl

/-- What a request does and how it is answered depends on the settings and on the session that it
names. -/
theorem exists_change (h : s.AgreesOn r.session t) : ∃ x : Except ServerError (Change × Response),
    s.respond r = x.map (fun (c, a) => (s.change r.session c, a)) ∧
      t.respond r = x.map (fun (c, a) => (t.change r.session c, a)) := by
  obtain ⟨path, body, files, now⟩ := r
  have hnew : s.newSession = t.newSession := by
    rw [newSession, newSession, h.settings, h.configuration]
  have hsession := h.session
  simp only [respond, handle, Request.session, bind, Except.bind] at hsession ⊢
  cases hdata : members body with
  | error e => exact ⟨.error e, rfl, rfl⟩
  | ok data =>
    rw [← getD_of_members hdata] at hsession ⊢
    cases path with
    | log =>
      refine ⟨_, s.log_eq data now, ?_⟩
      rw [sessionOf, hsession, hnew]
      exact t.log_eq data now
    | gather =>
      have hgather : s.gather data now = t.gather data now := by
        simp only [gather, hsession]
      refine ⟨(t.gather data now).map fun a => (.keep, a), ?_, ?_⟩
      · rw [← hgather]
        dsimp only
        cases s.gather data now <;> rfl
      · dsimp only
        cases t.gather data now <;> rfl
    | reset =>
      refine ⟨_, s.reset_eq data, ?_⟩
      rw [hsession]
      exact t.reset_eq data
    | notebook =>
      have hnotebook : s.notebook files data now = t.notebook files data now := by
        simp only [notebook, hnew]
      refine ⟨(t.notebook files data now).map fun a => (.keep, a), ?_, ?_⟩
      · rw [← hnotebook]
        dsimp only
        cases s.notebook files data now <;> rfl
      · dsimp only
        cases t.notebook files data now <;> rfl

/-- The server after a request. A request that fails leaves it as it is. -/
def after (s : Server) (r : Request) : Server :=
  match s.respond r with
  | .ok (t, _) => t
  | .error _ => s

/-- The response to a request, or why there is none. -/
def answer (s : Server) (r : Request) : Except ServerError Response := (s.respond r).map (·.2)

theorem exists_after (h : s.AgreesOn r.session t) :
    ∃ c, s.after r = s.change r.session c ∧ t.after r = t.change r.session c := by
  obtain ⟨x, hs, ht⟩ := exists_change h
  rw [after, after, hs, ht]
  cases x with
  | error e => exact ⟨.keep, rfl, rfl⟩
  | ok p => exact ⟨p.1, rfl, rfl⟩

theorem AgreesOn.refl (name : Value) (s : Server) : s.AgreesOn name s := ⟨rfl, rfl, rfl⟩

theorem AgreesOn.congr (h : s.AgreesOn name t) (hsame : name.same other = true) :
    s.AgreesOn other t :=
  ⟨h.settings, h.configuration, by rw [← session?_congr hsame, ← session?_congr hsame, h.session]⟩

/-- Servers that agree on the session of a request answer it alike. -/
theorem AgreesOn.answer_eq (h : s.AgreesOn r.session t) : s.answer r = t.answer r := by
  obtain ⟨x, hs, ht⟩ := exists_change h
  rw [answer, answer, hs, ht]
  cases x <;> rfl

theorem change_eq (s : Server) (name : Value) (c : Change) :
    (s.change name c).settings = s.settings ∧ (s.change name c).configuration = s.configuration := by
  cases c <;> exact ⟨rfl, rfl⟩

theorem session?_after (h : r.names name = false) : (s.after r).session? name = s.session? name := by
  obtain ⟨c, hafter, -⟩ := exists_after (AgreesOn.refl r.session s)
  rw [hafter]
  cases c with
  | keep => rfl
  | put session => simp [change, session?_setSession, show r.session.same name = false from h]
  | drop => simp [change, session?_drop, show r.session.same name = false from h]

theorem after_eq (s : Server) (r : Request) :
    (s.after r).settings = s.settings ∧ (s.after r).configuration = s.configuration := by
  obtain ⟨c, hafter, -⟩ := exists_after (AgreesOn.refl r.session s)
  rw [hafter]
  exact s.change_eq r.session c

theorem AgreesOn.after_of_not_names (h : s.AgreesOn name t) (hnot : r.names name = false) :
    (s.after r).AgreesOn name t where
  settings := (s.after_eq r).1.trans h.settings
  configuration := (s.after_eq r).2.trans h.configuration
  session := (session?_after hnot).trans h.session

/-- Servers that agree on the session of a request still agree after it wherever they did. -/
theorem AgreesOn.after (h : s.AgreesOn r.session t) (hname : s.AgreesOn name t) :
    (s.after r).AgreesOn name (t.after r) := by
  obtain ⟨c, hs, ht⟩ := exists_after h
  rw [hs, ht]
  refine ⟨?_, ?_, ?_⟩
  · rw [(change_eq ..).1, (change_eq ..).1, h.settings]
  · rw [(change_eq ..).2, (change_eq ..).2, h.configuration]
  · cases c with
    | keep => exact hname.session
    | put session => rw [change, change, session?_setSession, session?_setSession, hname.session]
    | drop => rw [change, change, session?_drop, session?_drop, hname.session]

/-! ## Runs -/

def run (s : Server) (rs : List Request) : Server := rs.foldl after s

/-- Requests in order, each with the response that it gets. -/
def transcript : Server → List Request → List (Request × Except ServerError Response)
  | _, [] => []
  | s, r :: rs => (r, s.answer r) :: (s.after r).transcript rs

@[simp] theorem run_nil : s.run [] = s := rfl

@[simp] theorem run_cons {rs : List Request} : s.run (r :: rs) = (s.after r).run rs := rfl

theorem run_append {rs more : List Request} : s.run (rs ++ more) = (s.run rs).run more :=
  List.foldl_append

end Server

end NotebookSlice
