import NotebookSlice.Proofs.Log.Settled
import NotebookSlice.Proofs.Server.Table

/-! # Requests can be sent again

A request to record a cell settles the cell in its session, be it recorded, skipped
or refused. Only dropping the session undoes this. So the same request changes
nothing when it comes again.
-/

namespace NotebookSlice

/-- The cell that a session of the name takes note of. -/
def Server.cellFor? (name data : Value) : Option Cell :=
  if name.truthy && name.isKey then
    match requestCell data with
    | .ok (.ok cell) => some cell
    | _ => none
  else none

/-- The cell that a request is about, if it has one and names a session. -/
def Request.cell? (r : Request) : Option Cell :=
  match Server.members r.body with
  | .ok data => Server.cellFor? r.session data
  | .error _ => none

def Request.drops (name : Value) (r : Request) : Bool := r.path = .reset && r.names name

namespace Server

variable {s : Server} {r q : Request} {name : Value} {session : Session} {cell : Cell}

theorem change_of_logChange (s : Server) (name data now : Value) :
    (match logChange (s.sessionOf name) name data now with
      | .ok (c, _) => s.change name c
      | .error _ => s) =
      match cellFor? name data with
      | some cell => s.setSession name (posted (s.sessionOf name) cell now).1
      | none => s := by
  unfold logChange cellFor?
  cases name.truthy with
  | false => rfl
  | true =>
    cases requestCell data with
    | error e => cases name.isKey <;> rfl
    | ok cell? => cases cell? <;> cases name.isKey <;> rfl

theorem after_of_log (h : r.path = .log) (s : Server) : s.after r =
    match r.cell? with
    | some cell => s.setSession r.session (posted (s.sessionOf r.session) cell r.now).1
    | none => s := by
  obtain ⟨path, body, files, now⟩ := r
  subst h
  simp only [after, respond, handle, Request.cell?, bind, Except.bind]
  cases hdata : members body with
  | error e => rfl
  | ok data =>
    simp only [log_eq, getD_of_members hdata, Request.session, ← change_of_logChange]
    cases logChange (s.sessionOf (body.getD "session")) (body.getD "session") data now <;> rfl

theorem after_of_reset (h : r.path = .reset) (s : Server) :
    s.after r = s ∨ s.after r = s.drop r.session := by
  obtain ⟨path, body, files, now⟩ := r
  subst h
  simp only [after, respond, handle, bind, Except.bind]
  cases hdata : members body with
  | error e => exact Or.inl rfl
  | ok data =>
    simp only [reset_eq, getD_of_members hdata, Request.session]
    generalize body.getD "session" = name
    unfold resetChange
    cases name.truthy with
    | false => exact Or.inl rfl
    | true =>
      cases name.isKey with
      | false => exact Or.inl rfl
      | true => exact Or.inr rfl

theorem after_of_read (h : r.path = .gather ∨ r.path = .notebook) (s : Server) : s.after r = s := by
  obtain ⟨path, body, files, now⟩ := r
  simp only [after, respond, handle, bind, Except.bind]
  cases members body with
  | error e => rfl
  | ok data =>
    rcases h with rfl | rfl
    · dsimp only
      cases s.gather data now <;> rfl
    · dsimp only
      cases s.notebook files data now <;> rfl

/-! ## The session of a request -/

theorem posted_cases (session : Session) (cell : Cell) (now : Value) :
    ((posted session cell now).1 = session ∧ ∃ e, session.post cell now = .error e) ∨
      ∃ o, session.post cell now = .ok ((posted session cell now).1, o) := by
  rw [posted]
  cases session.post cell now with
  | error e => exact Or.inl ⟨rfl, e, rfl⟩
  | ok p => exact Or.inr ⟨p.2, rfl⟩

theorem settles_posted (session : Session) (cell : Cell) (now : Value) :
    (posted session cell now).1.log.Settles cell := by
  rcases posted_cases session cell now with ⟨heq, e, hpost⟩ | ⟨o, hpost⟩
  · rw [heq]
    exact Session.settles_of_post_error hpost
  · exact Session.settles_of_post_ok hpost

theorem reachable_posted (h : session.Reachable) (cell : Cell) (now : Value) :
    (posted session cell now).1.Reachable := by
  rcases posted_cases session cell now with ⟨heq, -⟩ | ⟨o, hpost⟩
  · rwa [heq]
  · exact h.post hpost

theorem entries_subset_posted (session : Session) (cell : Cell) (now : Value) :
    session.log.entries ⊆ (posted session cell now).1.log.entries := by
  rcases posted_cases session cell now with ⟨heq, -⟩ | ⟨o, hpost⟩
  · rw [heq]
    exact List.Subset.refl _
  · rcases Session.post_eq_ok hpost with ⟨heq, -⟩ | ⟨e, -, hrecord⟩
    · rw [heq]
      exact List.Subset.refl _
    · rw [(Log.entries_of_record (Session.log_of_record hrecord)).1]
      exact List.subset_append_left ..

theorem posted_eq_of_settles (h : session.Reachable) (hsettles : session.log.Settles cell)
    (now : Value) : (posted session cell now).1 = session := by
  rcases posted_cases session cell now with ⟨heq, -⟩ | ⟨o, hpost⟩
  · exact heq
  · exact Session.eq_of_settles h.log.sound hsettles hpost

/-! ## Servers -/

/-- The sessions of the server are what requests lead to. -/
def Sound (s : Server) : Prop := ∀ name session, s.session? name = some session → session.Reachable

theorem sound_start (settings : Settings) (c : Configuration) :
    (⟨settings, c, []⟩ : Server).Sound := by
  intro name session h
  cases h

namespace Sound

variable (hs : s.Sound)
include hs

theorem sessionOf (name : Value) : (s.sessionOf name).Reachable := by
  rw [Server.sessionOf]
  cases hsession : s.session? name with
  | none => exact .new _ _ _
  | some session => exact hs name session hsession

theorem after (r : Request) : (s.after r).Sound := by
  intro name session h
  cases hnames : r.names name with
  | false => exact hs name session (session?_after hnames ▸ h)
  | true =>
    cases hpath : r.path with
    | log =>
      rw [after_of_log hpath] at h
      cases hcell : r.cell? with
      | none => exact hs name session (by simpa [hcell] using h)
      | some cell =>
        simp only [hcell, session?_setSession, show r.session.same name = true from hnames,
          if_true, Option.some.injEq] at h
        exact h ▸ reachable_posted (hs.sessionOf _) cell r.now
    | gather => exact hs name session (after_of_read (Or.inl hpath) s ▸ h)
    | notebook => exact hs name session (after_of_read (Or.inr hpath) s ▸ h)
    | reset =>
      rcases after_of_reset hpath s with heq | heq
      · exact hs name session (heq ▸ h)
      · simp [heq, session?_drop, show r.session.same name = true from hnames] at h

theorem run (rs : List Request) : (s.run rs).Sound :=
  List.foldlRecOn rs _ hs fun _ ih r _ => ih.after r

end Sound

theorem exists_session?_after (h : s.session? name = some session)
    (hkeep : r.drops name = false) : ∃ session', (s.after r).session? name = some session' ∧
      session.log.entries ⊆ session'.log.entries := by
  have hsame (heq : (s.after r).session? name = s.session? name) : ∃ session',
      (s.after r).session? name = some session' ∧ session.log.entries ⊆ session'.log.entries :=
    ⟨session, heq.trans h, List.Subset.refl _⟩
  cases hnames : r.names name with
  | false => exact hsame (session?_after hnames)
  | true =>
    have hsession : s.session? r.session = some session := (session?_congr hnames).trans h
    cases hpath : r.path with
    | log =>
      cases hcell : r.cell? with
      | none => exact hsame (by rw [after_of_log hpath, hcell])
      | some cell =>
        refine ⟨(posted (s.sessionOf r.session) cell r.now).1, ?_, ?_⟩
        · simp only [after_of_log hpath, hcell, session?_setSession,
            show r.session.same name = true from hnames, if_true]
        · rw [sessionOf, hsession]
          exact entries_subset_posted session cell r.now
    | gather => exact hsame (by rw [after_of_read (Or.inl hpath)])
    | notebook => exact hsame (by rw [after_of_read (Or.inr hpath)])
    | reset => simp [Request.drops, hpath, hnames] at hkeep

/-- The session of a request settles its cell. A name that differs from itself has no session. -/
def Settled (s : Server) (r : Request) : Prop :=
  ∀ cell, r.cell? = some cell → r.session.same r.session = true →
    ∃ session, s.session? r.session = some session ∧ session.log.Settles cell

theorem settled_after (h : r.path = .log) (s : Server) : (s.after r).Settled r := by
  intro cell hcell hself
  rw [after_of_log h, hcell]
  exact ⟨_, by rw [session?_setSession, if_pos hself], settles_posted ..⟩

theorem Settled.after (h : s.Settled r) (hkeep : q.drops r.session = false) :
    (s.after q).Settled r := by
  intro cell hcell hself
  obtain ⟨session, hsession, hsettles⟩ := h cell hcell hself
  obtain ⟨session', hsession', hsub⟩ := exists_session?_after hsession hkeep
  exact ⟨session', hsession', hsettles.mono hsub⟩

theorem Settled.run (h : s.Settled r) {rs : List Request}
    (hkeep : ∀ q ∈ rs, q.drops r.session = false) : (s.run rs).Settled r :=
  List.foldlRecOn rs _ (motive := fun t : Server => t.Settled r) h fun _ ih q hq =>
    Settled.after ih (hkeep q hq)

theorem Settled.session?_after (hs : s.Sound) (h : s.Settled r) (hlog : r.path = .log)
    (name : Value) : (s.after r).session? name = s.session? name := by
  rw [after_of_log hlog]
  cases hcell : r.cell? with
  | none => rfl
  | some cell =>
    simp only [session?_setSession]
    split
    · rename_i hname
      have hself := Value.same_trans hname (Value.same_symm hname)
      obtain ⟨session, hsession, hsettles⟩ := h cell hcell hself
      rw [sessionOf, hsession, Option.getD_some, ← session?_congr hname, hsession,
        posted_eq_of_settles (hs _ _ hsession) hsettles]
    · rfl

theorem transcript_congr {t : Server} (h : ∀ name, s.AgreesOn name t) (rs : List Request) :
    s.transcript rs = t.transcript rs := by
  induction rs generalizing s t with
  | nil => rfl
  | cons r rs ih =>
    rw [transcript, transcript, (h r.session).answer_eq,
      ih fun name => (h r.session).after (h name)]

/-- A request to record a cell can be sent again. However it was processed, and whatever other
requests came after it, as long as they do not drop its session: the same request changes no
session when it comes again, and all later requests are answered as if it had not come. -/
theorem unchanged_by_repeated_log (settings : Settings) (c : Configuration)
    (before between : List Request) {r again : Request} (hlog : r.path = .log)
    (hpath : again.path = r.path) (hbody : again.body = r.body)
    (hkeep : ∀ q ∈ between, q.drops r.session = false) :
    let s := (⟨settings, c, []⟩ : Server).run (before ++ r :: between)
    (∀ name, (s.after again).session? name = s.session? name) ∧
      ∀ later, (s.after again).transcript later = s.transcript later := by
  intro s
  have hs : s.Sound := (sound_start settings c).run _
  have hsettled : s.Settled r := by
    have hrun : s = (((⟨settings, c, []⟩ : Server).run before).after r).run between := run_append
    rw [hrun]
    exact (settled_after hlog _).run hkeep
  have hagain : s.Settled again := by
    unfold Settled Request.cell? Request.session at hsettled ⊢
    rwa [hbody]
  have hsession := hagain.session?_after hs (hpath.trans hlog)
  exact ⟨hsession, transcript_congr fun name =>
    ⟨(s.after_eq again).1, (s.after_eq again).2, hsession name⟩⟩

/-- A request to record a cell that is known by its count. -/
def recording (name : String) (count : ℕ) (text : String) : Request where
  path := .log
  body := .object [("session", .text name), ("cell", .object [("id", .text (toString count)),
    ("execution_count", .int count), ("text", .text text)])]
  files := ⟨fun path => .error (.missing path), fun path => .error (.missing path)⟩
  now := .null

/-- The first request comes again when its count has long been overtaken. -/
theorem unchanged_by_repeated_log_overtaken :
    let r := recording "s" 1 "x = 1"
    let s := (⟨.defaults, .empty, []⟩ : Server).run
      ([] ++ r :: [recording "s" 2 "print(x)", recording "t" 1 "x = 2"])
    (s.session? (.text "s")).map (fun session => session.log.entries.length) = some 2 ∧
      (∀ name, (s.after r).session? name = s.session? name) ∧
      ∀ later, (s.after r).transcript later = s.transcript later :=
  ⟨by decide +kernel, unchanged_by_repeated_log .defaults .empty [] [_, _] rfl rfl rfl
    (by decide +kernel)⟩

end Server

end NotebookSlice
