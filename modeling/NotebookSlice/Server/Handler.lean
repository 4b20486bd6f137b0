import NotebookSlice.Notebook.History
import NotebookSlice.RuleFile
import NotebookSlice.Server.Address
import NotebookSlice.Server.Settings
import NotebookSlice.Session
import NotebookSlice.Slice.Report

/-! # Requests

A server keeps a session for each name that clients use. Requests record cells,
gather programs, drop sessions, and gather cells of saved notebooks.
-/

namespace NotebookSlice

/-- The sessions, in the order they began, and the configuration for new ones. -/
structure Server where
  settings : Settings
  configuration : Configuration
  sessions : List (Value × Session)

inductive RequestPath | log | gather | reset | notebook
  deriving DecidableEq, Repr

structure Response where
  status : Nat
  body : Value

/-- Why a request, or the start of the server, ends without a response. -/
inductive ServerError
  /-- something without members is asked for one -/
  | noMembers
  /-- the name of a session is no key -/
  | noKey
  | cell (e : CellError)
  | log (e : LogError)
  | slice (e : SliceError)
  | notebook (e : NotebookError)
  | rules (e : RuleFileError)

namespace Response

def ok (body : List (String × Value)) : Response := ⟨200, .object body⟩

def failed (status : Nat) (message : String) : Response :=
  ⟨status, .object [("error", .text message)]⟩

end Response

namespace Server

def start (files : Files) (given : List (Value × Value)) (e : Environment) :
    Except ServerError Server := do
  let settings := Settings.make given e
  let c ← (Configuration.load files (settings.getD "rules_path")
    (settings.getD "include_pure_calls").truthy).mapError .rules
  return ⟨settings, c, []⟩

def newSession (s : Server) : Session :=
  .new s.configuration s.settings.marker s.settings.withHeader

def session? (s : Server) (name : Value) : Option Session :=
  (s.sessions.find? (·.1.same name)).map (·.2)

def setSession (s : Server) (name : Value) (session : Session) : Server :=
  { s with sessions :=
      if s.sessions.any (·.1.same name) then
        s.sessions.map fun (n, old) => if n.same name then (n, session) else (n, old)
      else s.sessions ++ [(name, session)] }

/-- The members of a request's body; a body that counts as false has none. -/
def members (body : Value) : Except ServerError Value :=
  if !body.truthy then .ok (.map [])
  else match body with
    | .map es => .ok (.map es)
    | _ => .error .noMembers

def missingSession : Response := .failed 400 "missing 'session'"

/-- The cell of a request, or the response if it has none. -/
def requestCell (data : Value) : Except ServerError (Except Response Cell) :=
  match Cell.ofRequest (data.getD "cell") with
  | .ok cell => .ok (.ok cell)
  | .error e =>
    match e.message? with
    | some message => .ok (.error (.failed 400 message))
    | none => .error (.cell e)

/-- Records a cell in the session that is named, which begins with it if it is new. -/
def log (s : Server) (data now : Value) : Except ServerError (Server × Response) := do
  let name := data.getD "session"
  if !name.truthy then return (s, missingSession)
  match ← requestCell data with
  | .error response => return (s, response)
  | .ok cell =>
    if !name.isKey then throw .noKey
    let session := (s.session? name).getD s.newSession
    match session.post cell now with
    | .error e => return (s.setSession name session, .failed 400 e.message)
    | .ok (session, entry) =>
      let diagnostics := match entry with
        | none => []
        | some e => [("diagnostics", Value.list (e.diagnostics.map fun d =>
            .object [("line", .int d.line)]))]
      return (s.setSession name session,
        .ok ([("logged", .bool entry.isSome), ("log_length", .int session.log.entries.length)] ++
          diagnostics))

/-- The program of a cell, and the slices that it is made of. -/
def gather (s : Server) (data now : Value) : Except ServerError Response := do
  let name := data.getD "session"
  if name.truthy && !name.isKey then throw .noKey
  match ← requestCell data with
  | .error response => return response
  | .ok cell =>
    match if name.truthy then s.session? name else none with
    | none => return .ok [("code", .text ""), ("cells", .list [])]
    | some session =>
      let merged ← (session.gatherSlice cell now).mapError .slice
      let code ← (session.gatherCode cell now).mapError .slice
      let cells ← match merged with
        | none => pure []
        | some m => m.cellValues.mapError .slice
      return .ok [("code", .text code), ("cells", .list cells)]

def reset (s : Server) (data : Value) : Except ServerError (Server × Response) := do
  let name := data.getD "session"
  if !name.truthy then return (s, missingSession)
  if !name.isKey then throw .noKey
  return ({ s with sessions := s.sessions.filter fun e => !e.1.same name },
    .ok [("reset", .bool (s.session? name).isSome)])

def notebook (s : Server) (files : Files) (data now : Value) : Except ServerError Response := do
  let path := data.getD "notebook"
  let count := data.getD "execution_count"
  if !path.truthy || count.integer?.isNone then
    return .failed 400 "provide 'notebook' and integer 'execution_count'"
  match History.load files path with
  | .error e =>
    match e.message? with
    | some message => return .failed 400 ("cannot read notebook: " ++ message)
    | none => throw (.notebook e)
  | .ok history =>
    let session ← (s.newSession.postAll now history.cells).mapError .log
    match (history.cells.filter (·.count.same count)).getLast? with
    | none =>
      return .failed 404 ("no cell with execution count " ++ count.toText ++ " in " ++ path.toText)
    | some cell => return .ok [("code", .text (← (session.gatherCode cell now).mapError .slice))]

/-- Answers a request. A request that fails leaves the server as it is. -/
def handle (s : Server) (files : Files) (path : RequestPath) (body now : Value) :
    Except ServerError (Server × Response) := do
  let data ← members body
  match path with
  | .log => s.log data now
  | .gather => return (s, ← s.gather data now)
  | .reset => s.reset data
  | .notebook => return (s, ← s.notebook files data now)

end Server

end NotebookSlice
