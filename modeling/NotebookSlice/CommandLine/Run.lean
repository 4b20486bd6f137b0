import NotebookSlice.CommandLine.Command
import NotebookSlice.Log.Export
import NotebookSlice.Notebook.History
import NotebookSlice.RuleFile
import NotebookSlice.Session

/-! # Running commands

A command replays the history of a notebook in a session, and prints or writes
what it was asked for.
-/

namespace NotebookSlice.CommandLine

inductive Content
  | text (s : String)
  | graph (g : ExportedGraph)

/-- How a program ends: well, with an exit code, or with a message. -/
inductive Exit
  | done
  | code (n : Nat)
  | message (s : String)
  deriving DecidableEq, Repr

/-- What a program prints, the file it writes, if any, and what it warns of. -/
structure Outcome where
  exit : Exit
  output : String
  written : Option (String × Content)
  warnings : List String

inductive Failure
  | rules (e : RuleFileError)
  | notebook (e : NotebookError)
  | log (e : LogError)
  | slice (e : SliceError)
  | output (e : FileError)

def Failure.message : Failure → String
  | rules (.file e) => e.message
  | rules (.yaml _) => "the rules cannot be read as YAML"
  | rules (.rule e) => e.message?.getD "a rule does not list what it spares"
  | notebook e => e.message?.getD "the notebook has parts that do not fit together"
  | log e => e.message
  | slice e => e.message?.getD "the slices cannot be put together"
  | output e => e.message

namespace Target

def fits (t : Target) (cell : Cell) : Bool :=
  match t with
  | .count n => cell.count.same (.int n)
  | .cell id => cell.id.same (.text id)

def shown : Target → String
  | .count n => "execution count " ++ toString n
  | .cell id => "id " ++ id

end Target

/-- What stands for the time of executions whose time is not known. -/
def noTime : Value := .null

/-- The session that a notebook records, and the notebook's history. -/
def replay (files : Files) (source : Source) (withHeader : Bool) (stack : Option Stack := none) :
    Except Failure (Session × History) := do
  let path : Value := match source.rules with
    | some p => .text p
    | none => .null
  let c ← (Configuration.load files path source.pureCalls).mapError .rules
  let history ← (History.load files (.text source.notebook)).mapError .notebook
  let s := Session.new c Program.defaultMarker withHeader
  let s ← (s.postAll noTime history.cells stack).mapError .log
  return (s, history)

namespace Command

def run (files : Files) (command : Command) (stack : Option Stack := none) :
    Except Failure Outcome :=
  match command with
  | .gather source target out withHeader => do
    let (s, history) ← replay files source withHeader stack
    let warnings := history.shared.map SharedCount.message
    match (history.cells.filter target.fits).getLast? with
    | none =>
      let message := "No executed cell with " ++ target.shown ++ " in " ++ source.notebook
      return ⟨.message message, "", none, warnings⟩
    | some cell =>
      let code ← (s.gatherCode cell noTime).mapError .slice
      match out with
      | none | some "" => return ⟨.done, code, none, warnings⟩
      | some path =>
        (files.canWrite path).mapError .output
        let note := "Gathered program written to " ++ path ++ "\n"
        return ⟨.done, note, some (path, .text code), warnings⟩
  | .graph source out => do
    let (s, history) ← replay files source true stack
    (files.canWrite out).mapError .output
    let note := "Dependency graph written to " ++ out ++ "\n"
    return ⟨.done, note, some (out, .graph (.ofLog s.log)),
      history.shared.map SharedCount.message⟩

end Command

/-- Runs the command that arguments ask for. Arguments that are not accepted give exit code 2. -/
def run (files : Files) (args : List String) (stack : Option Stack := none) :
    Except Failure Outcome :=
  match Command.ofArguments args with
  | .ok command => command.run files stack
  | .error .usage => .ok ⟨.code 2, "", none, []⟩
  | .error .help => .ok ⟨.code 0, "", none, []⟩

end NotebookSlice.CommandLine
