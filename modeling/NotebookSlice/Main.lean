import NotebookSlice.CommandLine.Run
import NotebookSlice.Log.GraphMl

/-! # The program

Reads the files that a command needs, runs it, and writes what comes of it.
-/

namespace NotebookSlice.CommandLine

/-- The text of a file; one that cannot be read counts as missing. -/
def readFile (path : String) : IO (Except FileError String) := do
  try
    return .ok (← IO.FS.readFile path)
  catch _ =>
    return .error (.missing path)

/-- The texts of the given files. Whether a path can be written shows only when it is. -/
def readFiles (paths : List String) : IO Files := do
  let texts ← paths.mapM fun path => do return (path, ← readFile path)
  return {
    read := fun path => (texts.lookup path).getD (.error (.missing path))
    canWrite := fun _ => .ok () }

def Content.toText : Content → String
  | .text s => s
  | .graph g => GraphMl.document g

/-- Writes the file of an outcome, then prints its output. -/
def deliver (o : Outcome) : IO UInt32 := do
  for warning in o.warnings do
    IO.eprintln warning
  match o.written with
  | some (path, content) => IO.FS.writeFile path content.toText
  | none => pure ()
  IO.print o.output
  match o.exit with
  | .done => return 0
  | .code 0 =>
    IO.print Command.usage
    return 0
  | .code n =>
    IO.eprint Command.usage
    return n.toUInt32
  | .message s =>
    IO.eprintln s
    return 1

/-- Runs the command that arguments ask for on the files that it names. -/
def execute (args : List String) : IO UInt32 := do
  let files ← match Command.ofArguments args with
    | .ok command => readFiles command.inputs
    | .error _ => readFiles []
  match run files args (some .default) with
  | .ok outcome => deliver outcome
  | .error e =>
    IO.eprintln e.message
    return 1

end NotebookSlice.CommandLine

def main (args : List String) : IO UInt32 := NotebookSlice.CommandLine.execute args
