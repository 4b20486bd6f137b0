import NotebookSlice.Value.Basic
import NotebookSlice.Text.Integer
import NotebookSlice.Text.Quoted

/-! # Files

Files as they are read: a text for each path, or the reason why there is none.
-/

namespace NotebookSlice

inductive FileError
  | missing (path : String)
  | directory (path : String)
  /-- a step of the path is a file, but not the last one -/
  | notDirectory (path : String)
  /-- the path holds a null character -/
  | nullCharacter
  /-- a number is given that is no open file -/
  | badDescriptor
  /-- what is given is no path -/
  | noPath
  deriving DecidableEq, Repr

namespace FileError

def message : FileError → String
  | missing path => "[Errno 2] No such file or directory: " ++ Text.quoted path
  | directory path => "[Errno 21] Is a directory: " ++ Text.quoted path
  | notDirectory path => "[Errno 20] Not a directory: " ++ Text.quoted path
  | nullCharacter => "embedded null byte"
  | badDescriptor => "[Errno 9] Bad file descriptor"
  | noPath => "expected a path"

end FileError

/-- The texts of files, and which paths can be written. -/
structure Files where
  read : String → Except FileError String
  canWrite : String → Except FileError Unit

namespace Files

/-- The text of a file, with every line end written as a line feed. -/
def text (files : Files) (path : Value) : Except FileError String :=
  match path with
  | .text p => (files.read p).map fun s => String.ofList (Text.unifyLineEnds s.toList)
  | .int _ | .bool _ => .error .badDescriptor
  | _ => .error .noPath

def steps (path : String) : List String :=
  let pieces := path.toList.foldr (fun c ps => match ps with
    | [] => [[c]]
    | p :: ps => if c == '/' then [] :: p :: ps else (c :: p) :: ps) [[]]
  (pieces.map String.ofList).filter fun p => p != "" && p != "."

/-- Does the path say of itself that it leads to a directory? -/
def endsInSlash (path : String) : Bool := path.toList.getLast? == some '/'

abbrev Tree := List (List String × String)

namespace Tree

def isDirectory (t : Tree) (p : List String) : Bool :=
  p.isEmpty || t.any fun (name, _) => p.isPrefixOf name && p.length < name.length

/-- Is a step of the path a file, though more steps follow? -/
def isBelowFile (t : Tree) (p : List String) : Bool :=
  t.any fun (name, _) => name.isPrefixOf p && name.length < p.length

def read (t : Tree) (path : String) : Except FileError String :=
  let p := steps path
  if path.contains '\x00' then .error .nullCharacter
  else if path == "" then .error (.missing path)
  else if t.isDirectory p then .error (.directory path)
  else if t.isBelowFile p then .error (.notDirectory path)
  else match t.lookup p with
    | some content => if endsInSlash path then .error (.notDirectory path) else .ok content
    | none => .error (.missing path)

def canWrite (t : Tree) (path : String) : Except FileError Unit :=
  let p := steps path
  if path.contains '\x00' then .error .nullCharacter
  else if path == "" then .error (.missing path)
  else if t.isDirectory p then .error (.directory path)
  else if t.isBelowFile p then .error (.notDirectory path)
  else if !t.isDirectory p.dropLast then .error (.missing path)
  else if endsInSlash path then .error (.directory path)
  else .ok ()

end Tree

/-- The given files in an otherwise empty directory. -/
def ofList (entries : List (String × String)) : Files :=
  let tree : Tree := entries.map fun (name, content) => (steps name, content)
  { read := tree.read, canWrite := tree.canWrite }

end Files

end NotebookSlice
