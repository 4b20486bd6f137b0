import NotebookSlice.CommandLine.Arguments
import NotebookSlice.Text.Integer

/-! # Commands

What the command line asks for: the program of a cell of a notebook, or the
dependency graph of all its statements.
-/

namespace NotebookSlice.CommandLine

/-- How the cell is named whose program is gathered. -/
inductive Target
  | count (n : Int)
  | cell (id : String)
  deriving DecidableEq, Repr

structure Source where
  notebook : String
  rules : Option String
  pureCalls : Bool
  deriving DecidableEq, Repr

inductive Command
  | gather (source : Source) (target : Target) (out : Option String) (withHeader : Bool)
  | graph (source : Source) (out : String)
  deriving DecidableEq, Repr

def helpOption : Switch := ⟨["-h", "--help"], false⟩

def mainOptions : List Switch := [helpOption, ⟨["-v", "--verbose"], false⟩]

def sourceOptions : List Switch := [helpOption, ⟨["--rules"], true⟩, ⟨["--pure-calls"], false⟩]

def hasTaken (name : String) (taken : List (String × String)) : Bool := taken.any (·.1 == name)

/-- The cell is named by its count or by its id but not by both, and counts are integers. -/
def gatherGrammar : Grammar where
  options := sourceOptions ++
    [⟨["--count"], true⟩, ⟨["--cell"], true⟩, ⟨["--out"], true⟩, ⟨["--no-header"], false⟩]
  accepts taken name value :=
    if name == "--count" then
      (Text.integer? value.toList).isSome && !hasTaken "--cell" taken
    else if name == "--cell" then !hasTaken "--count" taken
    else true

def graphGrammar : Grammar where
  options := sourceOptions ++ [⟨["--out"], true⟩]
  accepts _ _ _ := true

namespace Parsed

def value? (p : Parsed) (name : String) : Option String :=
  (p.options.reverse.find? (·.1 == name)).map (·.2)

def has (p : Parsed) (name : String) : Bool := (p.value? name).isSome

def source (p : Parsed) : Except Refusal Source :=
  match p.positional with
  | none => .error .usage
  | some notebook =>
    if p.extra.isEmpty then .ok ⟨notebook, p.value? "--rules", p.has "--pure-calls"⟩
    else .error .usage

def target (p : Parsed) : Except Refusal Target :=
  match (p.value? "--count").bind fun n => Text.integer? n.toList, p.value? "--cell" with
  | some n, _ => .ok (.count n)
  | none, some id => .ok (.cell id)
  | none, none => .error .usage

end Parsed

namespace Command

def usage : String :=
  "usage: notebook-slice [-v] gather NOTEBOOK (--count N | --cell ID)\n" ++
  "           [--out FILE] [--no-header]\n" ++
  "       notebook-slice [-v] graph NOTEBOOK --out FILE\n" ++
  "both with [--rules FILE] [--pure-calls]\n"

def inputs : Command → List String
  | .gather source _ _ _ | .graph source _ => source.notebook :: source.rules.toList

def parseGather (args : List String) : Except Refusal Command := do
  let p ← gatherGrammar.parse args
  return .gather (← p.source) (← p.target) (p.value? "--out") (!p.has "--no-header")

def parseGraph (args : List String) : Except Refusal Command := do
  let p ← graphGrammar.parse args
  match p.value? "--out" with
  | none => .error .usage
  | some out => return .graph (← p.source) out

private def named (name : String) (args : List String) : Except Refusal Command :=
  if name == "gather" then parseGather args
  else if name == "graph" then parseGraph args
  else .error .usage

/-- Reads the options before the command's name, and then the command. Options that are not known
are refused only after the command has been read. -/
def parseFrom (shaped : List (String × Shape)) (known : Bool) : Except Refusal Command :=
  match shaped with
  | [] => .error .usage
  | (name, .word) :: rest => do
    let command ← named name (rest.map (·.1))
    if known then return command else .error .usage
  | (_, .separator) :: _ => .error .usage
  | (_, .switch none _ _) :: rest => parseFrom rest false
  | (a, .switch (some o) spelling value) :: rest => do
    let found ← match value with
      | some value => together mainOptions a.length o spelling value
      | none => pure [(o.name, "")]
    if found.any (·.1 == "--help") then .error .help
    parseFrom rest known

def ofArguments (args : List String) : Except Refusal Command := do
  parseFrom (← shapes mainOptions args) true

end Command

end NotebookSlice.CommandLine
