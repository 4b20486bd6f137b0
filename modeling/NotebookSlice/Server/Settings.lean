import NotebookSlice.Slice.Program
import NotebookSlice.Text.Blank
import NotebookSlice.Value.Show

/-! # Server settings

Settings come from the environment, from the server's configuration and from
defaults, in this order of precedence.
-/

namespace NotebookSlice

/-- The variables of the environment, as far as they are set. -/
structure Environment where
  rules : Option String
  pureCalls : Option String
  marker : Option String
  header : Option String

/-- The settings in effect, by name. Names that mean nothing are kept. -/
structure Settings where
  entries : List (Value × Value)

namespace Settings

def defaults : Settings :=
  ⟨[(.text "rules_path", .null), (.text "include_pure_calls", .bool false),
    (.text "cell_marker", .text Program.defaultMarker), (.text "include_header", .bool true)]⟩

def set (s : Settings) (name value : Value) : Settings :=
  ⟨Value.insertEntry name value s.entries⟩

def getD (s : Settings) (name : String) : Value := (Value.map s.entries).getD name

/-- Overrides settings with those that are given and not `null`. -/
def override (s : Settings) (given : List (Value × Value)) : Settings :=
  given.foldl (fun s (name, value) => match value with
    | .null => s
    | v => s.set name v) s

/-- The words that switch something on, in any case and with blanks around. -/
def isOn (value : String) : Bool :=
  ["1", "true", "yes", "on"].contains
    (String.ofList ((Text.trim value.toList).map Char.toLower))

/-- Sets a name from a variable, unless that is missing or empty. -/
def setFrom (s : Settings) (name : String) (given : Option String) (value : String → Value) :
    Settings :=
  match given with
  | none | some "" => s
  | some v => s.set (.text name) (value v)

def withEnvironment (s : Settings) (e : Environment) : Settings :=
  (((s.setFrom "rules_path" e.rules .text).setFrom "include_pure_calls" e.pureCalls
    fun v => .bool (isOn v)).setFrom "cell_marker" e.marker .text).setFrom
      "include_header" e.header fun v => .bool (isOn v)

/-- The settings of a server with the given configuration and environment. -/
def make (given : List (Value × Value)) (e : Environment) : Settings :=
  (defaults.override given).withEnvironment e

def marker (s : Settings) : String :=
  let v := s.getD "cell_marker"
  if v.truthy then v.toText else Program.defaultMarker

def withHeader (s : Settings) : Bool := (s.getD "include_header").truthy

end Settings

end NotebookSlice
