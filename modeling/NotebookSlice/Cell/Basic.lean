import NotebookSlice.Value.Order
import NotebookSlice.Value.Show
import NotebookSlice.Text.Blank
import NotebookSlice.Text.Lines

/-! # Cells

A cell is one executed piece of code. Its ids and its count are kept as the
notebook gave them.
-/

namespace NotebookSlice

/-- An executed cell. The event id names the execution, the persistent id the cell. -/
structure Cell where
  id : Value
  text : String
  count : Value
  event : Value
  persistent : Value
  failed : Value
  outputs : Value

inductive CellError
  /-- the code is given, but not as a text -/
  | noText
  /-- the code is given as a list of something else than texts -/
  | noTexts
  /-- no map of properties -/
  | noObject
  | noId
  | noCount
  deriving DecidableEq, Repr

namespace CellError

def message? : CellError → Option String
  | noText | noTexts => none
  | noObject => some "missing 'cell' object"
  | noId => some "cell needs an 'id'"
  | noCount => some "cell needs an integer 'execution_count'"

end CellError

namespace Cell

/-- Without an event id or a persistent id the cell's own id stands in. -/
def make (id : Value) (text : String) (count event persistent failed outputs : Value) : Cell where
  id := id
  text := text
  count := count
  event := if event.truthy then event else id
  persistent := if persistent.truthy then persistent else id
  failed := failed
  outputs := match outputs with
    | .null => .list []
    | v => v

/-- The code that a value gives: nothing if it counts as false. -/
def codeOf : Value → Except CellError String
  | .text s => .ok s
  | v => if v.truthy then .error .noText else .ok ""

/-- A cell from its properties, all of which may be missing. -/
def ofProperties (v : Value) : Except CellError Cell := do
  let text ← codeOf (v.getD "text")
  return make (v.getD "id") text (v.getD "execution_count") (v.getD "execution_event_id")
    (v.getD "persistent_id") ((v.get? "has_error").getD (.bool false)) (v.getD "outputs")

def joined : List Value → Except CellError String
  | [] => .ok ""
  | .text s :: vs => do return s ++ (← joined vs)
  | _ :: _ => .error .noTexts

/-- The code in a request: the text, or else the source, which may be a list of texts. -/
def requestCode (v : Value) : Except CellError String :=
  match v.getD "text" with
  | .text s => .ok s
  | .null =>
    match v.getD "source" with
    | .text s => .ok s
    | .list vs => joined vs
    | source => .ok (if source.truthy then source.toText else "")
  | _ => .error .noText

def ofRequest (v : Value) : Except CellError Cell := do
  match v with
  | .map _ =>
    let id := v.getD "id"
    if !id.truthy then throw .noId
    match v.getD "execution_count" with
    | .int n =>
      let code ← requestCode v
      return make (.text id.toText) (String.ofList (Text.trimEnd code.toList)) (.int n)
        (v.getD "execution_event_id") (v.getD "persistent_id")
        (.bool (v.getD "has_error").truthy) (v.getD "outputs")
    | _ => throw .noCount
  | _ => throw .noObject

def lines (c : Cell) : List String := Text.lines c.text

def hasFailed (c : Cell) : Bool := c.failed.truthy

def shown (c : Cell) : String :=
  "Cell(id=" ++ c.id.shown ++ ", execution_count=" ++ c.count.shown ++
    ", execution_event_id=" ++ c.event.shown ++ ")"

end Cell

end NotebookSlice
