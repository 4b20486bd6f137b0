import NotebookSlice.Notebook.Basic
import NotebookSlice.Cell.Basic

/-! # The history in a notebook

The executed cells of a saved notebook in the order of their execution counts,
which is the closest record of the order they ran in.
-/

namespace NotebookSlice

/-- Two cells with one execution count, of which the first is kept. -/
structure SharedCount where
  first : String
  second : String
  count : Value

def SharedCount.message (s : SharedCount) : String :=
  "Cells " ++ s.first ++ " and " ++ s.second ++ " share execution count " ++ s.count.toText ++
    "; keeping the first"

/-- The executed cells, by count, and what was left out. -/
structure History where
  cells : List Cell
  shared : List SharedCount

namespace History

/-- The id of the cell at an index: its own, or that of its metadata, or its place. -/
def cellId (cell : Value) (index : Nat) : Except NotebookError String := do
  let own := cell.getD "id"
  let id ←
    if own.truthy then pure own
    else match cell.getD "metadata" with
      | .map entries => pure (Value.getD "id" (.map entries))
      | v => if v.truthy then throw .noMembers else pure .null
  return if id.truthy then id.toText else "cell-" ++ toString index

/-- The code of a cell without blanks at the ends of its lines and of the whole. -/
def codeOf (cell : Value) : Except NotebookError String := do
  let source ← match cell.get? "source" with
    | none => throw .noMembers
    | some (.text s) => pure s
    | some v => if v.truthy then throw .noMembers else pure ""
  let lines := (Text.splitLines source.toList).map Text.trimEnd
  return String.ofList (Text.trimEnd ((Text.unlines (lines.map String.ofList)).toList))

def countOf (count : Value) : Except NotebookError Int :=
  match count with
  | .float x =>
    match Decimal.partsOf x with
    | .nan => .error (.badCount count)
    | .infinite _ => .error .infiniteCount
    | .zero _ => .ok 0
    | .finite negative v =>
      let n : Int := v.floor
      .ok (if negative then -n else n)
  | .text s =>
    match Text.integer? s.toList with
    | some n => .ok n
    | none => .error (.badCount count)
  | v =>
    match v.integer? with
    | some n => .ok n
    | none => .error .wrongType

def hasFailed (outputs : List Value) : Bool :=
  outputs.any fun o => (o.getD "output_type").same (.text "error")

/-- The outputs of a cell; none if they are not a list. -/
def outputsOf (cell : Value) : List Value :=
  match cell.getD "outputs" with
  | .list vs => vs
  | _ => []

/-- The executed cell that a notebook's cell records. -/
def cellOf (id text : String) (count : Value) (cell : Value) : Except NotebookError Cell := do
  let outputs := outputsOf cell
  let event := id ++ ":" ++ count.toText
  return Cell.make (.text id) text (.int (← countOf count)) (.text event) (.text id)
    (.bool (hasFailed outputs)) (.list outputs)

/-- The executed cells from an index on; `seen` holds the counts so far and the cells with them. -/
def collect (index : Nat) (seen : List (Value × String)) :
    List Value → Except NotebookError (List Cell × List SharedCount)
  | [] => .ok ([], [])
  | cell :: cells => do
    if (cell.get? "cell_type").isNone then throw .noMembers
    if !Notebook.isCode cell then return ← collect (index + 1) seen cells
    let count := cell.getD "execution_count"
    let text ← codeOf cell
    let executed := match count with
      | .null => false
      | _ => !Text.allBlank text.toList
    if !executed then return ← collect (index + 1) seen cells
    let id ← cellId cell index
    if !count.isKey then throw .wrongType
    match seen.find? (·.1.same count) with
    | some (_, first) =>
      let (found, shared) ← collect (index + 1) seen cells
      return (found, ⟨first, id, count⟩ :: shared)
    | none =>
      let found ← cellOf id text count cell
      let (more, shared) ← collect (index + 1) ((count, id) :: seen) cells
      return (found :: more, shared)

/-- Is the count of one cell at most that of another? -/
def countLE (a b : Cell) : Bool := a.count.rank.le b.count.rank

/-- The history in the text of a notebook, of which a reader gives the cells. -/
def ofText (text : String)
    (read : String → Except NotebookError (List Value) := Notebook.ofText) :
    Except NotebookError History := do
  let (cells, shared) ← collect 0 [] (← read text)
  return ⟨cells.mergeSort countLE, shared⟩

def load (files : Files) (path : Value) : Except NotebookError History := do
  ofText (← (files.text path).mapError .file)

end History

end NotebookSlice
