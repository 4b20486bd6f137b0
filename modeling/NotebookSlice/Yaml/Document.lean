import NotebookSlice.Yaml.Node
import NotebookSlice.Yaml.Scalar
import NotebookSlice.Value.Order

/-! # YAML documents

The value of a document. Only the types of version 1.1 are built; merge keys
bring in the entries of other mappings.
-/

namespace NotebookSlice.Yaml

namespace Node

def isOpen : Option String → Bool
  | none => true
  | some t => t == "!"

def kind? : Node → Option Kind
  | scalar tag text plain =>
    match tag with
    | none => some (if plain then Scalar.kindOf text.toList else .str)
    | some t => if t == "!" then some (Scalar.kindOf text.toList) else Kind.ofTag? t
  | sequence tag _ => if isOpen tag then some .seq else tag.bind Kind.ofTag?
  | mapping tag _ => if isOpen tag then some .map else tag.bind Kind.ofTag?

def asText : Node → Node
  | scalar _ text _ => scalar none text false
  | n => n

/-- The entries that a merge key brings in: those of a mapping, or of several, the last first. -/
def merged : Node → Except ReadError (List (Node × Node))
  | mapping _ entries => .ok entries
  | sequence _ items => do
    let all ← items.mapM fun
      | mapping _ entries => .ok entries
      | _ => .error .malformed
    return all.reverse.flatten
  | _ => .error .malformed

def flatten : List (Node × Node) → Except ReadError (List (Node × Node) × List (Node × Node))
  | [] => .ok ([], [])
  | (key, value) :: rest =>
    match key.kind? with
    | some .merge => do
      let more ← merged value
      let (first, own) ← flatten rest
      return (more ++ first, own)
    | some .value => do
      let (first, own) ← flatten rest
      return (first, (key.asText, value) :: own)
    | _ => do
      let (first, own) ← flatten rest
      return (first, (key, value) :: own)

mutual

def expandMerges : Node → Except ReadError Node
  | scalar tag text plain => .ok (scalar tag text plain)
  | sequence tag items => do return sequence tag (← expandItems items)
  | mapping tag entries => do
    let (first, own) ← flatten (← expandEntries entries)
    return mapping tag (first ++ own)

def expandItems : List Node → Except ReadError (List Node)
  | [] => .ok []
  | n :: ns => do return (← expandMerges n) :: (← expandItems ns)

def expandEntries : List (Node × Node) → Except ReadError (List (Node × Node))
  | [] => .ok []
  | (k, v) :: es => do return (← expandMerges k, ← expandMerges v) :: (← expandEntries es)

end

private def asPair : Value → Except ReadError Value
  | .map [(k, v)] => .ok (.tuple [k, v])
  | _ => .error .malformed

mutual

def toValue : Node → Except ReadError Value
  | scalar tag text plain =>
    match kind? (scalar tag text plain) with
    | some k => Scalar.toValue k text
    | none => .error .malformed
  | sequence tag items => do
    match kind? (sequence tag items) with
    | some .seq => return .list (← itemValues items)
    | some .omap | some .pairs => return .list (← (← itemValues items).mapM asPair)
    | _ => .error .malformed
  | mapping tag entries => do
    match kind? (mapping tag entries) with
    | some .map => return .map (← entryValues [] entries)
    | some .set => return .set ((← entryValues [] entries).map (·.1))
    | _ => .error .malformed

def itemValues : List Node → Except ReadError (List Value)
  | [] => .ok []
  | n :: ns => do return (← toValue n) :: (← itemValues ns)

/-- The entries of a mapping; the last value of a repeated key stays, in the first one's place. -/
def entryValues (done : List (Value × Value)) :
    List (Node × Node) → Except ReadError (List (Value × Value))
  | [] => .ok done
  | (k, v) :: es => do
    let key ← toValue k
    if !key.isKey then throw .malformed
    entryValues (Value.insertEntry key (← toValue v) done) es

end

end Node

/-- The value of the only document in a text; `null` if there is none. -/
def ofText (text : List Char) : Except ReadError Value := do
  match ← Node.ofText? text with
  | none => return .null
  | some root => (← root.expandMerges).toValue

end NotebookSlice.Yaml
