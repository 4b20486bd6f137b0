import NotebookSlice.Yaml.Scanner

/-! # YAML nodes

From tokens to the tree of one document. Aliases stand for the nodes that their
anchors name, and tags are spelled out.
-/

namespace NotebookSlice.Yaml

/-- A node with its tag, if it has one. The tag `!` asks for the type that the text suggests. -/
inductive Node
  | scalar (tag : Option String) (text : String) (plain : Bool)
  | sequence (tag : Option String) (items : List Node)
  | mapping (tag : Option String) (entries : List (Node × Node))
  deriving Inhabited

namespace Node

def empty : Node := .scalar none "" true

structure Reader where
  tokens : List Token
  handles : List (String × String)
  anchors : List (String × Node)
  /-- the anchors that occurred, those of unfinished nodes included -/
  used : List String

abbrev Read := StateT Reader (Except ReadError)

namespace Read

def fail {α : Type} : Read α := throw .malformed

def peek : Read Token := return (← get).tokens.headD .streamEnd

def skip : Read Unit := modify fun s => { s with tokens := s.tokens.tail }

def expect (t : Token) : Read Unit := do
  if (← peek) == t then skip else fail

def defaultHandles : List (String × String) := [("!", "!"), ("!!", "tag:yaml.org,2002:")]

def tagName (handle : Option String) (suffix : String) : Read String := do
  match handle with
  | none => return suffix
  | some handle =>
    match (← get).handles.lookup handle with
    | none => fail
    | some stem => return stem ++ suffix

def properties : Read (Option String × Option String) := do
  match ← peek with
  | .anchor a =>
    skip
    match ← peek with
    | .tag h s =>
      skip
      return (some a, some (← tagName h s))
    | _ => return (some a, none)
  | .tag h s =>
    skip
    let tag ← tagName h s
    match ← peek with
    | .anchor a =>
      skip
      return (some a, some tag)
    | _ => return (none, some tag)
  | _ => return (none, none)

def useAnchor : Option String → Read Unit
  | none => return
  | some a => do
    if (← get).used.contains a then fail
    modify fun s => { s with used := a :: s.used }

def bindAnchor (anchor : Option String) (n : Node) : Read Unit :=
  match anchor with
  | none => return
  | some a => modify fun s => { s with anchors := (a, n) :: s.anchors }

/-- Where a node stands: in a flow collection, in a block, or after a key or a colon of a block,
where a sequence need not be indented. -/
inductive Place | flow | block | value
  deriving DecidableEq

mutual

def node (place : Place) : Nat → Read Node
  | 0 => fail
  | fuel + 1 => do
    match ← peek with
    | .alias name =>
      skip
      match (← get).anchors.lookup name with
      | some n => return n
      | none => fail
    | _ =>
      let (anchor, tag) ← properties
      useAnchor anchor
      let n ← content place anchor.isSome tag fuel
      bindAnchor anchor n
      return n

/-- A node after its properties, with which it may be left out. -/
def content (place : Place) (hasAnchor : Bool) (tag : Option String) : Nat → Read Node
  | 0 => fail
  | fuel + 1 => do
    let inBlock := place != .flow
    match ← peek, inBlock, place == .value with
    | .entry, _, true => return .sequence tag (← looseEntries fuel)
    | .scalar text plain, _, _ =>
      skip
      return .scalar tag text plain
    | .sequenceStart, _, _ =>
      skip
      return .sequence tag (← flowItems true fuel)
    | .mappingStart, _, _ =>
      skip
      return .mapping tag (← flowEntries true fuel)
    | .blockSequence, true, _ =>
      skip
      return .sequence tag (← blockItems fuel)
    | .blockMapping, true, _ =>
      skip
      return .mapping tag (← blockEntries fuel)
    | _, _, _ => if hasAnchor || tag.isSome then return .scalar tag "" (tag.isNone) else fail

/-- A node, unless one of the given tokens stands here. -/
def nodeUnless (ends : List Token) (place : Place) : Nat → Read Node
  | 0 => fail
  | fuel + 1 => do if ends.contains (← peek) then return Node.empty else node place fuel

def blockItems : Nat → Read (List Node)
  | 0 => fail
  | fuel + 1 => do
    match ← peek with
    | .entry =>
      skip
      let item ← nodeUnless [.entry, .blockEnd] .block fuel
      return item :: (← blockItems fuel)
    | _ =>
      expect .blockEnd
      return []

def looseEntries : Nat → Read (List Node)
  | 0 => fail
  | fuel + 1 => do
    match ← peek with
    | .entry =>
      skip
      let item ← nodeUnless [.entry, .key, .value, .blockEnd] .block fuel
      return item :: (← looseEntries fuel)
    | _ => return []

/-- The entries of a block mapping; keys and values may be missing. -/
def blockEntries : Nat → Read (List (Node × Node))
  | 0 => fail
  | fuel + 1 => do
    match ← peek with
    | .key =>
      skip
      let key ← nodeUnless [.key, .value, .blockEnd] .value fuel
      let value ← valueAfter [.key, .value, .blockEnd] .value fuel
      return (key, value) :: (← blockEntries fuel)
    | _ =>
      expect .blockEnd
      return []

def valueAfter (ends : List Token) (place : Place) : Nat → Read Node
  | 0 => fail
  | fuel + 1 => do
    match ← peek with
    | .value =>
      skip
      nodeUnless ends place fuel
    | _ => return Node.empty

/-- The items of a sequence in brackets; an item with a key is a mapping of one entry. -/
def flowItems (first : Bool) : Nat → Read (List Node)
  | 0 => fail
  | fuel + 1 => do
    if (← peek) == .sequenceEnd then
      skip
      return []
    if !first then expect .comma
    match ← peek with
    | .sequenceEnd =>
      skip
      return []
    | .key =>
      skip
      let key ← nodeUnless [.value, .comma, .sequenceEnd] .flow fuel
      let value ← valueAfter [.comma, .sequenceEnd] .flow fuel
      return .mapping none [(key, value)] :: (← flowItems false fuel)
    | _ =>
      let item ← node .flow fuel
      return item :: (← flowItems false fuel)

def flowEntries (first : Bool) : Nat → Read (List (Node × Node))
  | 0 => fail
  | fuel + 1 => do
    if (← peek) == .mappingEnd then
      skip
      return []
    if !first then expect .comma
    match ← peek with
    | .mappingEnd =>
      skip
      return []
    | .key =>
      skip
      let key ← nodeUnless [.value, .comma, .mappingEnd] .flow fuel
      let value ← valueAfter [.comma, .mappingEnd] .flow fuel
      return (key, value) :: (← flowEntries false fuel)
    | _ =>
      let key ← node .flow fuel
      return (key, Node.empty) :: (← flowEntries false fuel)

end

/-- Adds a handle to those of the directives, where it must not be repeated. -/
def directives : Nat → Bool → List (String × String) → Read (List (String × String))
  | 0, _, _ => fail
  | fuel + 1, versioned, handles => do
    match ← peek with
    | .directive d =>
      skip
      match d with
      | .version major _ => if versioned || major != 1 then fail else directives fuel true handles
      | .tag handle uri =>
        if (handles.lookup handle).isSome then fail
        else directives fuel versioned ((handle, uri) :: handles)
      | .unknown => directives fuel versioned handles
    | _ => return handles

private def isBoundary : Token → Bool
  | .directive _ | .documentStart | .documentEnd | .streamEnd => true
  | _ => false

def document (fuel : Nat) : Read (Option Node) := do
  let root ← match ← peek with
    | .streamEnd => pure none
    | .directive _ | .documentStart => do
      let handles ← directives fuel false []
      modify fun s => { s with handles := handles ++ defaultHandles }
      expect .documentStart
      if isBoundary (← peek) then pure (some Node.empty)
      else pure (some (← node .block fuel))
    | _ => pure (some (← node .block fuel))
  if root.isSome then modify fun s => { s with tokens := s.tokens.dropWhile (· == .documentEnd) }
  expect .streamEnd
  return root

end Read

/-- The root of the only document in a text, if there is one. -/
def ofText? (text : List Char) : Except ReadError (Option Node) := do
  let tokens ← Yaml.tokens text
  let (root, _) ← (Read.document (8 * tokens.length + 16)).run ⟨tokens, Read.defaultHandles, [], []⟩
  return root

end Node

end NotebookSlice.Yaml
