import NotebookSlice.Files
import NotebookSlice.Value.Json
import NotebookSlice.Value.Order
import NotebookSlice.Value.Show

/-! # Saved notebooks

The cells of a notebook in format 4. Texts that are saved as lists of lines are
joined, and cells that lack an id of their own are given one.
-/

namespace NotebookSlice

inductive NotebookError
  | file (e : FileError)
  | notJson (text : String)
  | unsupported (version : Value)
  /-- a part that every notebook has is missing or has no members -/
  | incomplete
  /-- something without members is asked for one -/
  | noMembers
  /-- a value has a type that does not fit -/
  | wrongType
  /-- an execution count writes no number -/
  | badCount (count : Value)
  /-- an execution count has no bound -/
  | infiniteCount

namespace NotebookError

/-- The longest message about a text that is no JSON. A longer one is cut and ends in dots. -/
def maxLength : Nat := 80

/-- What the error says, for those that a reader of notebooks reports. -/
def message? : NotebookError → Option String
  | file .noPath => none
  | file e => some e.message
  | notJson text =>
    let message := "Notebook does not appear to be JSON: " ++ Text.quoted text
    if maxLength < message.length then
      some (String.ofList (message.toList.take (maxLength - 3)) ++ "...")
    else some message
  | unsupported version => some ("Unsupported nbformat version " ++ version.toText)
  | badCount (.float _) => some "cannot convert float NaN to integer"
  | badCount count => some ("invalid literal for int() with base 10: " ++ count.shown)
  | _ => none

end NotebookError

namespace Notebook

def joinTexts : List Value → Except NotebookError String
  | [] => .ok ""
  | .text s :: vs => do return s ++ (← joinTexts vs)
  | _ :: _ => .error .wrongType

/-- Joins the texts of a key, if its value is a list. -/
def joinKey (key : String) (v : Value) : Except NotebookError Value :=
  match v, v.get? key with
  | .map entries, some (.list vs) => do
    return .map (Value.insertEntry (.text key) (.text (← joinTexts vs)) entries)
  | _, _ => .ok v

/-- Is the media type one of JSON, whose lists are data? -/
def isJsonMedia (media : Value) : Bool :=
  match media with
  | .text s =>
    s == "application/json" ||
      ("application/".toList.isPrefixOf s.toList && "+json".toList.isSuffixOf s.toList)
  | _ => false

/-- Joins the texts of one medium, unless its lists are data or hold something else. -/
def joinMedia (entry : Value × Value) : Value × Value :=
  match entry with
  | (media, .list vs) =>
    if isJsonMedia media then entry
    else match joinTexts vs with
      | .ok s => (media, .text s)
      | .error _ => entry
  | e => e

def joinBundle (v : Value) : Except NotebookError Value :=
  match v with
  | .map entries => .ok (.map (entries.map joinMedia))
  | _ => .error .incomplete

/-- Joins the texts of an output: of its media, or of its stream. -/
def joinOutput (output : Value) : Except NotebookError Value := do
  match output with
  | .map entries =>
    let type := output.getD "output_type"
    if !type.isKey then throw .wrongType
    if type.same (.text "display_data") || type.same (.text "execute_result") then
      match output.get? "data" with
      | none => return output
      | some data => return .map (Value.insertEntry (.text "data") (← joinBundle data) entries)
    else if type.truthy then joinKey "text" output
    else return output
  | _ => throw .incomplete

def joinOutputs (outputs : Value) : Except NotebookError Value := do
  match outputs with
  | .list vs => return .list (← vs.mapM joinOutput)
  | .map _ | .text _ => if outputs.truthy then throw .incomplete else return outputs
  | _ => throw .wrongType

def isCode (cell : Value) : Bool := (cell.getD "cell_type").same (.text "code")

def joinCell (cell : Value) : Except NotebookError Value := do
  match cell with
  | .map _ =>
    match ← joinKey "source" cell with
    | .map entries =>
      match cell.get? "attachments" with
      | none => pure ()
      | some (.map attachments) =>
        let _ ← attachments.mapM fun e => joinBundle e.2
      | some _ => throw .incomplete
      match isCode cell, cell.get? "outputs" with
      | true, some outputs =>
        return .map (Value.insertEntry (.text "outputs") (← joinOutputs outputs) entries)
      | _, _ => return .map entries
    | v => return v
  | .text _ | .list _ => throw .incomplete
  | _ => throw .wrongType

def checkMetadata (v : Value) : Except NotebookError Unit :=
  match v.get? "metadata" with
  | some (.map _) => .ok ()
  | some (.list _) => .error .wrongType
  | _ => .error .incomplete

def freshId (index : Nat) : Value := .text (String.ofList (Text.hexText 8 index))

/-- Gives an id to cells that have none or one that occurred before. -/
def giveIds (index : Nat) (seen : List Value) : List Value → List Value
  | [] => []
  | cell :: cells =>
    match cell, cell.get? "id" with
    | .map entries, id =>
      let used := match id with
        | none => true
        | some id => seen.any (·.same id)
      if used then
        .map (Value.insertEntry (.text "id") (freshId index) entries) ::
          giveIds (index + 1) seen cells
      else cell :: giveIds (index + 1) (id.toList ++ seen) cells
    | _, _ => cell :: giveIds (index + 1) seen cells

def idVersion : Value := .int 5

/-- Is the notebook's minor version one whose cells have ids? -/
def hasIds (notebook : Value) : Except NotebookError Bool :=
  let minor := (notebook.get? "nbformat_minor").getD (.int 0)
  if minor.rank.comparable idVersion.rank then .ok (idVersion.rank.le minor.rank)
  else .error .wrongType

def cells (notebook : Value) : Except NotebookError (List Value) := do
  match notebook with
  | .map _ =>
    let version := (notebook.get? "nbformat").getD (.int 1)
    if !version.same (.int 4) then throw (.unsupported version)
    let cells ← match notebook.get? "cells" with
      | none => throw .incomplete
      | some (.list vs) => vs.mapM joinCell
      | some (.map []) | some (.text "") => pure []
      | some (.map _) | some (.text _) => throw .incomplete
      | some _ => throw .wrongType
    checkMetadata notebook
    for cell in cells do checkMetadata cell
    return if ← hasIds notebook then giveIds 0 [] cells else cells
  | _ => throw .noMembers

def ofText (text : String) : Except NotebookError (List Value) :=
  match Json.parse? text with
  | none => .error (.notJson text)
  | some notebook => cells notebook

end Notebook

end NotebookSlice
