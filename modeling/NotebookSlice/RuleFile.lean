import NotebookSlice.Files
import NotebookSlice.Rule
import NotebookSlice.Yaml.Document

/-! # Rule files

A configuration from a YAML file that lists override rules. The rules for common
calls can be asked for in the file or by the caller, and come after its own.
-/

namespace NotebookSlice

inductive RuleFileError
  | file (e : FileError)
  | yaml (e : Yaml.ReadError)
  | rule (e : RuleError)

namespace Configuration

/-- The configuration that a document describes; the path is for messages. -/
def ofDocument (path : String) (document : Value) (includePure : Bool) :
    Except RuleError Configuration := do
  let document := if document.truthy then document else .map []
  let entries ← match document with
    | .map _ => pure (document.getD "rules")
    | _ => .error (.documentNoMapping path)
  let entries ← match entries with
    | .list vs => pure vs
    | v => if v.truthy then .error (.rulesNoList path) else pure []
  let rules ← entries.mapM OverrideRule.ofEntry
  let withPure := includePure || (document.getD "include_pure_calls").truthy
  return ⟨rules ++ if withPure then pureCalls else []⟩

/-- The configuration of a file; without a path there are no rules of its own. -/
def load (files : Files) (path : Value) (includePure : Bool) :
    Except RuleFileError Configuration := do
  let document ←
    if path.truthy then do
      let text ← (files.text path).mapError .file
      (Yaml.ofText text.toList).mapError .yaml
    else pure .null
  (ofDocument path.toText document includePure).mapError .rule

end Configuration

end NotebookSlice
