import NotebookSlice.Value.Order
import NotebookSlice.Value.Show
import NotebookSlice.Text.Upper

/-! # Override rules

Which calls are known not to modify their receiver or their arguments. A
configuration is a list of rules, of which the first that matches decides.
-/

namespace NotebookSlice

inductive Spared | object | arguments
  deriving DecidableEq, Repr

/-- A rule for the calls of a function, on one object or, with `null`, on any. -/
structure OverrideRule where
  object : Value
  function : Value
  sparesObject : Bool
  sparesArguments : Bool

inductive RuleError
  | noFunctionName
  | unknownMembers (names : List String)
  | noMapping (entry : Value)
  /-- the members that are spared cannot be listed -/
  | notIterable
  | rulesNoList (path : String)
  /-- the rules of a configuration cannot be replaced -/
  | immutable
  /-- something else is given for a configuration -/
  | noConfiguration (v : Value)
  | documentNoMapping (path : String)

namespace RuleError

def message? : RuleError → Option String
  | noFunctionName => some "override rule needs a function name"
  | unknownMembers names =>
    some ("unknown does_not_modify value(s): " ++ Text.bracketed (names.map Text.quoted))
  | noMapping entry => some ("override rule must be a mapping, got " ++ entry.shown)
  | notIterable => none
  | immutable => some "SliceConfiguration is immutable"
  | noConfiguration v => some ("expected SliceConfiguration, got " ++ v.typeName)
  | rulesNoList path => some ("'rules' in " ++ path ++ " must be a list")
  | documentNoMapping path => some (path ++ " must contain a YAML mapping")

end RuleError

def textLE (a b : String) : Bool := !decide (b < a)

/-- Texts in code point order, without repetitions. -/
def sortedTexts (xs : List String) : List String := xs.eraseDups.mergeSort textLE

namespace OverrideRule

/-- Does the rule speak of calls of this function on this object? -/
def fits (r : OverrideRule) (object function : Value) : Bool :=
  r.function.same function &&
    match r.object with
    | .null => true
    | o => o.same object

def spares (r : OverrideRule) : List String :=
  (if r.sparesArguments then ["ARGUMENTS"] else []) ++ (if r.sparesObject then ["OBJECT"] else [])

def shown (r : OverrideRule) : String :=
  let members := match r.spares with
    | [] => ""
    | names => "\x7b" ++ String.intercalate ", " (names.map Text.quoted) ++ "\x7d"
  "OverrideRule(object_name=" ++ r.object.shown ++ ", function_name=" ++ r.function.shown ++
    ", does_not_modify=frozenset(" ++ members ++ "))"

def isKey (r : OverrideRule) : Bool := r.object.isKey && r.function.isKey

/-- A rule from its parts. The members are read without regard to case. -/
def make (function members object : Value) : Except RuleError OverrideRule :=
  if !function.truthy then .error .noFunctionName
  else match members.elements? with
    | none => .error .notIterable
    | some vs =>
      let names := vs.map fun v => Text.upper v.toText
      let unknown := names.filter fun n => n != "OBJECT" && n != "ARGUMENTS"
      if unknown.isEmpty then
        .ok ⟨object, function, names.contains "OBJECT", names.contains "ARGUMENTS"⟩
      else .error (.unknownMembers (sortedTexts unknown))

/-- The first of the keys whose value counts as true; otherwise the value of the last one. -/
def firstTruthy (entry : Value) : List String → Value
  | [] => .null
  | [k] => entry.getD k
  | k :: ks => if (entry.getD k).truthy then entry.getD k else firstTruthy entry ks

/-- A rule from an entry of a configuration file, with its spellings of the keys. -/
def ofEntry (entry : Value) : Except RuleError OverrideRule :=
  match entry with
  | .map _ =>
    let function := firstTruthy entry ["function", "function_name", "functionName"]
    let object := firstTruthy entry ["object", "object_name", "objectName"]
    let members := firstTruthy entry ["does_not_modify", "doesNotModify"]
    let members := if members.truthy then members else .list []
    let members := match members with
      | .text s => .list [.text s]
      | v => v
    make function members object
  | v => .error (.noMapping v)

def known (object : Option String) (spares : List Spared) (function : String) : OverrideRule :=
  ⟨(object.map Value.text).getD .null, .text function, spares.contains .object,
    spares.contains .arguments⟩

def same (a b : OverrideRule) : Bool :=
  a.object.same b.object && a.function.same b.function &&
    a.sparesObject == b.sparesObject && a.sparesArguments == b.sparesArguments

def sameAll : List OverrideRule → List OverrideRule → Bool
  | [], [] => true
  | a :: as, b :: bs => same a b && sameAll as bs
  | _, _ => false

end OverrideRule

/-- A list of rules; the first that fits a call decides. -/
structure Configuration where
  rules : List OverrideRule

namespace Configuration

def empty : Configuration := ⟨[]⟩

def find? (c : Configuration) (object function : Value) : Option OverrideRule :=
  c.rules.find? (·.fits object function)

def extended (c : Configuration) (rules : List OverrideRule) : Configuration := ⟨c.rules ++ rules⟩

def same (a b : Configuration) : Bool := OverrideRule.sameAll a.rules b.rules

def shown (c : Configuration) : String :=
  "SliceConfiguration(rules=" ++ Text.bracketed (c.rules.map OverrideRule.shown) ++ ")"

def isKey (c : Configuration) : Bool := c.rules.all OverrideRule.isKey

/-- Rules for common calls that only read: of data frames, of plots, and of the functions of two
numeric libraries. -/
def pureCalls : List OverrideRule :=
  ["head", "tail", "describe", "info", "count", "mean", "sum", "min", "max", "nunique",
    "value_counts", "isnull", "isna", "copy", "to_string", "to_csv", "to_json",
    "to_parquet"].map (OverrideRule.known none [.object, .arguments]) ++
  ["show", "plot", "scatter", "hist", "bar", "title", "xlabel", "ylabel", "legend",
    "savefig"].map (OverrideRule.known (some "plt") [.object, .arguments]) ++
  ["np", "pd"].flatMap fun library =>
    ["array", "mean", "sum", "concat", "DataFrame", "Series"].map
      (OverrideRule.known (some library) [.arguments])

end Configuration

end NotebookSlice
