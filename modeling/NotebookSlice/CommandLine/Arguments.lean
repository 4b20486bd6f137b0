import NotebookSlice.Text.Integer

/-! # Command line arguments

Options and positional arguments in any order. Long options may be shortened as
far as they stay unique, and may have their value after an equals sign.
-/

namespace NotebookSlice.CommandLine

/-- An option: its spellings, and whether a value follows it. -/
structure Switch where
  names : List String
  hasValue : Bool
  deriving DecidableEq, Repr

namespace Switch

/-- The last spelling, which stands for the option. -/
def name (o : Switch) : String := o.names.getLast?.getD ""

end Switch

inductive Shape
  /-- a value or a positional argument -/
  | word
  /-- two hyphens: words only from here on -/
  | separator
  /-- an option, unless it is not known, with its spelling and the value given with it -/
  | switch (o : Option Switch) (spelling : List Char) (value : Option (List Char))
  deriving DecidableEq, Repr

inductive Refusal
  | usage
  | help
  deriving DecidableEq, Repr

private def splitEquals (cs : List Char) : List Char × Option (List Char) :=
  match cs.dropWhile (· != '=') with
  | [] => (cs, none)
  | _ :: value => (cs.takeWhile (· != '='), some value)

private def exact (options : List Switch) (spelling : List Char) : Option Switch :=
  options.find? fun o => o.names.any (·.toList == spelling)

private def spellings (options : List Switch) : List (Switch × List Char) :=
  options.flatMap fun o => o.names.map fun n => (o, n.toList)

/-- The options that an argument may be short for. -/
def completions (options : List Switch) (cs : List Char) : List Shape :=
  match cs with
  | '-' :: '-' :: _ =>
    let (stem, value) := splitEquals cs
    (spellings options).filterMap fun (o, n) =>
      if stem.isPrefixOf n then some (.switch o n value) else none
  | _ =>
    (spellings options).filterMap fun (o, n) =>
      if n == cs.take 2 then some (.switch o n (some (cs.drop 2)))
      else if cs.isPrefixOf n then some (.switch o n none)
      else none

private def isDigit (c : Char) : Bool := (Text.decimalDigit? c).isSome

private def allDigits (cs : List Char) : Bool := !cs.isEmpty && cs.all isDigit

def isNegative (cs : List Char) : Bool :=
  match cs with
  | '-' :: cs =>
    allDigits cs ||
      (match cs.dropWhile isDigit with
        | '.' :: fraction => allDigits fraction
        | _ => false)
  | _ => false

/-- What an argument is taken for, where options are allowed. -/
def shapeOf (options : List Switch) (argument : String) : Except Refusal Shape :=
  let cs := argument.toList
  match cs with
  | [] | ['-'] => .ok .word
  | c :: _ =>
    if c != '-' then .ok .word
    else match exact options cs with
      | some o => .ok (.switch o cs none)
      | none =>
        let (stem, value) := splitEquals cs
        match value, exact options stem with
        | some value, some o => .ok (.switch o stem (some value))
        | _, _ =>
          match completions options cs with
          | [shape] => .ok shape
          | _ :: _ :: _ => .error .usage
          | [] =>
            if isNegative cs || cs.contains ' ' then .ok .word else .ok (.switch none cs none)

def shapes (options : List Switch) : List String → Except Refusal (List (String × Shape))
  | [] => .ok []
  | a :: as =>
    if a == "--" then .ok ((a, .separator) :: as.map fun a => (a, .word))
    else do return (a, ← shapeOf options a) :: (← shapes options as)

/-- The options that occurred, in order, and the words that belong to none of them. -/
structure Parsed where
  options : List (String × String)
  positional : Option String
  extra : List String
  deriving Repr

/-- An option with the value given with it. Options of one letter may share a hyphen. -/
def together (options : List Switch) : (fuel : Nat) → Switch → List Char → List Char →
    Except Refusal (List (String × String))
  | 0, _, _, _ => .error .usage
  | fuel + 1, o, spelling, value =>
    if o.hasValue then .ok [(o.name, String.ofList value)]
    else match spelling, value with
      | [_, letter], c :: more =>
        if letter == '-' then .error .usage
        else match exact options ['-', c] with
          | none => .error .usage
          | some next =>
            if more.isEmpty then
              if next.hasValue then .error .usage else .ok [(o.name, ""), (next.name, "")]
            else do return (o.name, "") :: (← together options fuel next ['-', c] more)
      | _, _ => .error .usage

/-- Takes the positional argument, if it stands here. -/
def takePositional (p : Parsed) (args : List (String × Shape)) :
    Option (Parsed × List (String × Shape)) :=
  if p.positional.isSome then none
  else match args with
    | (_, .separator) :: (a, .word) :: rest => some ({ p with positional := some a }, rest)
    | (a, .word) :: (_, .separator) :: rest => some ({ p with positional := some a }, rest)
    | (a, .word) :: rest => some ({ p with positional := some a }, rest)
    | _ => none

/-- What options a command has, and which of them it takes after those that it has taken. -/
structure Grammar where
  options : List Switch
  accepts : (taken : List (String × String)) → (name value : String) → Bool

namespace Grammar

/-- Takes options in order. Asking for help ends this at once. -/
def take (g : Grammar) (p : Parsed) : List (String × String) → Except Refusal Parsed
  | [] => .ok p
  | (name, value) :: found =>
    if name == "--help" then .error .help
    else if !g.accepts p.options name value then .error .usage
    else g.take { p with options := p.options ++ [(name, value)] } found

/-- Goes through arguments; words are positional as long as one is expected. -/
def gather (g : Grammar) : (fuel : Nat) → Parsed → List (String × Shape) → Except Refusal Parsed
  | 0, p, _ => .ok p
  | _, p, [] => .ok p
  | fuel + 1, p, (a, shape) :: rest =>
    match takePositional p ((a, shape) :: rest) with
    | some (p, rest) => g.gather fuel p rest
    | none =>
      match shape with
      | .word | .separator => g.gather fuel { p with extra := p.extra ++ [a] } rest
      | .switch none _ _ => g.gather fuel { p with extra := p.extra ++ [a] } rest
      | .switch (some o) spelling (some value) => do
        let p ← g.take p (← together g.options a.length o spelling value)
        g.gather fuel p rest
      | .switch (some o) _ none =>
        if !o.hasValue then do
          let p ← g.take p [(o.name, "")]
          g.gather fuel p rest
        else match rest with
          | (value, .word) :: rest => do
            let p ← g.take p [(o.name, value)]
            g.gather fuel p rest
          | _ => .error .usage

/-- Parses arguments: options and one positional argument. -/
def parse (g : Grammar) (args : List String) : Except Refusal Parsed := do
  let args ← shapes g.options args
  g.gather args.length ⟨[], none, []⟩ args

end Grammar

end NotebookSlice.CommandLine
