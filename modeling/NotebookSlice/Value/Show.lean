import NotebookSlice.Value.Basic

/-! # Values as text

How values are shown in messages, and how they are turned into text.
-/

namespace NotebookSlice.Value

open Text

private def pad (width : Nat) (n : Nat) : String :=
  let s := toString n
  String.ofList (List.replicate (width - s.length) '0') ++ s

def shownByte (quote : Char) (b : UInt8) : List Char :=
  let c := Char.ofNat b.toNat
  if c == quote || c == '\\' then ['\\', c]
  else if c == '\n' then ['\\', 'n']
  else if c == '\t' then ['\\', 't']
  else if c == '\r' then ['\\', 'r']
  else if 32 ≤ b.toNat && b.toNat < 127 then [c]
  else ['\\', 'x'] ++ hexText 2 b.toNat

def shownBytes (bs : List UInt8) : String :=
  let q := quoteFor (bs.map fun b => Char.ofNat b.toNat)
  String.ofList ('b' :: q :: bs.flatMap (shownByte q) ++ [q])

def shownZone (minutes : Int) : String :=
  if minutes = 0 then "datetime.timezone.utc"
  else
    let seconds := minutes * 60
    let days := Int.fdiv seconds 86400
    let rest := Int.fmod seconds 86400
    let dayPart := if days = 0 then "" else "days=" ++ toString days ++ ", "
    "datetime.timezone(datetime.timedelta(" ++ dayPart ++ "seconds=" ++ toString rest ++ "))"

def shownTimestamp (t : Timestamp) : String :=
  let date := [t.year, t.month, t.day].map toString
  match t.time with
  | none => "datetime.date(" ++ String.intercalate ", " date ++ ")"
  | some (h, m, s, us) =>
    let clock := [h, m].map toString ++
      (if s = 0 && us = 0 then [] else [toString s]) ++ (if us = 0 then [] else [toString us])
    let zone := match t.offset with
      | none => []
      | some o => ["tzinfo=" ++ shownZone o]
    "datetime.datetime(" ++ String.intercalate ", " (date ++ clock ++ zone) ++ ")"

mutual

def shown : Value → String
  | null => "None"
  | bool true => "True"
  | bool false => "False"
  | int i => toString i
  | float x => numbers.float x
  | text s => quoted s
  | bytes bs => shownBytes bs
  | timestamp t => shownTimestamp t
  | list vs => bracketed (shownItems vs)
  | tuple [v] => "(" ++ shown v ++ ",)"
  | tuple vs => "(" ++ String.intercalate ", " (shownItems vs) ++ ")"
  | set [] => "set()"
  | set vs => "\x7b" ++ String.intercalate ", " (shownItems vs) ++ "\x7d"
  | map es => "\x7b" ++ String.intercalate ", " (shownEntries es) ++ "\x7d"

def shownItems : List Value → List String
  | [] => []
  | v :: vs => shown v :: shownItems vs

def shownEntries : List (Value × Value) → List String
  | [] => []
  | (k, v) :: es => (shown k ++ ": " ++ shown v) :: shownEntries es

end

/-- A moment in the notation of calendars and clocks. -/
def clockText (t : Timestamp) : String :=
  let date := pad 4 t.year ++ "-" ++ pad 2 t.month ++ "-" ++ pad 2 t.day
  match t.time with
  | none => date
  | some (h, m, s, us) =>
    let fraction := if us = 0 then "" else "." ++ pad 6 us
    let zone := match t.offset with
      | none => ""
      | some o =>
        (if o < 0 then "-" else "+") ++ pad 2 (o.natAbs / 60) ++ ":" ++ pad 2 (o.natAbs % 60)
    date ++ " " ++ pad 2 h ++ ":" ++ pad 2 m ++ ":" ++ pad 2 s ++ fraction ++ zone

/-- A value as text: texts as they are, other values as they are shown. -/
def toText : Value → String
  | text s => s
  | timestamp t => clockText t
  | v => shown v

/-- What iterating over a value yields: items, keys or characters. -/
def elements? : Value → Option (List Value)
  | list vs => some vs
  | tuple vs => some vs
  | set vs => some vs
  | map es => some (es.map (·.1))
  | text s => some (s.toList.map fun c => text (String.ofList [c]))
  | bytes bs => some (bs.map fun b => int b.toNat)
  | _ => none

end NotebookSlice.Value
