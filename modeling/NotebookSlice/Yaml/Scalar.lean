import NotebookSlice.Yaml.Token
import NotebookSlice.Text.Integer
import NotebookSlice.Decimal.Read
import NotebookSlice.Value.Basic

/-! # YAML scalars

The type that an untagged plain scalar has by its text, and the value that a
scalar of a given type writes.
-/

namespace NotebookSlice.Yaml

inductive Kind
  | null | bool | int | float | binary | timestamp | omap | pairs | set | str | seq | map | merge
  | value
  deriving DecidableEq, Repr

namespace Kind

private def names : List (String × Kind) :=
  [("null", .null), ("bool", .bool), ("int", .int), ("float", .float), ("binary", .binary),
    ("timestamp", .timestamp), ("omap", .omap), ("pairs", .pairs), ("set", .set), ("str", .str),
    ("seq", .seq), ("map", .map), ("merge", .merge), ("value", .value)]

private def stem : List Char := "tag:yaml.org,2002:".toList

def ofTag? (tag : String) : Option Kind :=
  if stem.isPrefixOf tag.toList then
    names.lookup (String.ofList (tag.toList.drop stem.length))
  else none

end Kind

namespace Scalar

/-! ## The type of a text -/

private def digitOr (c : Char) : Bool := c.isDigit || c == '_'

private def unsigned : List Char → List Char
  | '+' :: cs => cs
  | '-' :: cs => cs
  | cs => cs

private def splitWhile (p : Char → Bool) (cs : List Char) : List Char × List Char :=
  (cs.takeWhile p, cs.dropWhile p)

/-- Groups of one or two digits below sixty, each after a colon; what follows them. -/
def sexagesimal : Nat → List Char → List Char
  | 0, cs => cs
  | rounds + 1, cs =>
    match cs with
    | ':' :: a :: b :: rest =>
      if '0' ≤ a && a ≤ '5' && b.isDigit then sexagesimal rounds rest
      else if a.isDigit then sexagesimal rounds (b :: rest)
      else cs
    | [':', a] => if a.isDigit then [] else cs
    | cs => cs

/-- Is the text a colon and groups of digits to the base sixty? -/
private def isSexagesimal (cs : List Char) : Bool :=
  cs.head? == some ':' && (sexagesimal cs.length cs).isEmpty

private def isExponent : List Char → Bool
  | [] => true
  | e :: s :: ds =>
    (e == 'e' || e == 'E') && (s == '+' || s == '-') && !ds.isEmpty && ds.all Char.isDigit
  | _ => false

def isFloat (cs : List Char) : Bool :=
  let body := unsigned cs
  let (whole, rest) := splitWhile digitOr body
  let startsWithDigit := (body.head?.map Char.isDigit).getD false
  (startsWithDigit && match rest with
    | '.' :: rest => isExponent (rest.dropWhile digitOr)
    | _ => false) ||
  (match cs with
    | '.' :: d :: rest => d.isDigit && isExponent (rest.dropWhile digitOr)
    | _ => false) ||
  (startsWithDigit && !whole.isEmpty && rest.head? == some ':' &&
    match sexagesimal rest.length rest with
    | '.' :: fraction => fraction.all digitOr
    | _ => false) ||
  [".inf", ".Inf", ".INF"].any (·.toList == body) ||
  [".nan", ".NaN", ".NAN"].any (·.toList == cs)

def isInt (cs : List Char) : Bool :=
  match unsigned cs with
  | ['0'] => true
  | '0' :: 'b' :: ds => !ds.isEmpty && ds.all fun c => c == '0' || c == '1' || c == '_'
  | '0' :: 'x' :: ds =>
    !ds.isEmpty && ds.all fun c => (Text.hexDigit? c).isSome || c == '_'
  | '0' :: ds => ds.all fun c => ('0' ≤ c && c ≤ '7') || c == '_'
  | d :: ds =>
    d.isDigit && (ds.all digitOr || isSexagesimal (ds.dropWhile digitOr))
  | [] => false

/-- The fields of a timestamp as they are written: year, month, day and the time of day, with the
fraction's digits and the time zone. -/
structure Moment where
  year : List Char
  month : List Char
  day : List Char
  clock : Option (List Char × List Char × List Char × List Char × List Char)

private def digits (least most : Nat) (cs : List Char) : Option (List Char × List Char) :=
  let ds := (cs.take most).takeWhile Char.isDigit
  if least ≤ ds.length then some (ds, cs.drop ds.length) else none

private def after (c : Char) : List Char → Option (List Char)
  | d :: cs => if d == c then some cs else none
  | [] => none

private def isZone (cs : List Char) : Bool :=
  match cs with
  | [] | ['Z'] => true
  | s :: rest =>
    (s == '+' || s == '-') && match digits 1 2 rest with
      | none => false
      | some (_, []) => true
      | some (_, rest) =>
        match (after ':' rest).bind (digits 2 2) with
        | some (_, []) => true
        | _ => false

private def blankOrTab (c : Char) : Bool := c == ' ' || c == '\t'

private def clock? (cs : List Char) :
    Option (List Char × List Char × List Char × List Char × List Char) := do
  let cs ← match cs with
    | 'T' :: cs => some cs
    | 't' :: cs => some cs
    | c :: _ => if blankOrTab c then some (cs.dropWhile blankOrTab) else none
    | [] => none
  let (hour, cs) ← digits 1 2 cs
  let (minute, cs) ← digits 2 2 (← after ':' cs)
  let (second, cs) ← digits 2 2 (← after ':' cs)
  let (fraction, cs) := match cs with
    | '.' :: cs => splitWhile Char.isDigit cs
    | cs => ([], cs)
  let zone := cs.dropWhile blankOrTab
  if isZone zone then some (hour, minute, second, fraction, zone) else none

def moment? (cs : List Char) : Option Moment := do
  let (year, rest) ← digits 4 4 cs
  let (month, rest) ← digits 1 2 (← after '-' rest)
  let (day, rest) ← digits 1 2 (← after '-' rest)
  if rest.isEmpty then
    if month.length = 2 && day.length = 2 then some ⟨year, month, day, none⟩ else none
  else return ⟨year, month, day, some (← clock? rest)⟩

private def booleans : List (String × Bool) :=
  [("yes", true), ("no", false), ("true", true), ("false", false), ("on", true), ("off", false)]

private def spellings (word : String) : List (List Char) :=
  match word.toList with
  | [] => []
  | c :: cs => [c :: cs, c.toUpper :: cs, c.toUpper :: cs.map Char.toUpper]

def kindOf (cs : List Char) : Kind :=
  if booleans.any fun (w, _) => (spellings w).contains cs then .bool
  else if isFloat cs then .float
  else if isInt cs then .int
  else if cs == ['<', '<'] then .merge
  else if cs.isEmpty || cs == ['~'] || (spellings "null").contains cs then .null
  else if (moment? cs).isSome then .timestamp
  else if cs == ['='] then .value
  else .str

/-! ## The value of a text -/

private def withSign (negative : Bool) (n : Int) : Int := if negative then -n else n

private def inBase (base : Nat) (cs : List Char) : Except ReadError Int :=
  let ds := cs.map Text.hexDigit?
  if cs.isEmpty || ds.any fun d => (d.map fun d => decide (base ≤ d)).getD true then
    .error .badNumber
  else .ok (cs.foldl (fun (n : Nat) c => base * n + (Text.hexDigit? c).getD 0) 0 : Nat)

private def integer (cs : List Char) : Except ReadError Int :=
  match Text.integer? cs with
  | some n => .ok n
  | none => .error .badNumber

private def pieces (cs : List Char) : List (List Char) :=
  cs.foldr (fun c ps => match ps with
    | [] => [[c]]
    | p :: ps => if c == ':' then [] :: p :: ps else (c :: p) :: ps) [[]]

def toInt (cs : List Char) : Except ReadError Int := do
  let cs := cs.filter (· != '_')
  if cs.isEmpty then throw .emptyNumber
  let negative := cs.head? == some '-'
  let body := unsigned cs
  if body.isEmpty then throw .emptyNumber
  let n ← match body with
    | ['0'] => pure 0
    | '0' :: 'b' :: ds => inBase 2 ds
    | '0' :: 'x' :: ds => inBase 16 ds
    | '0' :: _ => inBase 8 body
    | _ =>
      if body.contains ':' then do
        let parts ← (pieces body).mapM integer
        pure (parts.foldl (fun n d => 60 * n + d) 0)
      else integer body
  return withSign negative n

private def decimal? (cs : List Char) : Option Float := do
  let (negative, body) := match Text.trim cs with
    | '-' :: body => (true, body)
    | '+' :: body => (false, body)
    | body => (false, body)
  let (whole, rest) := splitWhile Char.isDigit body
  let (fraction, rest) := match rest with
    | '.' :: rest => splitWhile Char.isDigit rest
    | rest => ([], rest)
  if whole.isEmpty && fraction.isEmpty then none
  else
    let exponent ← match rest with
      | [] => some 0
      | 'e' :: rest =>
        if (unsigned rest).isEmpty || !(unsigned rest).all Char.isDigit then none
        else Text.integer? rest
      | _ => none
    return Decimal.toFloat negative (Decimal.natOfDigits (whole ++ fraction))
      (exponent - fraction.length)

private def infinite : Float := Decimal.toFloat false 1 500

private def decimal (cs : List Char) : Except ReadError Float :=
  match decimal? cs with
  | some x => .ok x
  | none =>
    let body := unsigned (Text.trim cs)
    let sign := if (Text.trim cs).head? == some '-' then -1.0 else 1.0
    if ["inf", "infinity"].any (·.toList == body) then .ok (sign * infinite)
    else if body == "nan".toList then .ok (infinite - infinite)
    else .error .badNumber

def toFloat (cs : List Char) : Except ReadError Float := do
  let cs := (cs.filter (· != '_')).map Char.toLower
  if cs.isEmpty then throw .emptyNumber
  let sign := if cs.head? == some '-' then -1.0 else 1.0
  let body := unsigned cs
  if body == ".inf".toList then return sign * infinite
  if body == ".nan".toList then return infinite - infinite
  if body.contains ':' then
    let parts ← (pieces body).mapM decimal
    let (total, _) := parts.reverse.foldl (fun (total, base) d => (total + d * base, base * 60))
      (0.0, 1.0)
    return sign * total
  return sign * (← decimal body)

def toBool (cs : List Char) : Except ReadError Bool :=
  match booleans.lookup (String.ofList (cs.map Char.toLower)) with
  | some b => .ok b
  | none => .error .badBoolean

private def daysIn (year month : Nat) : Nat :=
  if month = 2 then
    if year % 4 = 0 && (year % 100 != 0 || year % 400 = 0) then 29 else 28
  else if [4, 6, 9, 11].contains month then 30
  else 31

/-- The minutes between a time zone and universal time; days are out of range. -/
private def offset? (zone : List Char) : Except ReadError (Option Int) :=
  match zone with
  | [] => .ok none
  | 'Z' :: _ => .ok (some 0)
  | s :: rest =>
    let (hour, minute) := splitWhile (· != ':') rest
    let minutes : Int := 60 * Decimal.natOfDigits hour + Decimal.natOfDigits minute
    if 1440 ≤ minutes then .error .badNumber
    else .ok (some (if s == '-' then -minutes else minutes))

def toTimestamp (cs : List Char) : Except ReadError Timestamp := do
  match moment? cs with
  | none => throw .badTimestamp
  | some m =>
    let year := Decimal.natOfDigits m.year
    let month := Decimal.natOfDigits m.month
    let day := Decimal.natOfDigits m.day
    if year = 0 || month = 0 || 12 < month || day = 0 || daysIn year month < day then
      throw .badNumber
    match m.clock with
    | none => return ⟨year, month, day, none, none⟩
    | some (hour, minute, second, fraction, zone) =>
      let hour := Decimal.natOfDigits hour
      let minute := Decimal.natOfDigits minute
      let second := Decimal.natOfDigits second
      let micro := Decimal.natOfDigits ((fraction ++ List.replicate 6 '0').take 6)
      let offset ← offset? zone
      if 23 < hour || 59 < minute || 59 < second then throw .badNumber
      return ⟨year, month, day, some (hour, minute, second, micro), offset⟩

private def base64Digit? (c : Char) : Option Nat :=
  let n := c.toNat
  if 'A' ≤ c && c ≤ 'Z' then some (n - 65)
  else if 'a' ≤ c && c ≤ 'z' then some (n - 71)
  else if c.isDigit then some (n + 4)
  else if c == '+' then some 62
  else if c == '/' then some 63
  else none

/-- Decodes groups of four digits; other characters are passed over, and padding ends the text. -/
private def base64 : (place left pads : Nat) → List Char → Option (List UInt8)
  | place, _, _, [] => if place = 0 then some [] else none
  | place, left, pads, c :: cs =>
    if c == '=' then
      if 2 ≤ place then
        if 4 ≤ place + pads + 1 then some [] else base64 place left (pads + 1) cs
      else base64 place left pads cs
    else match base64Digit? c with
      | none => base64 place left pads cs
      | some d =>
        match place with
        | 0 => base64 1 d 0 cs
        | 1 => (base64 2 (d % 16) 0 cs).map (UInt8.ofNat (left * 4 + d / 16) :: ·)
        | 2 => (base64 3 (d % 4) 0 cs).map (UInt8.ofNat (left * 16 + d / 4) :: ·)
        | _ => (base64 0 0 0 cs).map (UInt8.ofNat (left * 64 + d) :: ·)

def toBytes (cs : List Char) : Except ReadError (List UInt8) :=
  if cs.any fun c => 128 ≤ c.toNat then .error .malformed
  else match base64 0 0 0 cs with
    | some bs => .ok bs
    | none => .error .malformed

def toValue (kind : Kind) (text : String) : Except ReadError Value :=
  let cs := text.toList
  match kind with
  | .null => .ok .null
  | .bool => (toBool cs).map .bool
  | .int => (toInt cs).map .int
  | .float => (toFloat cs).map .float
  | .binary => (toBytes cs).map .bytes
  | .timestamp => (toTimestamp cs).map .timestamp
  | .str => .ok (.text text)
  | _ => .error .malformed

end Scalar

end NotebookSlice.Yaml
