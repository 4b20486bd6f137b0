import NotebookSlice.Decimal.Layout
import NotebookSlice.Text.Quoted

/-! # Dynamic values

The values of configuration files, notebooks and requests, whose types are not
fixed in advance.
-/

namespace NotebookSlice

/-- A calendar day, with a time of day when there is one. -/
structure Timestamp where
  year : Nat
  month : Nat
  day : Nat
  /-- hour, minute, second and microsecond -/
  time : Option (Nat × Nat × Nat × Nat)
  /-- the offset from universal time in minutes -/
  offset : Option Int
  deriving DecidableEq, Repr

/-- A value of a configuration, a notebook or a request. -/
inductive Value
  | null
  | bool (b : Bool)
  | int (i : Int)
  | float (x : Float)
  | text (s : String)
  | bytes (bs : List UInt8)
  | timestamp (t : Timestamp)
  | list (items : List Value)
  | tuple (items : List Value)
  | set (items : List Value)
  | map (entries : List (Value × Value))
  deriving Inhabited

namespace Value

/-- How numbers are shown: positionally from `1e-4` up to `1e16`. -/
def numbers : Decimal.Layout := ⟨-4, 16, "nan", "inf"⟩

def typeName : Value → String
  | null => "NoneType"
  | bool _ => "bool"
  | int _ => "int"
  | float _ => "float"
  | text _ => "str"
  | bytes _ => "bytes"
  | timestamp t => if t.time.isSome then "datetime" else "date"
  | list _ => "list"
  | tuple _ => "tuple"
  | set _ => "set"
  | map _ => "dict"

def truthy : Value → Bool
  | null => false
  | bool b => b
  | int i => i != 0
  | float x => x != 0
  | text s => !s.isEmpty
  | bytes bs => !bs.isEmpty
  | timestamp _ => true
  | list vs => !vs.isEmpty
  | tuple vs => !vs.isEmpty
  | set vs => !vs.isEmpty
  | map es => !es.isEmpty

/-- The value of a float as an integer, when it has one. -/
def floatInt? (x : Float) : Option Int :=
  match Decimal.partsOf x with
  | .nan | .infinite _ => none
  | .zero _ => some 0
  | .finite negative v =>
    if v.toRat.den == 1 then some (if negative then -(v.floor : Int) else v.floor) else none

def integral? : Value → Option Int
  | bool b => some (if b then 1 else 0)
  | int i => some i
  | float x => floatInt? x
  | _ => none

mutual

/-- Equality of values: numbers are compared by value whatever their type, and sets and maps
without regard to order. -/
def same : Value → Value → Bool
  | null, null => true
  | text a, text b => a == b
  | bytes a, bytes b => a == b
  | timestamp a, timestamp b => a == b
  | list as, list bs => sameList as bs
  | tuple as, tuple bs => sameList as bs
  | set as, set bs => as.length == bs.length && subset as bs && bs.all (hasSame as)
  | map as, map bs => as.length == bs.length && subMap as bs && bs.all (hasEntry as)
  | a, b =>
    match integral? a, integral? b with
    | some i, some j => i == j
    | none, none =>
      match a, b with
      | float x, float y => x == y
      | _, _ => false
    | _, _ => false

def sameList : List Value → List Value → Bool
  | [], [] => true
  | a :: as, b :: bs => same a b && sameList as bs
  | _, _ => false

def subset : List Value → List Value → Bool
  | [], _ => true
  | a :: as, bs => bs.any (same a) && subset as bs

def subMap : List (Value × Value) → List (Value × Value) → Bool
  | [], _ => true
  | (k, v) :: rest, bs => bs.any (fun e => same k e.1 && same v e.2) && subMap rest bs

def hasSame : List Value → Value → Bool
  | [], _ => false
  | a :: as, b => same a b || hasSame as b

def hasEntry : List (Value × Value) → Value × Value → Bool
  | [], _ => false
  | (k, v) :: rest, e => same k e.1 && same v e.2 || hasEntry rest e

end

def lookup (key : String) : List (Value × Value) → Option Value
  | [] => none
  | (text k, v) :: rest => if k = key then some v else lookup key rest
  | _ :: rest => lookup key rest

/-- The value of a key in a map; nothing in other values. -/
def get? (key : String) : Value → Option Value
  | map entries => lookup key entries
  | _ => none

def getD (key : String) (v : Value) : Value := (v.get? key).getD null

/-- Sets a key: in its place if it is there, at the end otherwise. -/
def insertEntry (key value : Value) : List (Value × Value) → List (Value × Value)
  | [] => [(key, value)]
  | (k, v) :: rest =>
    if same k key then (k, value) :: rest else (k, v) :: insertEntry key value rest

def object (entries : List (String × Value)) : Value :=
  map (entries.map fun (k, v) => (text k, v))

end Value

end NotebookSlice
