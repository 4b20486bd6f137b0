/-! # YAML tokens

The marks and scalars that YAML text is made of. Indentation appears as starts
and ends of blocks.
-/

namespace NotebookSlice.Yaml

inductive ReadError
  /-- the text is no YAML, or it uses tags that are not known -/
  | malformed
  /-- a scalar is tagged as a number or a date that it does not write -/
  | badNumber
  /-- an empty scalar is tagged as a number -/
  | emptyNumber
  /-- a scalar is tagged as a boolean that it does not write -/
  | badBoolean
  /-- a scalar is tagged as a timestamp that it does not write -/
  | badTimestamp
  deriving DecidableEq, Repr

inductive Directive
  | version (major minor : Nat)
  | tag (handle uri : String)
  | unknown
  deriving DecidableEq, Repr

inductive Token
  | directive (d : Directive)
  | documentStart
  | documentEnd
  | blockSequence
  | blockMapping
  | blockEnd
  | sequenceStart
  | sequenceEnd
  | mappingStart
  | mappingEnd
  | entry
  | comma
  | key
  | value
  | alias (name : String)
  | anchor (name : String)
  | tag (handle : Option String) (suffix : String)
  | scalar (text : String) (plain : Bool)
  | streamEnd
  deriving DecidableEq, Repr

/-- `\n`, next line, line separator and paragraph separator end a line. -/
def isBreak (c : Char) : Bool := c == '\n' || c == '\x85' || c == '\u2028' || c == '\u2029'

/-- The character that stands for the end of the text. -/
def endMark : Char := '\x00'

def isLineEnd (c : Char) : Bool := c == endMark || isBreak c

def isSpace (c : Char) : Bool := c == ' ' || isLineEnd c

def isGap (c : Char) : Bool := c == '\t' || isSpace c

def isWordChar (c : Char) : Bool := c.isAlphanum || c == '-' || c == '_'

def isUriChar (c : Char) : Bool := c.isAlphanum || "-;/?:@&=+$,_.!~*'()[]".toList.contains c

def isAllowed (c : Char) : Bool :=
  let n := c.toNat
  n == 9 || n == 10 || n == 13 || (0x20 ≤ n && n ≤ 0x7E) || n == 0x85 ||
    (0xA0 ≤ n && n ≤ 0xD7FF) || (0xE000 ≤ n && n ≤ 0xFFFD) || 0x10000 ≤ n

end NotebookSlice.Yaml
