/-! # Tokens

The lexical units of a cell's code: names, keywords, literals, punctuation and
the layout tokens that stand for line ends and changes of indentation.
-/

namespace NotebookSlice.Syntax

inductive Keyword
  | falseWord | noneWord | trueWord | and | as | assert | async | await | break | classWord
  | continue | define | del | elif | else | except | finally | for | from | global | if | import
  | in | is | lambda | nonlocal | not | or | pass | raise | return | try | while | with | yield
  deriving DecidableEq, Repr

/-- Names that act as keywords in `match` statements only. -/
inductive SoftKeyword | match | case | underscore
  deriving DecidableEq, Repr

inductive Punct
  | lpar | rpar | lsqb | rsqb | lbrace | rbrace
  | colon | comma | semi | dot | ellipsis | arrow | colonEq | eq
  | plus | minus | star | slash | bar | amp | less | greater | percent | tilde | caret | at
  | eqEq | notEq | lessEq | greaterEq | shiftLeft | shiftRight | doubleStar | doubleSlash
  | plusEq | minusEq | starEq | slashEq | percentEq | ampEq | barEq | caretEq | atEq
  | shiftLeftEq | shiftRightEq | doubleStarEq | doubleSlashEq
  /-- a character or a pair of characters with no role in the grammar -/
  | stray
  deriving DecidableEq, Repr

inductive Token.Kind
  | name (id : String) (soft : Option SoftKeyword)
  | keyword (word : Keyword)
  | number (digits : List Char)
  | string (text : List Char)
  | punct (mark : Punct)
  | newline
  | indent
  | dedent
  | endmarker
  deriving DecidableEq, Repr

/-- A token with its first and last line and the number of brackets that are open after it. -/
structure Token where
  kind : Token.Kind
  line : Nat
  lastLine : Nat
  depth : Nat
  deriving DecidableEq, Repr

namespace Token

/-- Layout tokens do not count when a statement's last line is sought. -/
def isLayout (t : Token) : Bool :=
  match t.kind with
  | .newline | .indent | .dedent | .endmarker => true
  | _ => false

/-- How much a token can hold: a string may hold expressions in its text. -/
def weight (t : Token) : Nat :=
  match t.kind with
  | .string text => text.length
  | _ => 1

end Token

namespace Keyword

def spelling : Keyword → List Char
  | .falseWord => ['F', 'a', 'l', 's', 'e']
  | .noneWord => ['N', 'o', 'n', 'e']
  | .trueWord => ['T', 'r', 'u', 'e']
  | .and => ['a', 'n', 'd']
  | .as => ['a', 's']
  | .assert => ['a', 's', 's', 'e', 'r', 't']
  | .async => ['a', 's', 'y', 'n', 'c']
  | .await => ['a', 'w', 'a', 'i', 't']
  | .break => ['b', 'r', 'e', 'a', 'k']
  | .classWord => ['c', 'l', 'a', 's', 's']
  | .continue => ['c', 'o', 'n', 't', 'i', 'n', 'u', 'e']
  | .define => ['d', 'e', 'f']
  | .del => ['d', 'e', 'l']
  | .elif => ['e', 'l', 'i', 'f']
  | .else => ['e', 'l', 's', 'e']
  | .except => ['e', 'x', 'c', 'e', 'p', 't']
  | .finally => ['f', 'i', 'n', 'a', 'l', 'l', 'y']
  | .for => ['f', 'o', 'r']
  | .from => ['f', 'r', 'o', 'm']
  | .global => ['g', 'l', 'o', 'b', 'a', 'l']
  | .if => ['i', 'f']
  | .import => ['i', 'm', 'p', 'o', 'r', 't']
  | .in => ['i', 'n']
  | .is => ['i', 's']
  | .lambda => ['l', 'a', 'm', 'b', 'd', 'a']
  | .nonlocal => ['n', 'o', 'n', 'l', 'o', 'c', 'a', 'l']
  | .not => ['n', 'o', 't']
  | .or => ['o', 'r']
  | .pass => ['p', 'a', 's', 's']
  | .raise => ['r', 'a', 'i', 's', 'e']
  | .return => ['r', 'e', 't', 'u', 'r', 'n']
  | .try => ['t', 'r', 'y']
  | .while => ['w', 'h', 'i', 'l', 'e']
  | .with => ['w', 'i', 't', 'h']
  | .yield => ['y', 'i', 'e', 'l', 'd']

/-- The reserved words, in the order of the alphabet. -/
def all : List Keyword :=
  [.falseWord, .noneWord, .trueWord, .and, .as, .assert, .async, .await, .break, .classWord,
   .continue, .define, .del, .elif, .else, .except, .finally, .for, .from, .global, .if, .import,
   .in, .is, .lambda, .nonlocal, .not, .or, .pass, .raise, .return, .try, .while, .with, .yield]

def ofSpelling? (word : List Char) : Option Keyword := all.find? fun k => k.spelling == word

theorem spelling_of_ofSpelling? {word : List Char} {k : Keyword} (h : ofSpelling? word = some k) :
    k.spelling = word := by
  simpa using List.find?_some h

end Keyword

namespace SoftKeyword

def ofSpelling? : List Char → Option SoftKeyword
  | ['m', 'a', 't', 'c', 'h'] => some .match
  | ['c', 'a', 's', 'e'] => some .case
  | ['_'] => some .underscore
  | _ => none

end SoftKeyword

namespace Punct

/-- The mark of one character that is spelled so; any other character is a stray one. -/
def ofChar : Char → Punct
  | '(' => .lpar | ')' => .rpar | '[' => .lsqb | ']' => .rsqb | '{' => .lbrace | '}' => .rbrace
  | ':' => .colon | ',' => .comma | ';' => .semi | '.' => .dot | '=' => .eq
  | '+' => .plus | '-' => .minus | '*' => .star | '/' => .slash | '|' => .bar | '&' => .amp
  | '<' => .less | '>' => .greater | '%' => .percent | '~' => .tilde | '^' => .caret | '@' => .at
  | _ => .stray

def ofPair? : Char → Char → Option Punct
  | '=', '=' => some .eqEq
  | '!', '=' => some .notEq
  | '<', '=' => some .lessEq
  | '>', '=' => some .greaterEq
  | '<', '>' => some .stray
  | '<', '<' => some .shiftLeft
  | '>', '>' => some .shiftRight
  | '*', '*' => some .doubleStar
  | '/', '/' => some .doubleSlash
  | '+', '=' => some .plusEq
  | '-', '=' => some .minusEq
  | '-', '>' => some .arrow
  | '*', '=' => some .starEq
  | '/', '=' => some .slashEq
  | '%', '=' => some .percentEq
  | '&', '=' => some .ampEq
  | '|', '=' => some .barEq
  | '^', '=' => some .caretEq
  | '@', '=' => some .atEq
  | ':', '=' => some .colonEq
  | _, _ => none

def ofTriple? : Char → Char → Char → Option Punct
  | '<', '<', '=' => some .shiftLeftEq
  | '>', '>', '=' => some .shiftRightEq
  | '*', '*', '=' => some .doubleStarEq
  | '/', '/', '=' => some .doubleSlashEq
  | '.', '.', '.' => some .ellipsis
  | _, _, _ => none

end Punct

end NotebookSlice.Syntax
