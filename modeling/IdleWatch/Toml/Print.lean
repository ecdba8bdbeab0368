import IdleWatch.Toml.Text

/-!
# Writing TOML values

A string has up to six written forms, and which is used depends on four features of it: whether it
has control characters, backslashes or line feeds, and how many quotes or apostrophes it has in a
row. The plain form between quotes comes first, then the forms that need no escapes; only what no
other form can hold is escaped.
-/

namespace IdleWatch.Toml

/-- Control characters that only an escape can write. -/
def isControl (c : Char) : Bool := (c < ' ' && c ≠ '\t' && c ≠ '\n') || c = '\x7f'

/-- The length of the longest run of `c`: the best so far, and the run that is going on. -/
def longestRun (c : Char) (s : List Char) : Nat :=
  (s.foldl (fun (best, run) d => if d = c then (max best (run + 1), run + 1) else (best, 0))
    (0, 0)).1

/-- The features of a string that decide its written form. -/
structure Features where
  control : Bool
  backslash : Bool
  newline : Bool
  quotes : Nat
  apostrophes : Nat
  deriving DecidableEq, Repr

/-- The features of a string. -/
def Features.of (s : List Char) : Features :=
  { control := s.any isControl
    backslash := s.contains '\\'
    newline := s.contains '\n'
    quotes := longestRun '"' s
    apostrophes := longestRun '\'' s }

/-- The written forms of a string. -/
inductive Form where
  | basic
  | literal
  | multiBasic
  | multiLiteral
  deriving DecidableEq, Repr

/-- The form used for a string with these features: the first that suits it. -/
def Features.form (f : Features) : Form :=
  if !f.control && !f.backslash && f.quotes = 0 && !f.newline then .basic
  else if !f.control && f.apostrophes = 0 && !f.newline then .literal
  else if !f.control && !f.backslash && f.quotes ≤ 2 then .multiBasic
  else if !f.control && f.apostrophes ≤ 2 then .multiLiteral
  else if f.newline then .multiBasic
  else .basic

/-- The escape of a character that has to be escaped between quotes, quotes apart. -/
def escape? (c : Char) : Option (List Char) :=
  match c with
  | '\x08' => some ['\\', 'b']
  | '\x0c' => some ['\\', 'f']
  | '\r' => some ['\\', 'r']
  | '\\' => some ['\\', '\\']
  | c =>
    if isControl c then
      let digit (n : Nat) : Char := (Nat.digitChar n).toUpper
      some ['\\', 'u', '0', '0', digit (c.toNat / 16), digit (c.toNat % 16)]
    else none

/-- A character between quotes on one line: tabs are escaped too. -/
def basicChar : Char → List Char
  | '"' => ['\\', '"']
  | '\n' => ['\\', 'n']
  | '\t' => ['\\', 't']
  | c => (escape? c).getD [c]

/-- Between three quotes: of a run of quotes every third is escaped; `run` are already written. -/
def multiBasicChars : Nat → List Char → List Char
  | _, [] => []
  | run, '"' :: s =>
    if run = 2 then '\\' :: '"' :: multiBasicChars 0 s else '"' :: multiBasicChars (run + 1) s
  | _, '\t' :: s => '\\' :: 't' :: multiBasicChars 0 s
  | _, c :: s => (escape? c).getD [c] ++ multiBasicChars 0 s

/-- A string in a given form. Forms of several lines start a new one if the string has several. -/
def stringChars (form : Form) (newline : Bool) (s : List Char) : List Char :=
  let start := if newline then ['\n'] else []
  match form with
  | .basic => '"' :: s.flatMap basicChar ++ ['"']
  | .literal => '\'' :: s ++ ['\'']
  | .multiBasic => ['"', '"', '"'] ++ start ++ multiBasicChars 0 s ++ ['"', '"', '"']
  | .multiLiteral => ['\'', '\'', '\''] ++ start ++ s ++ ['\'', '\'', '\'']

/-- A string as it is written. -/
def printString (text : String) : List Char :=
  let s := text.toList
  let f := Features.of s
  stringChars f.form f.newline s

/-- An array of strings: up to one on a single line, more on a line each. -/
def printStrings : List String → List Char
  | [] => ['[', ']']
  | [text] => '[' :: printString text ++ [']']
  | texts =>
    ['[', '\n'] ++
      texts.flatMap (fun text => [' ', ' ', ' ', ' '] ++ printString text ++ [',', '\n']) ++ [']']

/-- A truth value. -/
def printBool (b : Bool) : List Char := (if b then "true" else "false").toList

/-- A whole number. -/
def printNat (n : Nat) : List Char := Nat.toDigits 10 n

end IdleWatch.Toml
