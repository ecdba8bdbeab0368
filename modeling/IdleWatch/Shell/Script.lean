import IdleWatch.Text.Octets

/-!
# Shell scripts

A script is made of commands, a command of words and redirections, and a word of pieces: text, and
what is replaced by the value of a parameter, the output of a command or the value of an arithmetic
expression. Every piece remembers whether it stood in quotes, because what did is not split into
fields and is no pattern.
-/

namespace IdleWatch.Shell

open Text (Octets)

/-- What the expansion of a parameter makes of its value and its word. -/
inductive Use where
  | value
  | length
  /-- The word, in place of no value; `colon`: an empty value is none. -/
  | otherwise (colon : Bool)
  /-- The same, and the parameter is set to the word. -/
  | assign (colon : Bool)
  /-- No value is an error, whose text is the word. -/
  | demand (colon : Bool)
  /-- The word, in place of a value. -/
  | alternative (colon : Bool)
  /-- The value without what matches the word as a pattern, at its front or its end. -/
  | cut (front longest : Bool)
  /-- Nothing that has a meaning. -/
  | bad
  deriving DecidableEq, Repr

/-- How a file is opened. -/
inductive Opening where
  | read
  | write
  | append
  | both
  deriving DecidableEq, Repr

mutual

/-- A part of a word. -/
inductive Piece where
  | text (quoted : Bool) (s : Octets)
  | parameter (quoted : Bool) (name : Octets) (use : Use) (word : List Piece)
  | output (quoted : Bool) (command : Command)
  | arithmetic (quoted : Bool) (expression : List Piece)

/-- Where a descriptor leads while a command runs. -/
inductive Redirection where
  | file (descriptor : Nat) (opening : Opening) (name : List Piece)
  /-- The same place as another descriptor, or nowhere. -/
  | copy (descriptor : Nat) (source : List Piece)
  /-- A text that stands in the script, by its number. -/
  | document (descriptor : Nat) (number : Nat)

/-- A command. The lines are what complaints show. -/
inductive Command where
  | nothing
  | simple (line : Nat) (assignments words : List (List Piece)) (redirections : List Redirection)
  | pipeline (commands : List Command) (background : Bool)
  | negated (command : Command)
  | both (first second : Command)
  | either (first second : Command)
  | sequence (first second : Command)
  | background (line : Nat) (command : Command) (redirections : List Redirection)
  | subshell (line : Nat) (command : Command) (redirections : List Redirection)
  | redirected (line : Nat) (command : Command) (redirections : List Redirection)
  | choice (condition yes no : Command)
  | loop (negated : Bool) (condition body : Command)
  | each (line : Nat) (name : Octets) (words : List (List Piece)) (body : Command)
  | cases (line : Nat) (word : List Piece) (items : List (List (List Piece) × Command))
  | define (name : Octets) (body : Command)

end

/-- A word: its pieces in order. -/
abbrev Word := List Piece

instance : Inhabited Command := ⟨.nothing⟩

/-- Text pieces that follow one another and are quoted alike become one. -/
def joinText : List Piece → Word
  | [] => []
  | .text q s :: rest =>
    match joinText rest with
    | .text r t :: rest =>
      if q = r then .text q (s ++ t) :: rest else .text q s :: .text r t :: rest
    | rest => .text q s :: rest
  | p :: rest => p :: joinText rest

/-- A word that is nothing but text without quotes. -/
def plainText? : Word → Option Octets
  | [.text false s] => some s
  | _ => none

/-- Some of a word stood in quotes. -/
def isQuoted : Word → Bool
  | [] => false
  | .text q _ :: rest => q || isQuoted rest
  | .parameter q .. :: rest => q || isQuoted rest
  | .output q _ :: rest => q || isQuoted rest
  | .arithmetic q _ :: rest => q || isQuoted rest

/-! ## Names -/

/-- A character that a name can begin with. -/
def isNameStart (c : Char) : Bool := c.isAlpha || c = '_'

/-- A character that a name can go on with. -/
def isNameChar (c : Char) : Bool := c.isAlphanum || c = '_'

/-- A name of a variable or a function. -/
def isName : Octets → Bool
  | [] => false
  | c :: s => isNameStart c && s.all isNameChar

/-- The name and the rest of a text that begins like an assignment. -/
def assignment? (s : Octets) : Option (Octets × Octets) :=
  let name := s.takeWhile isNameChar
  match s.drop name.length with
  | '=' :: value => if isName name then some (name, value) else none
  | _ => none

/-- A word that assigns to a variable: its name, and the word for the value. -/
def assignmentWord? : Word → Option (Octets × Word)
  | .text false s :: rest =>
    (assignment? s).map fun (name, value) =>
      (name, if value.isEmpty then rest else .text false value :: rest)
  | _ => none

end IdleWatch.Shell
