import IdleWatch.Settings.Section
import IdleWatch.Toml.Print

/-!
# Settings as a document

All settings are written, section by section. Numbers that do not fit into 63 bits cannot be
written, because a document that had them could not be read.
-/

namespace IdleWatch.Settings

/-- The greatest number that can be written. -/
def maxNumber : Nat := 9223372036854775807

/-- What is said when a number cannot be written. -/
def outOfRangeMessage : String := "out-of-range value for u64 type"

/-- The value of a field as it is written. -/
def printField (s : Settings) : Field → List Char
  | .program => Toml.printString s.program
  | .args => Toml.printStrings s.args
  | .processGroup => Toml.printBool s.processGroup
  | .idleTimeoutSecs => Toml.printNat s.idleTimeoutSecs
  | .sentinel => Toml.printString s.sentinel
  | .readChunk => Toml.printNat s.readChunk

/-- A line of a section. -/
def printLine (s : Settings) (field : Field) : List Char :=
  field.key.toList ++ [' ', '=', ' '] ++ s.printField field ++ ['\n']

/-- A section: its header and its lines. -/
def printPart (s : Settings) (part : Part) : List Char :=
  '[' :: part.key.toList ++ [']', '\n'] ++ part.fields.flatMap s.printLine

/-- The sections, with a blank line between two of them. -/
def printParts (s : Settings) : List Char :=
  List.intercalate ['\n'] (Part.all.map s.printPart)

/-- The document, if all numbers can be written. -/
def render? (s : Settings) : Option String :=
  if s.idleTimeoutSecs ≤ maxNumber ∧ s.readChunk ≤ maxNumber then
    some (String.ofList s.printParts)
  else none

end IdleWatch.Settings
