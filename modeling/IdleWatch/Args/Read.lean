import IdleWatch.Args.Basic

/-!
# Reading command line arguments

Arguments are read from left to right. An argument that names an option or a flag acts as such, and
so do letters after one dash if all of them are known. Everything else is a plain word: the value
of an option that waits for one, else the first word of the command. From there on, or after two
dashes alone, nothing is read any more: the rest is the command as it stands.

A value that is written with its option is looked at at once. A value in an argument of its own is
looked at only when the next option or flag acts, or at the end.
-/

namespace IdleWatch.Args

/-- What one argument is. -/
inductive Word where
  /-- Two dashes alone. -/
  | separator
  | plain (text : String)
  /-- An option or a flag by its long name, perhaps with a value. -/
  | long (name : Name) (value : Option String)
  /-- Letters of options and flags after one dash. -/
  | short (letters : List Char)
  deriving DecidableEq, Repr

/-- The text up to the first equals sign, and what follows it if there is one. -/
def splitValue (s : List Char) : List Char × Option (List Char) :=
  match s.span (· ≠ '=') with
  | (name, _ :: value) => (name, some value)
  | (name, []) => (name, none)

/-- What an argument is. -/
def Word.of (argument : String) : Word :=
  match argument.toList with
  | ['-', '-'] => .separator
  | '-' :: '-' :: s =>
    let (spelling, value) := splitValue s
    match Name.ofLong? (String.ofList spelling) with
    | some name => .long name (value.map String.ofList)
    | none => .plain argument
  | '-' :: c :: s =>
    if (c :: s).all (fun c => (Name.ofShort? c).isSome) then .short (c :: s) else .plain argument
  | _ => .plain argument

/-- How far reading has come. -/
structure Progress where
  args : Args := {}
  /-- The options whose values have been looked at, and the flags. -/
  seen : List Name := []
  /-- An option that waits for its value. -/
  waiting : Option Valued := none
  /-- An option with a value that is still to be looked at. -/
  unchecked : Option (Valued × String) := none
  deriving DecidableEq, Repr

/-- The number in a text: digits, perhaps with a plus sign, of a number below 2 ^ 64. -/
def number? (text : String) : Option Nat :=
  let ds := match text.toList with
    | '+' :: s => s
    | s => s
  if ds.isEmpty || !ds.all Char.isDigit then none
  else
    let n := ds.foldl (fun n c => n * 10 + (c.toNat - '0'.toNat)) 0
    if n < 18446744073709551616 then some n else none

/-- The arguments with the value of an option. -/
def setValue (a : Args) (value : String) : Valued → Except Refusal Args
  | .config => if value = "" then .error .invalidValue else .ok { a with config := some value }
  | .timeout =>
    match number? value with
    | some n => .ok { a with timeout := some n }
    | none => .error .valueValidation
  | .sentinel => .ok { a with sentinel := some value }

/-- The arguments with a flag. -/
def setFlag (a : Args) : Flag → Except Refusal Args
  | .dryRun => .ok { a with dryRun := true }
  | .verbose => .ok { a with verbose := true }
  | .quiet => .ok { a with quiet := true }
  | .help => .error .displayHelp
  | .version => .error .displayVersion

namespace Progress

/-- Look at the value that is still to be looked at. Nothing may wait for its value any more. -/
def complete (p : Progress) : Except Refusal Progress :=
  if p.waiting.isSome then .error .invalidValue
  else
    match p.unchecked with
    | none => .ok p
    | some (option, value) =>
      if p.seen.contains (.valued option) then .error .argumentConflict
      else
        (setValue p.args value option).map fun args =>
          { p with args, seen := .valued option :: p.seen, unchecked := none }

/-- A flag acts. -/
def flag (p : Progress) (f : Flag) : Except Refusal Progress := do
  let p ← p.complete
  if p.seen.contains (.flag f) then .error .argumentConflict
  else
    let args ← setFlag p.args f
    .ok { p with args, seen := .flag f :: p.seen }

/-- An option acts, with its value if that is written with it. -/
def option (p : Progress) (o : Valued) (value : Option String) : Except Refusal Progress := do
  let p ← p.complete
  match value with
  | some value => complete { p with unchecked := some (o, value) }
  | none => .ok { p with waiting := some o }

/-- Letters act one after another; an option takes the rest of them as its value, if any. -/
def letters (p : Progress) : List Char → Except Refusal Progress
  | [] => .ok p
  | c :: rest =>
    match Name.ofShort? c with
    | some (.flag f) => do
      let p ← p.flag f
      p.letters rest
    | some (.valued o) => p.option o (if rest.isEmpty then none else some (String.ofList rest))
    | none => .ok p

/-- An option or a flag acts that was given by its long name. -/
def long (p : Progress) (name : Name) (value : Option String) : Except Refusal Progress :=
  match name, value with
  | .flag _, some _ => .error .tooManyValues
  | .flag f, none => p.flag f
  | .valued o, value => p.option o value

/-- Nothing more is read: the rest is the command. -/
def finish (p : Progress) (command : List String) : Except Refusal Args :=
  p.complete.map fun p => { p.args with command }

/-- Read the arguments that are left. -/
def read (p : Progress) : List String → Except Refusal Args
  | [] => p.finish []
  | argument :: rest =>
    match Word.of argument with
    | .separator => p.finish rest
    | .plain text =>
      match p.waiting with
      | some o => read { p with waiting := none, unchecked := some (o, text) } rest
      | none => p.finish (argument :: rest)
    | .long name value => do
      let p ← p.long name value
      p.read rest
    | .short cs => do
      let p ← p.letters cs
      p.read rest

end Progress

/-- Read command line arguments. -/
def read (arguments : List String) : Except Refusal Args := Progress.read {} arguments

end IdleWatch.Args
