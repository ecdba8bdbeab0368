/-!
# Command line arguments

The arguments give the command to watch, options with a value and flags. How they are written is
the reader's business; here is what they say.
-/

namespace IdleWatch

/-- What the arguments say. -/
structure Args where
  /-- The command with its own arguments; empty if none is given. -/
  command : List String := []
  /-- The settings file. -/
  config : Option String := none
  /-- Seconds. -/
  timeout : Option Nat := none
  sentinel : Option String := none
  dryRun : Bool := false
  verbose : Bool := false
  quiet : Bool := false
  deriving DecidableEq, Repr

/-- How much is logged. -/
def Args.logLevel (a : Args) : String :=
  if a.verbose then "debug" else if a.quiet then "warn" else "info"

namespace Args

/-- Options, which have a value. -/
inductive Valued where
  | config
  | timeout
  | sentinel
  deriving DecidableEq, Repr

/-- Flags, which have none. -/
inductive Flag where
  | dryRun
  | verbose
  | quiet
  | help
  | version
  deriving DecidableEq, Repr

/-- An option or a flag. -/
inductive Name where
  | valued (option : Valued)
  | flag (flag : Flag)
  deriving DecidableEq, Repr

/-- The name after two dashes. -/
def Name.long : Name → String
  | .valued .config => "config"
  | .valued .timeout => "timeout"
  | .valued .sentinel => "sentinel"
  | .flag .dryRun => "dry-run"
  | .flag .verbose => "verbose"
  | .flag .quiet => "quiet"
  | .flag .help => "help"
  | .flag .version => "version"

/-- The letter after one dash, if there is one. -/
def Name.short? : Name → Option Char
  | .valued .config => some 'c'
  | .valued .timeout => some 't'
  | .valued .sentinel => none
  | .flag .dryRun => none
  | .flag .verbose => some 'v'
  | .flag .quiet => some 'q'
  | .flag .help => some 'h'
  | .flag .version => some 'V'

/-- All options and flags. -/
def Name.all : List Name :=
  [.valued .config, .valued .timeout, .valued .sentinel, .flag .dryRun, .flag .verbose,
    .flag .quiet, .flag .help, .flag .version]

/-- The option or flag with this long name. -/
def Name.ofLong? (long : String) : Option Name := all.find? (·.long = long)

/-- The option or flag with this letter. -/
def Name.ofShort? (c : Char) : Option Name := all.find? (·.short? = some c)

/-- Why arguments are not carried out: they are wrong, or they ask for help. -/
inductive Refusal where
  /-- A flag was given a value. -/
  | tooManyValues
  /-- An option has no value, or its value cannot be one. -/
  | invalidValue
  /-- A value does not parse. -/
  | valueValidation
  /-- An option or a flag was given twice. -/
  | argumentConflict
  | displayHelp
  | displayVersion
  deriving DecidableEq, Repr

/-- The name of a refusal. -/
def Refusal.name : Refusal → String
  | .tooManyValues => "TooManyValues"
  | .invalidValue => "InvalidValue"
  | .valueValidation => "ValueValidation"
  | .argumentConflict => "ArgumentConflict"
  | .displayHelp => "DisplayHelp"
  | .displayVersion => "DisplayVersion"

/-- Wrong arguments, as opposed to a question. -/
def Refusal.isError : Refusal → Bool
  | .displayHelp | .displayVersion => false
  | _ => true

/-- The exit code after a refusal. -/
def Refusal.exitCode (r : Refusal) : Nat := if r.isError then 2 else 0

end Args

end IdleWatch
