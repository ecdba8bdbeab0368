import IdleWatch.Fault
import IdleWatch.Settings.Fit

/-!
# Settings from a file

A settings file is read and parsed. Only a file that need not exist and does not exist leaves the
defaults standing; any other fault is an error. How files are read is a function of the path, so
that nothing here depends on where they are kept.
-/

namespace IdleWatch.Settings

/-- The file that is looked for when no other is named. -/
def defaultFile : String := "ptywatch.toml"

/-- How text files are read: what is in the file at a path, or why it cannot be read. -/
abbrev FileReader := String → Except Fault String

/-- Why there are no settings. -/
inductive LoadError where
  | read (path : String) (fault : Fault)
  | parse (path : String) (error : ParseError)
  | invalid (defect : Defect)

/-- The message about a settings file that cannot be read. -/
def readMessage (path : String) (fault : Fault) : String :=
  s!"failed to read config {path}: {fault.message}"

/-- How the message about a settings file that cannot be parsed begins. -/
def parseMessage (path : String) : String := s!"failed to parse config {path}: "

/-- A file that is missing is excused if it is not required. -/
def excuses (required : Bool) (fault : Fault) : Bool := !required && fault = .notFound

/-- The defaults stand in for the file. -/
def usesDefaults (files : FileReader) (path : String) (required : Bool) : Bool :=
  match files path with
  | .ok _ => false
  | .error fault => excuses required fault

/-- The settings in a file. -/
def load (files : FileReader) (path : String) (required : Bool) : Except LoadError Settings :=
  match files path with
  | .ok text => (parse text).mapError (.parse path)
  | .error fault => if excuses required fault then .ok {} else .error (.read path fault)

end IdleWatch.Settings
