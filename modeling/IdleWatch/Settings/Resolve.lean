import IdleWatch.Args.Basic
import IdleWatch.Settings.Load

/-!
# The settings that count

The settings of the file, overlaid with what the arguments say: a command replaces the program
together with its arguments. What counts has to be free of defects.
-/

namespace IdleWatch.Settings

/-- The settings overlaid with the arguments. -/
def overlay (s : Settings) (a : Args) : Settings :=
  let s := match a.command with
    | program :: args => { s with program, args }
    | [] => s
  let s := match a.timeout with
    | some idleTimeoutSecs => { s with idleTimeoutSecs }
    | none => s
  match a.sentinel with
  | some sentinel => { s with sentinel }
  | none => s

/-- The file that the arguments mean, and whether it has to exist. -/
def fileFor (a : Args) : String × Bool :=
  match a.config with
  | some path => (path, true)
  | none => (defaultFile, false)

/-- The settings that count. -/
def resolve (files : FileReader) (a : Args) : Except LoadError Settings :=
  let (path, required) := fileFor a
  match load files path required with
  | .error e => .error e
  | .ok s =>
    let s := s.overlay a
    match s.defect? with
    | some d => .error (.invalid d)
    | none => .ok s

end IdleWatch.Settings
