import IdleWatch.Args.Read
import IdleWatch.Launch
import IdleWatch.Settings.Render
import IdleWatch.Settings.Resolve

/-!
# The program

The arguments and the settings file decide what there is to do: to answer at once, or to watch a
command. Then the outcome of the run decides the exit code. What is printed is the answer, or the
lines of the command.
-/

namespace IdleWatch.Program

/-- The name and number of this program. -/
def versionText : String := "ptywatch 0.1.0\n"

/-- What the program does, in a sentence. -/
def aboutText : String :=
  "Run a command on two pseudo-terminals, stream its output line by line, kill it if it goes " ++
    "quiet, and exit 0 only if its last line is the success sentinel"

/-- The lines printed when help is asked for. -/
def helpLines : List String := [
  aboutText,
  "",
  "Usage: ptywatch [OPTIONS] [COMMAND]...",
  "",
  "Arguments:",
  "  [COMMAND]...  Command and arguments to run (overrides config)",
  "",
  "Options:",
  "  -c, --config <CONFIG>      Config file path",
  "  -t, --timeout <TIMEOUT>    Idle timeout in seconds (overrides config)",
  "      --sentinel <SENTINEL>  Success sentinel line (overrides config)",
  "      --dry-run              Validate config and print resolved settings, don't run",
  "  -v, --verbose              Extra logging (stream and watchdog events)",
  "  -q, --quiet                Only warnings and errors on stderr",
  "  -h, --help                 Print help",
  "  -V, --version              Print version"]

/-- What is printed when help is asked for. -/
def helpText : String := String.join (helpLines.map (· ++ "\n"))

/-- What a process leaves behind: its exit code and what it printed. -/
structure Answer where
  exitCode : Nat
  stdout : String
  deriving DecidableEq, Repr

/-- What there is to do. -/
inductive Plan where
  | answer (answer : Answer)
  | watch (settings : Settings)
  deriving DecidableEq, Repr

/-- The answer to arguments that are not carried out. -/
def refuse (r : Args.Refusal) : Answer :=
  { exitCode := r.exitCode
    stdout := match r with
      | .displayHelp => helpText
      | .displayVersion => versionText
      | _ => "" }

/-- The answer to a dry run: the settings, if they can be written. -/
def dryRun (s : Settings) : Answer :=
  match s.render? with
  | some text => { exitCode := 0, stdout := text }
  | none => { exitCode := fatalExitCode, stdout := "" }

/-- What there is to do for these arguments and files. -/
def plan (argv : List String) (files : Settings.FileReader) : Plan :=
  match Args.read argv with
  | .error r => .answer (refuse r)
  | .ok a =>
    match Settings.resolve files a with
    | .error _ => .answer { exitCode := fatalExitCode, stdout := "" }
    | .ok s => if a.dryRun then .answer (dryRun s) else .watch s

/-- The answer after a run: its lines are printed already. -/
def conclude (outcome : Outcome) (printed : String) : Answer :=
  { exitCode := outcome.exitCode, stdout := printed }

/-- A way to carry out runs: what a run with these options comes to, and what it prints. -/
abbrev Carrier := Options → Outcome × String

/-- The whole program, for a way to carry out runs. There is none if the handlers of signals cannot
be installed, but that is found out only when a command is to be watched. -/
def execute (watch : Except Fault Carrier) (argv : List String) (files : Settings.FileReader) :
    Answer :=
  match plan argv files with
  | .answer a => a
  | .watch s =>
    match watch with
    | .error _ => { exitCode := fatalExitCode, stdout := "" }
    | .ok carry =>
      let (outcome, printed) := carry s.options
      conclude outcome printed

/-- Runs that are rehearsed, perhaps with a shutdown asked for after the first line. -/
def rehearsed (interrupted : Bool) : Carrier := fun options =>
  let r := match Launch.script options none with
    | .error e => Rehearsal.stillborn options {} e
    | .ok script =>
      if interrupted then Rehearsal.rehearseInterrupted options {} script
      else Rehearsal.rehearse options {} script
  (r.outcome?.getD .overflow, r.sink.text)

end IdleWatch.Program
