import IdleWatch.Reading
import IdleWatch.Verdict
import IdleWatch.Watchdog.Shared

/-!
# What a run is given and what it gives back

A run is given a command and how to watch it. It gives back a report, or the error that ended it,
or it fails because its clock cannot represent a deadline. On the way it enters phases, kills its
child, reaps it and lets it go; these effects are kept in order, because it is their order that
makes killing by number safe.
-/

namespace IdleWatch

/-- What to run and how to watch it. -/
structure Options where
  program : String
  args : List String
  /-- Kills go to the child's whole process group. -/
  processGroup : Bool
  idleTimeout : Time
  sentinel : String
  /-- The most bytes asked for in one read. -/
  readChunk : Nat
  deriving DecidableEq, Repr

/-- The phases of a run. -/
inductive Phase where
  | spawning
  | running
  | draining
  | terminated
  deriving DecidableEq, Repr

/-- The name of a phase. -/
def Phase.name : Phase → String
  | .spawning => "Spawning"
  | .running => "Running"
  | .draining => "Draining"
  | .terminated => "Terminated"

/-- How the command came to stop. -/
inductive Termination where
  /-- By itself. -/
  | natural
  /-- The watchdog killed it. -/
  | idleTimeout
  /-- It was killed because a shutdown was asked for. -/
  | interrupted
  deriving DecidableEq, Repr

/-- The name of a termination. -/
def Termination.name : Termination → String
  | .natural => "Natural"
  | .idleTimeout => "IdleTimeout"
  | .interrupted => "Interrupted"

/-- The exit code of a process, none if a signal ended it. -/
abbrev ExitStatus := Option Nat

/-- The result of a run that came to its end. -/
structure Report where
  verdict : Verdict
  termination : Termination
  exitStatus : ExitStatus
  lines : List Line
  deriving DecidableEq, Repr

/-- What ends a run without a verdict. -/
inductive RunError where
  | pty (stream : Stream) (number : Int)
  | spawn (program : String) (fault : Fault)
  | register (stream : Stream) (fault : Fault)
  | read (stream : Stream) (fault : Fault)
  | wait (fault : Fault)
  | output (fault : Fault)
  deriving DecidableEq, Repr

namespace RunError

/-- The text of what is behind an error. -/
def cause : RunError → String
  | .pty _ number => Fault.symbolic number
  | .spawn _ fault | .register _ fault | .read _ fault | .wait fault | .output fault =>
    fault.message

/-- What an error says it failed to do. -/
def task : RunError → String
  | .pty stream _ => s!"open pty for {stream.name}"
  | .spawn program _ => s!"spawn {program}"
  | .register stream _ => s!"poll {stream.name} pty"
  | .read stream _ => s!"read {stream.name} pty"
  | .wait _ => "wait for child"
  | .output _ => "write output"

/-- The text of an error. -/
def message (e : RunError) : String := s!"failed to {e.task}: {e.cause}"

end RunError

/-- How a run ends. -/
inductive Outcome where
  | report (report : Report)
  | error (error : RunError)
  /-- The clock cannot represent a deadline. -/
  | overflow
  deriving DecidableEq, Repr

/-- The exit code for an end without a verdict. -/
def fatalExitCode : Nat := 2

/-- The exit code when the clock cannot represent a deadline. -/
def overflowExitCode : Nat := 101

/-- The exit code that tells how a run ended. -/
def Outcome.exitCode : Outcome → Nat
  | .report r => r.verdict.exitCode
  | .error _ => fatalExitCode
  | .overflow => overflowExitCode

/-- Who kills the child. -/
inductive Killer where
  | watchdog
  | shutdown
  deriving DecidableEq, Repr

/-- The notice given with a kill. -/
def Killer.notice : Killer → String
  | .watchdog => "cancelling command (timed out)"
  | .shutdown => "shutdown requested, killing child"

/-- What a run does that cannot be undone, and the end of its child. -/
inductive Effect where
  | entered (phase : Phase)
  | killed (killer : Killer)
  /-- The child has come to its end; its number stays taken until it is reaped. -/
  | exited
  | reaped
  /-- The child is let go of. -/
  | released
  deriving DecidableEq, Repr

/-- The phase that an effect enters. -/
def Effect.phase? : Effect → Option Phase
  | .entered phase => some phase
  | _ => none

/-- The killer of an effect that is a kill. -/
def Effect.killer? : Effect → Option Killer
  | .killed killer => some killer
  | _ => none

end IdleWatch
