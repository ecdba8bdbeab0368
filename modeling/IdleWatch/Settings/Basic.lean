import IdleWatch.Run.Basic
import IdleWatch.Text.Blank

/-!
# Settings

The settings say which command to run and how to watch it. Each has a default. Settings that make
no sense have a defect, and of several defects the first in a fixed order is reported.
-/

namespace IdleWatch

/-- The line that tells success, unless another is set. -/
def defaultSentinel : String := "OK"

/-- The settings, with their defaults. -/
structure Settings where
  program : String := "pros"
  args : List String := ["t"]
  processGroup : Bool := true
  idleTimeoutSecs : Nat := 10
  sentinel : String := defaultSentinel
  /-- The most bytes asked for in one read. -/
  readChunk : Nat := 1000
  deriving DecidableEq, Repr

/-- What can be wrong with settings. -/
inductive Defect where
  | blankProgram
  | zeroTimeout
  | emptySentinel
  | zeroChunk
  deriving DecidableEq, Repr

/-- The wording of a defect. -/
def Defect.reason : Defect → String
  | .blankProgram => "command.program is empty"
  | .zeroTimeout => "watchdog.idle_timeout_secs must be positive"
  | .emptySentinel => "verdict.sentinel is empty"
  | .zeroChunk => "stream.read_chunk must be positive"

/-- The message about settings that are invalid for a reason. -/
def invalidMessage (reason : String) : String := s!"invalid config: {reason}"

namespace Settings

/-- The settings have this defect. -/
def has (s : Settings) : Defect → Bool
  | .blankProgram => Text.isBlank s.program
  | .zeroTimeout => s.idleTimeoutSecs = 0
  | .emptySentinel => s.sentinel = ""
  | .zeroChunk => s.readChunk = 0

/-- The first defect, if there is one. -/
def defect? (s : Settings) : Option Defect :=
  [Defect.blankProgram, .zeroTimeout, .emptySentinel, .zeroChunk].find? s.has

/-- What the settings mean for a run. -/
def options (s : Settings) : Options :=
  { program := s.program
    args := s.args
    processGroup := s.processGroup
    idleTimeout := s.idleTimeoutSecs * 1000
    sentinel := s.sentinel
    readChunk := s.readChunk }

end Settings

end IdleWatch
